import BlockIntake.Merkle.TreeHasher
import BlockIntake.Proofs.Merkle.Delivery

/-!
# Either tree serves a session

A session appends leaves and at the end asks for a root. Whichever of the two trees it uses, and in
whatever order a plan lets the jobs land, every answer is that of the tree that keeps its leaves,
also where the tree refuses.
-/

namespace BlockIntake.Merkle

open Combiner CombiningTree

variable {tree : CombiningTree} {planned : PlannedTree} {strategy : StrategyTree}
  {naive : LeafTree} {leaves : List Digest}

/-- Landing jobs leaves the trees alike. -/
theorem Mirrors.landAll (mirrors : Mirrors ⟨tree, none⟩ naive) (positions : List Nat) :
    ∃ next, positions.foldlM (fun tree position => tree.landJob position) tree = .ok next ∧
      Mirrors ⟨next, none⟩ naive := by
  induction positions generalizing tree with
  | nil => exact ⟨tree, rfl, mirrors⟩
  | cons position positions ih =>
    obtain ⟨middle, hmiddle, hmirrors⟩ := mirrors.landJob position
    obtain ⟨next, hnext, hlast⟩ := ih hmirrors
    refine ⟨next, ?_, hlast⟩
    rw [List.foldlM_cons, hmiddle, ok_bind, hnext]

/-- The landings of a plan leave the trees alike. -/
theorem Mirrors.proceed (mirrors : Mirrors ⟨planned.tree, none⟩ naive) :
    ∃ next, planned.proceed = .ok next ∧ Mirrors ⟨next.tree, none⟩ naive := by
  obtain ⟨tree, heq, hmirrors⟩ := mirrors.landAll (planned.plan.head?.getD [])
  refine ⟨⟨tree, planned.plan.tail⟩, ?_, hmirrors⟩
  rw [PlannedTree.proceed, heq]
  rfl

/-- Landing jobs as often as hashes are held leaves no job. -/
theorem CombiningTree.Closing.settleWithin (closing : tree.Closing leaves) {steps : Nat}
    (enough : tree.combiner.heldCount ≤ steps) :
    ∃ next, tree.settleWithin steps = .ok next ∧ next.Closing leaves ∧ next.combiner.jobs = [] := by
  induction steps generalizing tree with
  | zero =>
    refine ⟨tree, rfl, closing, ?_⟩
    by_contra hjobs
    have hpos := List.length_pos_of_ne_nil hjobs
    obtain ⟨next, -, -, hless⟩ := closing.landJob (List.getElem?_eq_getElem hpos)
    omega
  | succ steps ih =>
    rw [CombiningTree.settleWithin]
    by_cases hidle : tree.combiner.jobs = []
    · refine ⟨tree, ?_, closing, hidle⟩
      rw [if_pos (by simp [hidle])]
    · have hpos := List.length_pos_of_ne_nil hidle
      obtain ⟨middle, heq, hmiddle, hless⟩ := closing.landJob (List.getElem?_eq_getElem hpos)
      obtain ⟨next, hnext, hclosing, hdone⟩ := ih hmiddle (by omega)
      refine ⟨next, ?_, hclosing, hdone⟩
      rw [if_neg (by simpa using hidle), heq, ok_bind, hnext]

/-- A requested root is there once every job has landed. -/
theorem CombiningTree.Closing.awaitRoot (closing : planned.tree.Closing leaves) :
    planned.awaitRoot = .ok (topHash leaves) := by
  obtain ⟨next, heq, hclosing, hidle⟩ := closing.settleWithin (Nat.le_refl _)
  have hroots := hclosing.roots_of_idle hidle
  rw [PlannedTree.awaitRoot, CombiningTree.settle]
  rw [Combiner.heldCount] at heq
  simp [heq, hroots]

/-- A tree of a session and the tree that keeps its leaves, after the same leaves. -/
inductive Alike : StrategyTree → LeafTree → Prop where
  /-- They are the same. -/
  | leaves (naive : LeafTree) : Alike (.leaves naive) naive
  /-- They mirror each other. -/
  | combining {planned : PlannedTree} {naive : LeafTree}
      (mirrors : Mirrors ⟨planned.tree, none⟩ naive) : Alike (.combining planned) naive

/-- Appending a leaf has the same outcome whichever tree is used. -/
theorem Alike.add (alike : Alike strategy naive) (leaf : Bytes) :
    SameOutcome Alike (TreeHasher.add strategy leaf) (TreeHasher.add naive leaf) := by
  cases alike with
  | leaves naive =>
    change SameOutcome Alike (LeafTree.add naive leaf >>= fun tree => pure (.leaves tree))
      (LeafTree.add naive leaf)
    cases naive.add leaf with
    | ok next => exact .ok (.leaves next)
    | error fault => exact .error fault
  | @combining planned _ mirrors =>
    change SameOutcome Alike ((planned.tree.add leaf >>= fun tree =>
      orCrash (PlannedTree.proceed { planned with tree })) >>= fun tree => pure (.combining tree))
      (naive.add leaf)
    have same := mirrors.add leaf
    generalize planned.tree.add leaf = answer at same ⊢
    generalize naive.add leaf = reply at same ⊢
    cases same with
    | error fault => exact .error fault
    | @ok tree next related =>
      have hmirrors : Mirrors ⟨({ planned with tree } : PlannedTree).tree, none⟩ next := related
      obtain ⟨last, heq, hlast⟩ := hmirrors.proceed
      rw [ok_bind, heq]
      exact .ok (.combining hlast)

/-- A tree whose root was requested is closed. -/
theorem closed_of_requestRoot {next : LeafTree} (h : naive.requestRoot = .ok next) :
    next.closed = true := by
  rw [LeafTree.requestRoot] at h
  cases hclosed : naive.closed with
  | true => simp [hclosed] at h
  | false =>
    cases hroot : LeafTree.rootOf naive.leaves.toList with
    | error crash => simp [hclosed, hroot] at h
    | ok root =>
      simp only [hclosed, hroot, orCrash_ok, ok_bind, pure_eq_ok, Bool.false_eq_true, if_false,
        Except.ok.injEq] at h
      rw [← h]

/-- A root that was delivered on request is the one a session gets. -/
theorem root_of_ok {next : LeafTree} {root : Digest} (h : naive.requestRoot = .ok next)
    (roots : next.roots = [root]) :
    (TreeHasher.root naive : Except TreeFault (Except TreeFault Digest)) = .ok (.ok root) := by
  simp only [TreeHasher.root, h, ok_bind, roots, List.head?_cons, pure_eq_ok]

/-- A request that fails is the failure a session gets. -/
theorem root_of_error {fault : TreeFault} (h : naive.requestRoot = .error fault) :
    (TreeHasher.root naive : Except TreeFault (Except TreeFault Digest)) = .error fault := by
  simp only [TreeHasher.root, h, error_bind]

/-- The root is the same whichever tree is used. -/
theorem Alike.root (alike : Alike strategy naive) :
    (TreeHasher.root strategy : Except TreeFault (Except TreeFault Digest)) =
      TreeHasher.root naive := by
  cases alike with
  | leaves naive => rfl
  | @combining planned _ mirrors =>
    change ((planned.tree.requestRoot >>= fun tree =>
        orCrash (PlannedTree.proceed { planned with tree })) >>= fun planned =>
          pure planned.awaitRoot) = TreeHasher.root naive
    have same := mirrors.requestRoot
    generalize planned.tree.requestRoot = answer at same ⊢
    generalize hreply : naive.requestRoot = reply at same
    cases same with
    | error fault => exact (root_of_error hreply).symm
    | @ok tree next related =>
      have hmirrors : Mirrors ⟨({ planned with tree } : PlannedTree).tree, none⟩ next := related
      obtain ⟨last, heq, hlast⟩ := hmirrors.proceed
      rw [ok_bind, heq, orCrash_ok, ok_bind]
      cases hlast with
      | growing _ isOpen _ =>
        have hclosed := closed_of_requestRoot hreply
        exact absurd (hclosed.symm.trans isOpen) Bool.noConfusion
      | closing closing _ roots => rw [root_of_ok hreply roots, closing.awaitRoot, pure_eq_ok]

/-- A digest is read back from its bytes. -/
theorem readLeaf_bytes (d : Digest) : readLeaf d.bytes = .ok d := by
  have hall : d.bytes.take digestSize = d.bytes := List.take_of_length_le d.length_bytes.le
  simp [readLeaf, hall, Digest.ofBytes?, d.length_bytes]

/-- A digest is appended to an open tree with room for it. -/
theorem add_digest (isOpen : naive.closed = false) (notFull : naive.leaves.size < maxLeaves)
    (d : Digest) : naive.add d.bytes = .ok (naive.push d) := by
  have hroom : ¬ maxLeaves ≤ naive.leaves.size := Nat.not_le_of_lt notFull
  simp [LeafTree.add, LeafTree.accept, isOpen, readLeaf_bytes, orRefuse, hroom]

/-- The root of an open tree stands at the top of its leaves. -/
theorem root_eq (isOpen : naive.closed = false) (roots : naive.roots = [])
    (few : naive.leaves.toList.length ≤ maxLeaves) :
    (TreeHasher.root naive : Except TreeFault (Except TreeFault Digest)) =
      .ok (.ok (topHash naive.leaves.toList)) :=
  root_of_ok (requestRoot_eq isOpen roots few) rfl

end BlockIntake.Merkle
