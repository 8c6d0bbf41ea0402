import BlockIntake.Merkle.Schedule
import BlockIntake.Proofs.Merkle.Scanning
import BlockIntake.Proofs.Outcome

/-!
# Both trees give the same answers

A run of the combining tree is followed by the tree that keeps its leaves, which performs the
operations the owner calls and knows nothing of jobs. At every point of the run the two mirror each
other: they have got the same leaves and are open or closed together, and while the owner waits for
a frontier the answer it is owed is the one the other tree has given already.
-/

namespace BlockIntake.Merkle

open Combiner CombiningTree

variable {run : TreeRun} {tree : CombiningTree} {naive : LeafTree} {scan : Scan}

/-- A combining tree in a run, and the tree that keeps its leaves after the same operations. -/
inductive Mirrors : TreeRun → LeafTree → Prop where
  /-- Both are open. -/
  | growing {tree : CombiningTree} {naive : LeafTree}
      (growing : tree.Growing naive.leaves.toList) (isOpen : naive.closed = false)
      (roots : naive.roots = []) : Mirrors ⟨tree, none⟩ naive
  /-- Both are open, and the owner waits for a frontier. -/
  | scanning {tree : CombiningTree} {naive : LeafTree} {scan : Scan}
      (scanning : tree.Scanning naive.leaves.toList scan) (isOpen : naive.closed = false)
      (roots : naive.roots = []) : Mirrors ⟨tree, some scan⟩ naive
  /-- Both are closed. -/
  | closing {tree : CombiningTree} {naive : LeafTree}
      (closing : tree.Closing naive.leaves.toList) (isClosed : naive.closed = true)
      (roots : naive.roots = [topHash naive.leaves.toList]) : Mirrors ⟨tree, none⟩ naive

/-- The operation a move performs: an owner that waits makes no calls. -/
def TreeRun.called (run : TreeRun) : Move → Option TreeOp
  | .call op => if run.scan.isNone then some op else none
  | .land _ => none
  | .resume => none

/-- The operations performed in a run, in order. -/
def TreeRun.performed (run : TreeRun) : List Move → List TreeOp
  | [] => []
  | m :: moves => (run.called m).toList ++ (run.move m).2.performed moves

/-- The answer an owner that waits is owed. -/
def TreeRun.owed (run : TreeRun) (naive : LeafTree) : List TreeAnswer :=
  if run.scan.isSome then [(naive.perform .frontier).1] else []

/-- After a move the trees still mirror each other, and what the move answers, with what is still
owed, are the given replies. -/
def Replies (move : Option TreeAnswer × TreeRun) (replies : List TreeAnswer) (naive : LeafTree) :
    Prop :=
  Mirrors move.2 naive ∧ move.1.toList ++ move.2.owed naive = replies

/-- The frontier of an open tree is that of its leaves. -/
theorem perform_frontier (isOpen : naive.closed = false) {frontier : Frontier}
    (h : LeafTree.frontierOf naive.leaves.toList = .ok frontier) :
    (naive.perform .frontier).1 = .frontier frontier := by
  simp [LeafTree.perform, LeafTree.frontier, isOpen, h]

/-- Asking a tree for its frontier changes nothing. -/
theorem perform_frontier_snd (naive : LeafTree) : (naive.perform .frontier).2 = naive := by
  simp only [LeafTree.perform]
  split <;> rfl

/-- Appending a leaf is answered as it turns out. -/
theorem perform_add (naive : LeafTree) (leaf : Bytes) :
    naive.perform (.add leaf) = match naive.add leaf with
      | .ok next => (.accepted, next)
      | .error fault => (.fault fault, naive) := by
  rw [LeafTree.perform, LeafTree.add]
  cases naive.accept leaf <;> rfl

/-- A leaf is accepted only by an open tree with room for it. -/
theorem accept_ok {leaf : Bytes} {hash : Digest} (h : naive.accept leaf = .ok hash) :
    naive.closed = false ∧ naive.leaves.toList.length < maxLeaves := by
  have hsize : naive.leaves.toList.length = naive.leaves.size := Array.length_toList
  rw [LeafTree.accept] at h
  cases hclosed : naive.closed with
  | true => simp [hclosed] at h
  | false =>
    refine ⟨rfl, ?_⟩
    by_contra full
    have hfull : maxLeaves ≤ naive.leaves.size := by omega
    cases hread : readLeaf leaf with
    | error cause => simp [hclosed, hread, orRefuse] at h
    | ok hash => simp [hclosed, hread, orRefuse, hfull] at h

/-- The combining tree has counted the leaves of the other one. -/
theorem Mirrors.counts (mirrors : Mirrors run naive) : run.tree.Counts naive.leaves.toList := by
  cases mirrors with
  | growing growing _ _ => exact growing.toCounts
  | scanning scanning _ _ => exact scanning.toCounts
  | closing closing _ _ => exact closing.toCounts

/-- Both trees are open, or both are closed. -/
theorem Mirrors.closed_eq (mirrors : Mirrors run naive) : naive.closed = run.tree.closed := by
  cases mirrors with
  | growing growing isOpen _ => exact isOpen.trans growing.closed.symm
  | scanning scanning isOpen _ => exact isOpen.trans scanning.closed.symm
  | closing closing isClosed _ => exact isClosed.trans closing.closed.symm

/-- An open tree whose owner does not wait is growing. -/
theorem Mirrors.growing_of_open (mirrors : Mirrors ⟨tree, none⟩ naive)
    (isOpen : naive.closed = false) :
    tree.Growing naive.leaves.toList ∧ naive.roots = [] := by
  cases mirrors with
  | growing growing _ roots => exact ⟨growing, roots⟩
  | closing _ isClosed _ => exact absurd (isClosed.symm.trans isOpen) Bool.noConfusion

/-- Appending a leaf has the same outcome for both trees. -/
theorem Mirrors.add (mirrors : Mirrors ⟨tree, none⟩ naive) (leaf : Bytes) :
    SameOutcome (fun tree naive => Mirrors ⟨tree, none⟩ naive) (tree.add leaf)
      (naive.add leaf) := by
  rw [CombiningTree.add, LeafTree.add, mirrors.counts.accept_eq leaf mirrors.closed_eq rfl]
  cases hleaf : naive.accept leaf with
  | error fault => exact .error fault
  | ok hash =>
    obtain ⟨isOpen, notFull⟩ := accept_ok hleaf
    obtain ⟨growing, roots⟩ := mirrors.growing_of_open isOpen
    obtain ⟨next, heq, hnext, -⟩ := growing.push hash notFull
    rw [ok_bind, heq]
    exact .ok (.growing (by simpa [LeafTree.push] using hnext) isOpen roots)

/-- A request for the root of an open tree delivers what stands at the top of its leaves, and closes
the tree. -/
theorem requestRoot_eq (isOpen : naive.closed = false) (roots : naive.roots = [])
    (few : naive.leaves.toList.length ≤ maxLeaves) :
    naive.requestRoot =
      .ok { naive with closed := true, roots := [topHash naive.leaves.toList] } := by
  simp [LeafTree.requestRoot, isOpen, roots, rootOf_eq few]

/-- Requesting the root has the same outcome for both trees. -/
theorem Mirrors.requestRoot (mirrors : Mirrors ⟨tree, none⟩ naive) :
    SameOutcome (fun tree naive => Mirrors ⟨tree, none⟩ naive) tree.requestRoot
      naive.requestRoot := by
  have hclosed : naive.closed = tree.closed := mirrors.closed_eq
  cases isOpen : naive.closed with
  | true =>
    rw [isOpen] at hclosed
    simp only [CombiningTree.requestRoot, LeafTree.requestRoot, isOpen, ← hclosed]
    exact .error _
  | false =>
    obtain ⟨growing, roots⟩ := mirrors.growing_of_open isOpen
    obtain ⟨next, heq, hnext, -⟩ := growing.requestRoot
    rw [heq, requestRoot_eq isOpen roots growing.few]
    exact .ok (.closing hnext rfl rfl)

/-- A look at the lane that is waited for yields the frontier, or the owner waits on. -/
theorem replies_look (scanning : tree.Scanning naive.leaves.toList scan)
    (isOpen : naive.closed = false) (roots : naive.roots = []) (before : Option Scan) :
    Replies (TreeRun.look ⟨tree, before⟩ scan) [(naive.perform .frontier).1] naive := by
  obtain ⟨stop, next, heq, hnext, -, -⟩ := scanning.continueScan
  simp only [TreeRun.look, heq]
  by_cases hleft : stop.left = 0
  · rw [if_pos hleft, perform_frontier isOpen (hnext.frontier_eq hleft)]
    exact ⟨.growing hnext.toGrowing isOpen roots, rfl⟩
  · rw [if_neg hleft]
    exact ⟨.scanning hnext isOpen roots, rfl⟩

/-- A combining tree that does not wait answers a call as the other one does. -/
theorem replies_call (mirrors : Mirrors ⟨tree, none⟩ naive) (op : TreeOp) :
    Replies (TreeRun.move ⟨tree, none⟩ (.call op)) [(naive.perform op).1] (naive.perform op).2 := by
  cases op with
  | add leaf =>
    have same := mirrors.add leaf
    simp only [TreeRun.move, perform_add]
    generalize tree.add leaf = answer at same ⊢
    generalize naive.add leaf = reply at same ⊢
    cases same with
    | ok related => exact ⟨related, rfl⟩
    | error fault => exact ⟨mirrors, rfl⟩
  | frontier =>
    simp only [TreeRun.move, perform_frontier_snd]
    cases isOpen : naive.closed with
    | false =>
      obtain ⟨growing, roots⟩ := mirrors.growing_of_open isOpen
      obtain ⟨heq, hscan⟩ := growing.beginScan
      rw [heq]
      exact replies_look hscan isOpen roots none
    | true =>
      have hclosed : tree.closed = true := mirrors.closed_eq.symm.trans isOpen
      simp only [CombiningTree.beginScan, LeafTree.perform, LeafTree.frontier, isOpen, hclosed]
      exact ⟨mirrors, rfl⟩
  | count =>
    have hcount : tree.leafCount = naive.leaves.size :=
      mirrors.counts.leafCount.trans Array.length_toList
    simp only [TreeRun.move, LeafTree.perform, hcount]
    exact ⟨mirrors, rfl⟩
  | root =>
    have same := mirrors.requestRoot
    simp only [TreeRun.move, LeafTree.perform]
    generalize tree.requestRoot = answer at same ⊢
    generalize naive.requestRoot = reply at same ⊢
    cases same with
    | ok related => exact ⟨related, rfl⟩
    | error fault => exact ⟨mirrors, rfl⟩

/-- Where there is no job, none lands. -/
theorem landJob_of_none {position : Nat} (h : tree.combiner.jobs[position]? = none) :
    tree.landJob position = .ok tree := by
  rw [CombiningTree.landJob, h]

/-- A job that lands leaves the trees alike. -/
theorem Mirrors.landJob (mirrors : Mirrors run naive) (position : Nat) :
    ∃ next, run.tree.landJob position = .ok next ∧ Mirrors { run with tree := next } naive := by
  cases hjob : run.tree.combiner.jobs[position]? with
  | none => exact ⟨run.tree, landJob_of_none hjob, mirrors⟩
  | some job =>
    cases mirrors with
    | growing growing isOpen roots =>
      obtain ⟨next, heq, hnext, -, -⟩ := growing.landJob hjob
      exact ⟨next, heq, .growing hnext isOpen roots⟩
    | scanning scanning isOpen roots =>
      obtain ⟨next, heq, hnext, -⟩ := scanning.landJob hjob
      exact ⟨next, heq, .scanning hnext isOpen roots⟩
    | closing closing isClosed roots =>
      obtain ⟨next, heq, hnext, -⟩ := closing.landJob hjob
      exact ⟨next, heq, .closing hnext isClosed roots⟩

/-- Every move of a combining tree is followed by the other tree. -/
theorem Mirrors.move (mirrors : Mirrors run naive) (m : Move) :
    Replies (run.move m) (run.owed naive ++ (naive.play (run.called m).toList).1)
      (naive.play (run.called m).toList).2 := by
  cases m with
  | land position =>
    simp only [TreeRun.called, Option.toList_none, LeafTree.play, List.append_nil]
    obtain ⟨next, heq, hnext⟩ := mirrors.landJob position
    simp only [TreeRun.move, heq]
    exact ⟨hnext, rfl⟩
  | resume =>
    simp only [TreeRun.called, Option.toList_none, LeafTree.play, List.append_nil]
    cases mirrors with
    | growing growing isOpen roots => exact ⟨.growing growing isOpen roots, rfl⟩
    | scanning scanning isOpen roots => exact replies_look scanning isOpen roots _
    | closing closing isClosed roots => exact ⟨.closing closing isClosed roots, rfl⟩
  | call op =>
    cases hscan : run.scan with
    | none =>
      obtain ⟨tree, before⟩ := run
      obtain rfl : before = none := hscan
      exact replies_call mirrors op
    | some scan =>
      simp only [TreeRun.called, TreeRun.move, hscan, Option.isNone_some, Bool.false_eq_true,
        if_false, Option.toList_none, LeafTree.play, List.append_nil]
      exact ⟨mirrors, rfl⟩

/-- Operations performed one after the other. -/
theorem play_append (naive : LeafTree) (front back : List TreeOp) :
    naive.play (front ++ back) = ((naive.play front).1 ++ ((naive.play front).2.play back).1,
      ((naive.play front).2.play back).2) := by
  induction front generalizing naive with
  | nil => rfl
  | cons op front ih => simp [LeafTree.play, ih]

/-- A first move, and moves made after it. -/
theorem play_moves_cons (run : TreeRun) (m : Move) (moves : List Move) :
    (run.play (m :: moves)).2 = ((run.move m).2.play moves).2 := rfl

/-- Moves made one after the other. -/
theorem play_moves_append (run : TreeRun) (front back : List Move) :
    (run.play (front ++ back)).2 = ((run.play front).2.play back).2 ∧
      run.performed (front ++ back) =
        run.performed front ++ (run.play front).2.performed back := by
  induction front generalizing run with
  | nil => exact ⟨rfl, rfl⟩
  | cons m front ih =>
    obtain ⟨hplay, hperformed⟩ := ih (run.move m).2
    refine ⟨hplay, ?_⟩
    rw [List.cons_append, TreeRun.performed, hperformed, ← List.append_assoc]
    rfl

/-- Every run of a combining tree is followed by the other tree. -/
theorem Mirrors.play (mirrors : Mirrors run naive) (moves : List Move) :
    Mirrors (run.play moves).2 (naive.play (run.performed moves)).2 ∧
      (run.play moves).1 ++ (run.play moves).2.owed (naive.play (run.performed moves)).2 =
        run.owed naive ++ (naive.play (run.performed moves)).1 := by
  induction moves generalizing run naive with
  | nil => exact ⟨mirrors, by simp [TreeRun.play, TreeRun.performed, LeafTree.play]⟩
  | cons m moves ih =>
    obtain ⟨hnext, hreply⟩ := mirrors.move m
    obtain ⟨hlast, hreplies⟩ := ih hnext
    simp only [TreeRun.play, TreeRun.performed, play_append]
    refine ⟨hlast, ?_⟩
    rw [List.append_assoc, hreplies, ← List.append_assoc, hreply, List.append_assoc]

/-- A new tree mirrors one without leaves. -/
theorem mirrors_new {batchSize : Nat} (positive : 0 < batchSize) (evenSize : batchSize % 2 = 0) :
    Mirrors ⟨{ batchSize }, none⟩ {} :=
  .growing (growing_new positive evenSize) rfl rfl

/-- Batches of a positive even size are allowed. -/
theorem new_eq {batchSize : Nat} (positive : 0 < batchSize) (evenSize : batchSize % 2 = 0) :
    CombiningTree.new batchSize = .ok { batchSize } := by
  have hallowed : ¬(batchSize = 0 ∨ batchSize % 2 ≠ 0) := by omega
  rw [CombiningTree.new, if_neg hallowed]

/-- Only batches of a positive even size are allowed. -/
theorem new_ok {batchSize : Nat} {tree : CombiningTree}
    (made : CombiningTree.new batchSize = .ok tree) :
    0 < batchSize ∧ batchSize % 2 = 0 ∧ tree = { batchSize } := by
  rw [CombiningTree.new] at made
  split at made
  · cases made
  · next allowed => exact ⟨by omega, by omega, (Except.ok.inj made).symm⟩

/-- A root that was delivered is the one the other tree has delivered. -/
theorem Mirrors.roots (mirrors : Mirrors run naive) :
    ∀ root ∈ run.tree.roots, naive.roots = [root] := by
  intro root hroot
  cases mirrors with
  | growing growing _ _ => simp [growing.roots] at hroot
  | scanning scanning _ _ => simp [scanning.roots] at hroot
  | closing closing _ roots =>
    obtain ⟨cursor, found, -, hroots, hstop⟩ := closing.flush
    cases hstop with
    | parked _ _ _ => simp [hroots] at hroot
    | found _ _ =>
      simp only [hroots, Option.toList_some, List.mem_singleton] at hroot
      rw [roots, hroot]

end BlockIntake.Merkle
