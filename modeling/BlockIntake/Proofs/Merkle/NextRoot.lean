import BlockIntake.Proofs.Merkle.Completion
import BlockIntake.Proofs.Merkle.Planned

/-!
# The root with one more leaf

When a leaf is appended, the hashes of every height are those that were paired without it, followed
by one hash above the leaf. That hash comes from the one below and the frontier entry between them:
a hash that waits there is its left sibling, and where none waits it is padded. So the frontier and
the leaf determine the root, whether or not the height of the tree grows with the leaf.
-/

namespace BlockIntake.Merkle

variable {leaves : List Digest} {naive : LeafTree}

/-- The hash above the next leaf at the height above an entry of the frontier. -/
def joinEntry (height : Nat) (entry : Option Digest) (hash : Digest) : Digest :=
  match entry with
  | some left => left.combine hash
  | none => hash.combine (emptyRoot height)

/-- The hash above the next leaf at every height. -/
def aboveLeaf (leaves : List Digest) (leaf : Digest) : (height : Nat) → Digest
  | 0 => leaf
  | height + 1 =>
    joinEntry height (LeafTree.splitOdd (wholeLevel leaves height)).1
      (aboveLeaf leaves leaf height)

/-- Hashes are an even number of hashes and an odd last one, if there is one. -/
theorem splitOdd_spec (hashes : List Digest) :
    (LeafTree.splitOdd hashes).2.length % 2 = 0 ∧
      (LeafTree.splitOdd hashes).2 ++ (LeafTree.splitOdd hashes).1.toList = hashes := by
  unfold LeafTree.splitOdd
  split
  · next odd =>
    rcases List.eq_nil_or_concat hashes with rfl | ⟨front, last, rfl⟩
    · exact absurd odd (by decide)
    · rw [List.concat_eq_append, List.length_append, List.length_singleton] at odd
      simp only [List.concat_eq_append, List.dropLast_concat, List.getLast?_concat,
        Option.toList_some, and_true]
      omega
  · next even => exact ⟨by dsimp only; omega, List.append_nil hashes⟩

/-- A hash put after others is paired with an odd last one, or padded if there is none. -/
theorem pairUp_concat (height : Nat) (hashes : List Digest) (hash : Digest) :
    pairUp (emptyRoot height) (hashes ++ [hash]) =
      pairUp (emptyRoot height) (LeafTree.splitOdd hashes).2 ++
        [joinEntry height (LeafTree.splitOdd hashes).1 hash] := by
  obtain ⟨even, hsplit⟩ := splitOdd_spec hashes
  generalize LeafTree.splitOdd hashes = parts at even hsplit ⊢
  obtain ⟨entry, paired⟩ := parts
  rw [← hsplit, List.append_assoc, pairUp_append _ _ _ even]
  cases entry <;> rfl

/-- At every height, appending a leaf adds the hash above it to the hashes paired without it. -/
theorem level_concat (leaves : List Digest) (leaf : Digest) (height : Nat) :
    level (leaves ++ [leaf]) height =
      wholeLevel leaves height ++ [aboveLeaf leaves leaf height] := by
  induction height with
  | zero => rfl
  | succ height ih => rw [level, ih, pairUp_concat, wholeLevel, aboveLeaf]

/-- At the height of the root with one more leaf, the hash above the leaf is the root. -/
theorem topHash_concat (leaves : List Digest) (leaf : Digest) :
    topHash (leaves ++ [leaf]) = aboveLeaf leaves leaf (ceilLog2 (leaves.length + 1)) := by
  have htop := length_level_top (leaves ++ [leaf])
  rw [topHash]
  rw [List.length_append, List.length_singleton, level_concat] at htop ⊢
  rw [List.length_append, List.length_singleton] at htop
  have hnone : wholeLevel leaves (ceilLog2 (leaves.length + 1)) = [] :=
    List.length_eq_zero_iff.mp (by omega)
  rw [hnone]
  rfl

/-- Joining a hash with one entry. -/
theorem joinFrontier_cons {height : Nat} (h : height < maxDepth) (entry : Option Digest)
    (rest : List (Option Digest)) (hash : Digest) :
    joinFrontier height (entry :: rest) hash =
      joinFrontier (height + 1) rest (joinEntry height entry hash) := by
  cases entry with
  | some left => rfl
  | none => rw [joinFrontier, emptyRootAt_eq, if_pos h, ok_bind, joinEntry]

/-- Joining with the entries of some heights leads up through these heights. -/
theorem joinFrontier_range' (leaves : List Digest) (leaf : Digest) (count height : Nat)
    (h : height + count ≤ maxDepth) :
    joinFrontier height ((List.range' height count).map fun height =>
        (LeafTree.splitOdd (wholeLevel leaves height)).1) (aboveLeaf leaves leaf height) =
      .ok (aboveLeaf leaves leaf (height + count)) := by
  induction count generalizing height with
  | zero => rfl
  | succ count ih =>
    rw [List.range'_succ, List.map_cons, joinFrontier_cons (by omega), ← aboveLeaf,
      ih (height + 1) (by omega), Nat.add_right_comm, Nat.add_assoc]

/-- The frontier over leaves and one more leaf give the root over all of them. -/
theorem rootWith_eq (notFull : leaves.length < maxLeaves) (leaf : Digest) :
    Frontier.rootWith
        ⟨UInt64.ofNat leaves.length, leftBehind leaves (ceilLog2 (leaves.length + 1))⟩ leaf =
      .ok (topHash (leaves ++ [leaf])) := by
  have hlarge : maxLeaves + 1 < UInt64.size := by decide
  have hcount : (UInt64.ofNat leaves.length).toNat = leaves.length := by
    rw [UInt64.toNat_ofNat', Nat.mod_eq_of_lt]
    exact Nat.lt_of_lt_of_le (by omega) (Nat.le_of_lt hlarge)
  have hdepth : ceilLog2 (leaves.length + 1) ≤ maxDepth :=
    Nat.le_of_lt (ceilLog2_lt_maxDepth notFull)
  have hjoin := joinFrontier_range' leaves leaf (ceilLog2 (leaves.length + 1)) 0 (by omega)
  rw [Nat.zero_add, ← List.range_eq_range', ← topHash_concat] at hjoin
  have hsucc : countSucc (UInt64.ofNat leaves.length) = .ok (leaves.length + 1) := by
    rw [countSucc, hcount, if_pos (by omega)]
  simp only [Frontier.rootWith, hsucc, orCrash_ok, ok_bind,
    rootHeight_eq (Nat.le_succ_of_le notFull)]
  have hlength : (leftBehind leaves (ceilLog2 (leaves.length + 1))).length =
      ceilLog2 (leaves.length + 1) := by simp [leftBehind]
  rw [hlength, if_neg (Nat.lt_irrefl _), List.take_of_length_le hlength.le]
  exact congrArg orCrash hjoin

/-- Without a request for the root, a tree stays open. -/
theorem play_open {ops : List TreeOp} (noRoot : .root ∉ ops) (isOpen : naive.closed = false)
    (roots : naive.roots = []) :
    (naive.play ops).2.closed = false ∧ (naive.play ops).2.roots = [] := by
  induction ops generalizing naive with
  | nil => exact ⟨isOpen, roots⟩
  | cons op ops ih =>
    obtain ⟨hop, hops⟩ := not_or.mp (mt List.mem_cons.mpr noRoot)
    have hnext : (naive.perform op).2.closed = false ∧ (naive.perform op).2.roots = [] := by
      cases op with
      | add leaf =>
        rw [LeafTree.perform]
        cases naive.accept leaf <;> exact ⟨isOpen, roots⟩
      | frontier =>
        rw [perform_frontier_snd]
        exact ⟨isOpen, roots⟩
      | count => exact ⟨isOpen, roots⟩
      | root => exact absurd rfl hop
    exact ih hops hnext.1 hnext.2

/-- An open tree with room for a leaf gives its frontier, takes the leaf and delivers the root. -/
theorem play_nextRoot (isOpen : naive.closed = false) (roots : naive.roots = [])
    (notFull : naive.leaves.size < maxLeaves) (leaf : Digest) :
    naive.play [.frontier, .add leaf.bytes, .root] =
      ([.frontier ⟨UInt64.ofNat naive.leaves.toList.length,
          leftBehind naive.leaves.toList (ceilLog2 (naive.leaves.toList.length + 1))⟩,
        .accepted, .accepted],
        ⟨naive.leaves.push leaf, true, [topHash (naive.leaves.toList ++ [leaf])]⟩) := by
  have hfew : naive.leaves.toList.length < maxLeaves := by rwa [Array.length_toList]
  have hfrontier := perform_frontier isOpen (frontierOf_eq (Nat.le_of_lt hfew))
  have hadd : naive.perform (.add leaf.bytes) = (.accepted, naive.push leaf) := by
    rw [perform_add, add_digest isOpen notFull]
  have hroot : (naive.push leaf).perform .root =
      (.accepted, ⟨naive.leaves.push leaf, true, [topHash (naive.leaves.toList ++ [leaf])]⟩) := by
    have hall : (naive.push leaf).leaves.toList = naive.leaves.toList ++ [leaf] :=
      Array.toList_push
    have hrequest : (naive.push leaf).requestRoot = _ :=
      requestRoot_eq isOpen roots (by rw [hall, List.length_append]; exact hfew)
    rw [LeafTree.perform, hrequest, hall]
    rfl
  simp only [LeafTree.play, hfrontier, perform_frontier_snd, hadd, hroot]

/-- Every operation is answered. -/
theorem length_play (naive : LeafTree) (ops : List TreeOp) :
    (naive.play ops).1.length = ops.length := by
  induction ops generalizing naive with
  | nil => rfl
  | cons op ops ih => exact congrArg Nat.succ (ih (naive.perform op).2)

/-- Where the root was requested, nobody waits for a frontier. -/
theorem Mirrors.scan_of_closed {run : TreeRun} (mirrors : Mirrors run naive)
    (isClosed : naive.closed = true) : run.scan = none := by
  cases mirrors with
  | growing _ _ _ => rfl
  | scanning _ isOpen _ => exact absurd (isOpen.symm.trans isClosed) Bool.false_ne_true
  | closing _ _ _ => rfl

/-- Operations, then the frontier, one more leaf, and the root. -/
def thenNextRoot (earlier : List TreeOp) (leaf : Digest) : List TreeOp :=
  earlier ++ [.frontier, .add leaf.bytes, .root]

/-- Ask any tree for its frontier, after whatever operations that leave it open and not full. The
frontier and one more leaf determine a root, and it is the root the tree itself delivers once the
leaf is appended, whichever tree it is, whatever its batch size and in whatever order its jobs
land. -/
theorem frontier_gives_next_root (earlier : List TreeOp) (noRoot : .root ∉ earlier)
    (notFull : (LeafTree.play {} earlier).2.leaves.size < maxLeaves) (leaf : Digest) :
    ∃ frontier root, frontier.rootWith leaf = .ok root ∧
      (∃ answers tree, LeafTree.play {} (thenNextRoot earlier leaf) = (answers, tree) ∧
        answers[earlier.length]? = some (.frontier frontier) ∧ tree.roots = [root]) ∧
      ∀ batchSize start, CombiningTree.new batchSize = .ok start →
        (∃ moves, TreeRun.performed ⟨start, none⟩ moves = thenNextRoot earlier leaf ∧
          (TreeRun.play ⟨start, none⟩ moves).2.tree.combiner.jobs = []) ∧
        ∀ moves, TreeRun.performed ⟨start, none⟩ moves = thenNextRoot earlier leaf →
          ∃ answers last, TreeRun.play ⟨start, none⟩ moves = (answers, last) ∧
            answers[earlier.length]? = some (.frontier frontier) ∧
            (∀ delivered ∈ last.tree.roots, delivered = root) ∧
            (last.tree.combiner.jobs = [] → last.tree.roots = [root]) := by
  obtain ⟨isOpen, roots⟩ : (LeafTree.play {} earlier).2.closed = false ∧
      (LeafTree.play {} earlier).2.roots = [] := play_open noRoot rfl rfl
  have hnext := play_nextRoot isOpen roots notFull leaf
  have hlength := length_play {} earlier
  have hplay := play_append {} earlier [.frontier, .add leaf.bytes, .root]
  rw [hnext, ← thenNextRoot] at hplay
  generalize LeafTree.play {} earlier = before at *
  obtain ⟨replies, naive⟩ := before
  refine ⟨_, _, rootWith_eq (by rwa [Array.length_toList]) leaf, ⟨_, _, hplay, ?_, rfl⟩, ?_⟩
  · simp [← hlength]
  · intro batchSize start hnew
    obtain ⟨positive, evenSize, rfl⟩ := new_ok hnew
    refine ⟨exists_run positive evenSize (by rw [hplay]), ?_⟩
    intro moves hperformed
    obtain ⟨hlast, hanswers⟩ := (mirrors_new positive evenSize).play moves
    rw [hperformed, hplay] at hlast hanswers
    have hscan := hlast.scan_of_closed rfl
    rw [TreeRun.owed, TreeRun.owed, hscan] at hanswers
    simp only [Option.isSome_none, Bool.false_eq_true, if_false, List.append_nil,
      List.nil_append] at hanswers
    refine ⟨_, _, rfl, ?_, ?_, ?_⟩
    · rw [hanswers]
      simp [← hlength]
    · intro delivered hdelivered
      have hsame := hlast.roots delivered hdelivered
      exact (List.cons.inj hsame).1.symm
    · intro idle
      have hclosing := hlast.closing_of_closed hlast.closed_eq.symm
      rw [hclosing.roots_of_idle idle, Array.toList_push]

/-- Two leaves, and a look at the frontier between them. -/
def twoLeaves : List TreeOp := [.add Digest.zero.bytes, .frontier, .add Digest.zero.bytes]

/-- A tree with batches of two hashes that holds two leaves gives its frontier, which gives the root
over three. -/
theorem frontier_gives_next_root_two :
    .root ∉ twoLeaves ∧ (LeafTree.play {} twoLeaves).2.leaves.size < maxLeaves ∧
    ∃ frontier root start moves, frontier.rootWith Digest.zero = .ok root ∧
      CombiningTree.new 2 = .ok start ∧
      TreeRun.performed ⟨start, none⟩ moves = thenNextRoot twoLeaves Digest.zero ∧
      (TreeRun.play ⟨start, none⟩ moves).1[twoLeaves.length]? = some (.frontier frontier) ∧
      (TreeRun.play ⟨start, none⟩ moves).2.tree.roots = [root] := by
  have noRoot : TreeOp.root ∉ twoLeaves := by simp [twoLeaves]
  have notFull : (LeafTree.play {} twoLeaves).2.leaves.size < maxLeaves := by decide +kernel
  obtain ⟨frontier, root, hroot, -, hrun⟩ :=
    frontier_gives_next_root twoLeaves noRoot notFull Digest.zero
  obtain ⟨⟨moves, hperformed, hidle⟩, hall⟩ := hrun 2 { batchSize := 2 } rfl
  obtain ⟨answers, last, hplay, hanswer, -, hroots⟩ := hall moves hperformed
  rw [hplay] at hidle
  refine ⟨noRoot, notFull, frontier, root, _, moves, hroot, rfl, hperformed, ?_, ?_⟩
  · rw [hplay]
    exact hanswer
  · rw [hplay]
    exact hroots hidle

end BlockIntake.Merkle
