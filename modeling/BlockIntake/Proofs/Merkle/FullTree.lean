import BlockIntake.Proofs.Merkle.AnyFrontier
import BlockIntake.Proofs.Merkle.Completion
import BlockIntake.Proofs.Merkle.Credit

/-!
# Up to a full tree

The heights of a tree end where the table of empty roots ends, and a full tree comes up to the last
of them: its root stands at the last height, and its frontier has an entry for every one. Neither
tree leaves the table, the lanes or the range of its counters, whatever is called and in whatever
order jobs land. A leaf that is long enough is refused by an open tree only if the tree is full. An
open tree, a full one too, gives a frontier that every leaf can be joined with, and its root.
-/

namespace BlockIntake.Merkle

open CombiningTree

/-- An answer that is no crash and stays within the limits: no count is too large, and a frontier
can be joined with every leaf. -/
def TreeAnswer.Safe : TreeAnswer → Prop
  | .accepted => True
  | .frontier given =>
    given.leafCount.toNat ≤ maxLeaves ∧ ∀ leaf, ∃ root, given.rootWith leaf = .ok root
  | .count leaves => leaves ≤ maxLeaves
  | .fault (.refused _) => True
  | .fault (.crashed _) => False

/-- A leaf is refused by a full tree and changes nothing; by any other tree it is counted. -/
structure TakesLeaf {σ : Type} (count : σ → Nat) (before after : σ) (answer : TreeAnswer) :
    Prop where
  /-- A full tree refuses. -/
  full : count before = maxLeaves →
    answer = .fault (.refused (.capacityExceeded maxLeaves)) ∧ after = before
  /-- Another tree accepts. -/
  notFull : count before ≠ maxLeaves → answer = .accepted ∧ count after = count before + 1

/-- What an owner can rely on with a tree that keeps its leaves. -/
structure LeafTree.Reliable (tree : LeafTree) : Prop where
  /-- There are not too many leaves. -/
  few : tree.leaves.size ≤ maxLeaves
  /-- An open tree takes leaves until it is full. -/
  takes : tree.closed = false → ∀ leaf : Bytes, digestSize ≤ leaf.length →
    TakesLeaf (·.leaves.size) tree (tree.perform (.add leaf)).2 (tree.perform (.add leaf)).1
  /-- An open tree gives its frontier. -/
  frontier : tree.closed = false →
    ∃ frontier, tree.perform .frontier = (.frontier frontier, tree)
  /-- An open tree delivers its root. -/
  root : tree.closed = false →
    ∃ root next, tree.perform .root = (.accepted, next) ∧ next.roots = [root]

/-- What an owner can rely on with a tree that combines. -/
structure TreeRun.Reliable (run : TreeRun) : Prop where
  /-- There are not too many leaves. -/
  few : run.tree.leafCount ≤ maxLeaves
  /-- There is a lane for every height. -/
  lanes : run.tree.combiner.lanes.size = maxDepth
  /-- No job stands above the last height. -/
  jobs : ∀ job ∈ run.tree.combiner.jobs, job.height < maxDepth
  /-- The tickets of a lane are 64-bit integers. -/
  tickets : ∀ lane ∈ run.tree.combiner.lanes,
    lane.nextTicket < UInt64.size ∧ lane.nextToForward < UInt64.size
  /-- An open tree takes leaves until it is full. -/
  takes : run.scan = none → run.tree.closed = false →
    ∀ leaf : Bytes, digestSize ≤ leaf.length → ∃ answer next,
      run.move (.call (.add leaf)) = (some answer, next) ∧
        TakesLeaf (·.tree.leafCount) run next answer
  /-- An open tree gives its frontier, at the end of the wait for it. -/
  frontier : run.scan = none → run.tree.closed = false → ∃ frontier,
    (∀ moves, run.performed moves = [.frontier] → (run.play moves).1 =
      if (run.play moves).2.scan.isSome then [] else [.frontier frontier]) ∧
    ∃ moves, run.performed moves = [.frontier] ∧ (run.play moves).2.scan = none
  /-- An open tree delivers its root, once all jobs have landed. -/
  root : run.scan = none → run.tree.closed = false → ∃ root next,
    run.move (.call .root) = (some .accepted, next) ∧
    (∀ moves, ∀ delivered ∈ (next.play moves).2.tree.roots, delivered = root) ∧
    (∀ moves, (next.play moves).2.tree.combiner.jobs = [] →
      (next.play moves).2.tree.roots = [root]) ∧
    ∃ moves, (next.play moves).2.tree.combiner.jobs = []

/-- A tree with no more leaves than fit, which has delivered no root as long as it is open. -/
structure LeafTree.Sound (tree : LeafTree) : Prop where
  /-- There are not too many leaves. -/
  few : tree.leaves.toList.length ≤ maxLeaves
  /-- No root comes unrequested. -/
  roots : tree.closed = false → tree.roots = []

variable {naive : LeafTree} {run : TreeRun} {leaf : Bytes} {op : TreeOp}

/-- A leaf that is long enough can be read. -/
theorem readLeaf_of_long (long : digestSize ≤ leaf.length) : ∃ hash, readLeaf leaf = .ok hash := by
  have hlength : (leaf.take digestSize).length = digestSize := by
    rw [List.length_take, Nat.min_eq_left long]
  exact ⟨⟨leaf.take digestSize, hlength⟩, by simp [readLeaf, Digest.ofBytes?, hlength]⟩

/-- An open tree accepts a leaf that is long enough exactly if it has room for it. -/
theorem accept_of_long (isOpen : naive.closed = false) (long : digestSize ≤ leaf.length) :
    ∃ hash, naive.accept leaf =
      if maxLeaves ≤ naive.leaves.size then .error (.refused (.capacityExceeded maxLeaves))
      else .ok hash := by
  obtain ⟨hash, hread⟩ := readLeaf_of_long long
  refine ⟨hash, ?_⟩
  simp only [LeafTree.accept, isOpen, hread, orRefuse, ok_bind, Bool.false_eq_true, if_false]
  split <;> rfl

/-- A leaf that is not accepted is refused. -/
theorem refused_of_accept {fault : TreeFault} (h : naive.accept leaf = .error fault) :
    ∃ cause, fault = .refused cause := by
  simp only [LeafTree.accept] at h
  split at h
  · cases h
    exact ⟨_, rfl⟩
  · cases hread : readLeaf leaf with
    | error cause =>
      rw [hread] at h
      cases h
      exact ⟨_, rfl⟩
    | ok hash =>
      simp only [hread, orRefuse, ok_bind] at h
      split at h
      · cases h
        exact ⟨_, rfl⟩
      · cases h

/-- The frontier of leaves that fit can be joined with every leaf: even over a full tree it has no
more entries than there are empty roots. -/
theorem safe_frontier {leaves : List Digest} (few : leaves.length ≤ maxLeaves) :
    (TreeAnswer.frontier ⟨UInt64.ofNat leaves.length,
      leftBehind leaves (ceilLog2 (leaves.length + 1))⟩).Safe := by
  have hdepth : maxLeaves < powerOfTwo maxDepth := by decide
  have hlarge : maxLeaves < UInt64.size := by decide
  have hcount : (UInt64.ofNat leaves.length).toNat = leaves.length := by
    rw [UInt64.toNat_ofNat', Nat.mod_eq_of_lt (few.trans_lt hlarge)]
  refine ⟨hcount.trans_le few, fun leaf => ?_⟩
  -- After a full tree the next root stands one height past the last lane, where every entry is read
  -- but no empty root past the table.
  apply (bounded_of_few (hcount.trans_lt (few.trans_lt hdepth))).rootWith_ok
  simp [Frontier.nextHeight, hcount, leftBehind]

namespace LeafTree.Sound

/-- A tree without leaves is sound. -/
theorem new : LeafTree.Sound {} := ⟨Nat.zero_le _, fun _ => rfl⟩

/-- There are not too many leaves. -/
theorem size_le (sound : naive.Sound) : naive.leaves.size ≤ maxLeaves :=
  Array.length_toList.symm.trans_le sound.few

/-- A sound tree that is open gives the frontier of its leaves. -/
theorem perform_frontier (sound : naive.Sound) (isOpen : naive.closed = false) :
    naive.perform .frontier = (.frontier ⟨UInt64.ofNat naive.leaves.toList.length,
      leftBehind naive.leaves.toList (ceilLog2 (naive.leaves.toList.length + 1))⟩, naive) :=
  Prod.ext (Merkle.perform_frontier isOpen (frontierOf_eq sound.few)) (perform_frontier_snd naive)

/-- A sound tree that is open delivers the root of its leaves. -/
theorem perform_root (sound : naive.Sound) (isOpen : naive.closed = false) :
    naive.perform .root =
      (.accepted, { naive with closed := true, roots := [topHash naive.leaves.toList] }) := by
  rw [LeafTree.perform, requestRoot_eq isOpen (sound.roots isOpen) sound.few]

/-- A sound tree stays sound. -/
theorem perform (sound : naive.Sound) (op : TreeOp) : (naive.perform op).2.Sound := by
  cases op with
  | add leaf =>
    rw [LeafTree.perform]
    cases haccept : naive.accept leaf with
    | error fault => exact sound
    | ok hash =>
      obtain ⟨isOpen, notFull⟩ := accept_ok haccept
      exact ⟨by simpa [LeafTree.push] using notFull, sound.roots⟩
  | frontier =>
    rw [perform_frontier_snd]
    exact sound
  | count => exact sound
  | root =>
    cases isOpen : naive.closed with
    | false =>
      rw [sound.perform_root isOpen]
      exact ⟨sound.few, fun closed => by cases closed⟩
    | true =>
      rw [LeafTree.perform, LeafTree.requestRoot, isOpen]
      exact sound

/-- Every answer of a sound tree is safe. -/
theorem safe (sound : naive.Sound) (op : TreeOp) : (naive.perform op).1.Safe := by
  cases op with
  | add leaf =>
    rw [LeafTree.perform]
    cases haccept : naive.accept leaf with
    | error fault =>
      obtain ⟨cause, rfl⟩ := refused_of_accept haccept
      exact True.intro
    | ok hash => exact True.intro
  | frontier =>
    cases isOpen : naive.closed with
    | false =>
      rw [sound.perform_frontier isOpen]
      exact safe_frontier sound.few
    | true =>
      rw [LeafTree.perform, LeafTree.frontier, isOpen]
      exact True.intro
  | count => exact sound.size_le
  | root =>
    cases isOpen : naive.closed with
    | false =>
      rw [sound.perform_root isOpen]
      exact True.intro
    | true =>
      rw [LeafTree.perform, LeafTree.requestRoot, isOpen]
      exact True.intro

/-- Whatever operations are performed, a sound tree stays sound and every answer is safe. -/
theorem play (sound : naive.Sound) (ops : List TreeOp) :
    (naive.play ops).2.Sound ∧ ∀ answer ∈ (naive.play ops).1, answer.Safe := by
  induction ops generalizing naive with
  | nil => exact ⟨sound, fun answer h => absurd h List.not_mem_nil⟩
  | cons op ops ih =>
    obtain ⟨hsound, hsafe⟩ := ih (sound.perform op)
    refine ⟨hsound, fun answer h => ?_⟩
    rcases List.mem_cons.mp h with rfl | hlater
    · exact sound.safe op
    · exact hsafe answer hlater

/-- A sound tree takes leaves, gives its frontier and delivers its root. -/
theorem reliable (sound : naive.Sound) : naive.Reliable where
  few := sound.size_le
  takes isOpen leaf long := by
    have few := sound.size_le
    obtain ⟨hash, haccept⟩ := accept_of_long isOpen long
    rw [LeafTree.perform, haccept]
    constructor
    · intro full
      rw [if_pos (Nat.le_of_eq full.symm)]
      exact ⟨rfl, rfl⟩
    · intro notFull
      rw [if_neg (by omega)]
      exact ⟨rfl, Array.size_push _⟩
  frontier isOpen := ⟨_, sound.perform_frontier isOpen⟩
  root isOpen := ⟨_, _, sound.perform_root isOpen, rfl⟩

end LeafTree.Sound

/-- Any number of leaves that fit can be in an open tree. -/
theorem exists_leaves {count : Nat} (few : count ≤ maxLeaves) :
    ∃ ops, (LeafTree.play {} ops).2.closed = false ∧
      (LeafTree.play {} ops).2.leaves.size = count := by
  induction count with
  | zero => exact ⟨[], rfl, rfl⟩
  | succ count ih =>
    obtain ⟨ops, isOpen, hsize⟩ := ih (by omega)
    have hadd : (LeafTree.play {} ops).2.perform (.add Digest.zero.bytes) =
        (.accepted, (LeafTree.play {} ops).2.push Digest.zero) := by
      rw [perform_add, add_digest isOpen (by omega)]
    refine ⟨ops ++ [.add Digest.zero.bytes], ?_, ?_⟩
    · rw [play_append]
      simp only [LeafTree.play, hadd]
      exact isOpen
    · rw [play_append]
      simp only [LeafTree.play, hadd, LeafTree.push, Array.size_push, hsize]

/-- A combining tree takes a leaf as the other one does. -/
theorem Mirrors.takesLeaf (mirrors : Mirrors run naive) (sound : naive.Sound)
    (free : run.scan = none) (isOpen : run.tree.closed = false) (long : digestSize ≤ leaf.length) :
    ∃ answer next, run.move (.call (.add leaf)) = (some answer, next) ∧
      TakesLeaf (·.tree.leafCount) run next answer := by
  obtain ⟨tree, scan⟩ := run
  obtain rfl : scan = none := free
  have hopen : naive.closed = false := mirrors.closed_eq.trans isOpen
  have hcount : tree.leafCount = naive.leaves.size :=
    mirrors.counts.leafCount.trans Array.length_toList
  have few := sound.size_le
  obtain ⟨hash, haccept⟩ := accept_of_long hopen long
  have same := mirrors.add leaf
  by_cases full : naive.leaves.size = maxLeaves
  · have hrefused : tree.accept leaf = .error (.refused (.capacityExceeded maxLeaves)) := by
      rw [mirrors.counts.accept_eq leaf mirrors.closed_eq rfl, haccept, if_pos full.ge]
    refine ⟨.fault (.refused (.capacityExceeded maxLeaves)), ⟨tree, none⟩, ?_, ?_, ?_⟩
    · simp only [TreeRun.move, CombiningTree.add, hrefused]
      rfl
    · exact fun _ => ⟨rfl, rfl⟩
    · exact fun notFull => absurd (hcount.trans full) notFull
  · have hadd : naive.add leaf = .ok (naive.push hash) := by
      rw [LeafTree.add, haccept, if_neg (by omega)]
      rfl
    rw [hadd] at same
    generalize hnext : tree.add leaf = answer at same
    cases same with
    | @ok next _ related =>
      have hgrown : next.leafCount = naive.leaves.size + 1 :=
        related.counts.leafCount.trans (Array.length_toList.trans (Array.size_push _))
      refine ⟨.accepted, ⟨next, none⟩, ?_, ?_, ?_⟩
      · simp only [TreeRun.move, hnext]
        rfl
      · exact fun isFull => absurd (hcount.symm.trans isFull) full
      · exact fun _ => ⟨rfl, by rw [hgrown, hcount]⟩

/-- Once the root was requested, no operation changes a tree that keeps its leaves. -/
theorem play_closed (isClosed : naive.closed = true) (ops : List TreeOp) :
    (naive.play ops).2 = naive := by
  induction ops with
  | nil => rfl
  | cons op ops ih =>
    have hsame : (naive.perform op).2 = naive := by
      cases op with
      | add leaf => simp [LeafTree.perform, LeafTree.accept, isClosed]
      | frontier => exact perform_frontier_snd naive
      | count => rfl
      | root => simp [LeafTree.perform, LeafTree.requestRoot, isClosed]
    simp only [LeafTree.play, hsame, ih]

/-- An owner that does not wait gets the frontier of an open tree, when its wait is over. -/
theorem Mirrors.gives_frontier (mirrors : Mirrors run naive) (sound : naive.Sound)
    (free : run.scan = none) (isOpen : run.tree.closed = false) : ∃ frontier,
    (∀ moves, run.performed moves = [.frontier] → (run.play moves).1 =
      if (run.play moves).2.scan.isSome then [] else [.frontier frontier]) ∧
    ∃ moves, run.performed moves = [.frontier] ∧ (run.play moves).2.scan = none := by
  have hfrontier := sound.perform_frontier (mirrors.closed_eq.trans isOpen)
  refine ⟨⟨UInt64.ofNat naive.leaves.toList.length,
    leftBehind naive.leaves.toList (ceilLog2 (naive.leaves.toList.length + 1))⟩, ?_,
    mirrors.exists_moves free [.frontier]⟩
  intro moves hperformed
  obtain ⟨-, hanswers⟩ := mirrors.play moves
  simp only [hperformed, LeafTree.play, hfrontier, TreeRun.owed, free, Option.isSome_none,
    Bool.false_eq_true, if_false, List.nil_append] at hanswers
  split
  · next waits =>
    -- The one answer is still owed.
    rw [if_pos waits] at hanswers
    have hlength := congrArg List.length hanswers
    simp only [List.length_append, List.length_singleton] at hlength
    exact List.eq_nil_of_length_eq_zero (by omega)
  · next done =>
    rw [if_neg done, List.append_nil] at hanswers
    exact hanswers

/-- An open tree delivers the root it was asked for, and no other. -/
theorem Mirrors.delivers_root (mirrors : Mirrors run naive) (sound : naive.Sound)
    (free : run.scan = none) (isOpen : run.tree.closed = false) : ∃ root next,
    run.move (.call .root) = (some .accepted, next) ∧
    (∀ moves, ∀ delivered ∈ (next.play moves).2.tree.roots, delivered = root) ∧
    (∀ moves, (next.play moves).2.tree.combiner.jobs = [] →
      (next.play moves).2.tree.roots = [root]) ∧
    ∃ moves, (next.play moves).2.tree.combiner.jobs = [] := by
  obtain ⟨tree, scan⟩ := run
  obtain rfl : scan = none := free
  have hopen : naive.closed = false := mirrors.closed_eq.trans isOpen
  have hroot := requestRoot_eq hopen (sound.roots hopen) sound.few
  have same := mirrors.requestRoot
  rw [hroot] at same
  generalize hnext : tree.requestRoot = answer at same
  cases same with
  | @ok next _ related =>
    refine ⟨topHash naive.leaves.toList, ⟨next, none⟩, ?_, ?_, ?_, ?_⟩
    · simp only [TreeRun.move, hnext]
      rfl
    · intro moves delivered hdelivered
      obtain ⟨hlast, -⟩ := related.play moves
      rw [play_closed rfl] at hlast
      exact (List.cons.inj (hlast.roots delivered hdelivered)).1.symm
    · intro moves idle
      obtain ⟨hlast, -⟩ := related.play moves
      rw [play_closed rfl] at hlast
      exact (hlast.closing_of_closed hlast.closed_eq.symm).roots_of_idle idle
    · obtain ⟨moves, -, idle⟩ :=
        exists_landings (related.closing_of_closed related.closed_eq.symm)
      exact ⟨moves, idle⟩

/-- A combining tree that mirrors a sound tree, and whose leaves have paid for its tickets, takes
leaves, gives its frontier and delivers its root. -/
theorem Mirrors.reliable (mirrors : Mirrors run naive) (sound : naive.Sound)
    (paid : run.tree.Paid) : run.Reliable where
  few := mirrors.counts.leafCount.trans_le sound.few
  lanes := paid.shaped.lanes_size
  jobs := paid.shaped.job_height
  tickets lane hlane := by
    obtain ⟨height, hheight, rfl⟩ := Array.mem_iff_getElem.mp hlane
    have hdepth : height < maxDepth := paid.shaped.lanes_size ▸ hheight
    have hlane : run.tree.combiner.laneAt height = run.tree.combiner.lanes[height] := by
      simp [Combiner.laneAt, hheight]
    have htickets := paid.tickets hdepth
    have hcredit : credit 0 * run.tree.leafCount ≤ credit 0 * maxLeaves :=
      Nat.mul_le_mul_left _ (mirrors.counts.leafCount.trans_le sound.few)
    have hlarge : credit 0 * maxLeaves < UInt64.size := by decide
    rw [hlane] at htickets
    omega
  takes free isOpen _ long := mirrors.takesLeaf sound free isOpen long
  frontier := mirrors.gives_frontier sound
  root := mirrors.delivers_root sound

/-- No tree leaves its limits. Whatever operations are performed on a tree that keeps its leaves,
and whatever operations and landings, in any order, on a tree that combines, with whatever batch
size: no answer is a crash, every frontier that was given can be joined with every leaf, no lane or
job stands past the last height, and no counter overflows. An open tree refuses a leaf that is long
enough exactly if it is full, which it can become, and gives its frontier and its root even then. -/
theorem trees_stay_within_limits :
    maxLeaves = 2 ^ 23 ∧
    (∀ ops, (∀ answer ∈ (LeafTree.play {} ops).1, answer.Safe) ∧
      (LeafTree.play {} ops).2.Reliable) ∧
    (∃ ops, (LeafTree.play {} ops).2.closed = false ∧
      (LeafTree.play {} ops).2.leaves.size = maxLeaves) ∧
    ∀ batchSize start, CombiningTree.new batchSize = .ok start →
      (∀ moves, (∀ answer ∈ (TreeRun.play ⟨start, none⟩ moves).1, answer.Safe) ∧
        (TreeRun.play ⟨start, none⟩ moves).2.Reliable) ∧
      ∃ moves, (TreeRun.play ⟨start, none⟩ moves).2.scan = none ∧
        (TreeRun.play ⟨start, none⟩ moves).2.tree.closed = false ∧
        (TreeRun.play ⟨start, none⟩ moves).2.tree.leafCount = maxLeaves := by
  obtain ⟨fill, isOpen, isFull⟩ := exists_leaves (Nat.le_refl maxLeaves)
  refine ⟨by decide, ?_, ⟨fill, isOpen, isFull⟩, ?_⟩
  · intro ops
    obtain ⟨sound, safe⟩ := LeafTree.Sound.new.play ops
    exact ⟨safe, sound.reliable⟩
  · intro batchSize start hnew
    obtain ⟨positive, evenSize, rfl⟩ := new_ok hnew
    have hstart := mirrors_new positive evenSize
    refine ⟨?_, ?_⟩
    · intro moves
      obtain ⟨hlast, hanswers⟩ := hstart.play moves
      obtain ⟨sound, safe⟩ :=
        LeafTree.Sound.new.play (TreeRun.performed ⟨{ batchSize }, none⟩ moves)
      refine ⟨?_, hlast.reliable sound ((paid_new positive evenSize).play moves)⟩
      intro answer hanswer
      apply safe
      have hnothing : TreeRun.owed ⟨{ batchSize }, none⟩ {} = [] := rfl
      rw [hnothing, List.nil_append] at hanswers
      rw [← hanswers]
      exact List.mem_append_left _ hanswer
    · obtain ⟨moves, hperformed, hscan⟩ := hstart.exists_moves rfl fill
      obtain ⟨hlast, -⟩ := hstart.play moves
      rw [hperformed] at hlast
      exact ⟨moves, hscan, hlast.closed_eq.symm.trans isOpen,
        hlast.counts.leafCount.trans (Array.length_toList.trans isFull)⟩

end BlockIntake.Merkle
