import BlockIntake.Proofs.Merkle.Mirror

/-!
# No height waits in vain

A height in flight waits for the batch whose result leaves next, and some job holds that batch. So
an owner that waits for a height is woken, and the cursor of a flush is moved on. A request for the
root closes the tree. Then only landings are left to happen: each lowers the number of hashes held,
and when no job is left the root has been delivered, once.
-/

namespace BlockIntake.Merkle

namespace Combiner

variable {c : Combiner} {height batchSize : Nat} {input leaves : List Digest}

/-- Some job holds the batch of a height whose result leaves next. -/
def Wakes (c : Combiner) (height : Nat) : Prop :=
  ∃ job ∈ c.jobs, job.height = height ∧ job.ticket = (c.laneAt height).nextToForward

/-- Where lanes are in order, a height in flight is woken. -/
theorem Feeds.wakes {base : Nat} (feeds : Feeds batchSize c base input) (hbase : base ≤ height)
    (h : height < maxDepth) (flying : (c.laneAt height).inFlight = true) : c.Wakes height := by
  induction feeds with
  | top => omega
  | @lane base taken keeps even short above ih =>
    rcases Nat.eq_or_lt_of_le hbase with rfl | hlt
    · exact keeps.exists_job flying
    · exact ih hlt

/-- During a flush a height in flight is woken. -/
theorem FlushedTo.wakes {cursor : Nat} (flushed : FlushedTo batchSize leaves c cursor)
    (htop : cursor ≤ ceilLog2 leaves.length) (h : height < maxDepth)
    (flying : (c.laneAt height).inFlight = true) : c.Wakes height := by
  by_cases hbelow : height < cursor
  · rw [flushed.still_below height hbelow] at flying
    exact absurd flying Bool.false_ne_true
  · rcases Nat.eq_or_lt_of_le htop with hroot | hlt
    · exact (flushed.feeds hroot).wakes (Nat.le_of_not_lt hbelow) h flying
    · obtain ⟨taken, keeps, -, above⟩ := flushed.drains hlt
      rcases Nat.eq_or_lt_of_le (Nat.le_of_not_lt hbelow) with rfl | habove
      · exact keeps.exists_job flying
      · exact above.wakes habove h flying

/-- Where a flush has stopped, a height in flight is woken. -/
theorem FlushStop.wakes {cursor : Nat} {root : Option Digest}
    (stop : FlushStop batchSize leaves c cursor root) (h : height < maxDepth)
    (flying : (c.laneAt height).inFlight = true) : c.Wakes height := by
  cases stop with
  | parked below flushed _ => exact flushed.wakes below.le h flying
  | found flushed _ => exact flushed.wakes (Nat.le_refl _) h flying

/-- Where a flush has stopped, there are the lanes of the tree. -/
theorem FlushStop.shaped {cursor : Nat} {root : Option Digest}
    (stop : FlushStop batchSize leaves c cursor root) : c.Shaped := by
  cases stop with
  | parked _ flushed _ => exact flushed.shaped
  | found flushed _ => exact flushed.shaped

/-- A flush that stops before the root waits for a job. -/
theorem FlushStop.root_of_idle {cursor : Nat} {root : Option Digest}
    (stop : FlushStop batchSize leaves c cursor root) (few : leaves.length ≤ maxLeaves)
    (idle : c.jobs = []) : root = some (topHash leaves) := by
  cases stop with
  | parked below flushed flying =>
    have hdepth := ceilLog2_lt_maxDepth few
    obtain ⟨job, hjob, -⟩ := flushed.wakes below.le (by omega) flying
    rw [idle] at hjob
    exact absurd hjob List.not_mem_nil
  | found _ _ => rfl

end Combiner

open Combiner CombiningTree

variable {run : TreeRun} {tree : CombiningTree} {naive : LeafTree} {leaves : List Digest}

/-- The tree after one of its jobs has landed. -/
def Landed (next tree : CombiningTree) : Prop :=
  ∃ position < tree.combiner.jobs.length, tree.landJob position = .ok next

/-- At any time during a run, a height in flight is woken. -/
theorem Mirrors.wakes (mirrors : Mirrors run naive) {height : Nat} (h : height < maxDepth)
    (flying : (run.tree.combiner.laneAt height).inFlight = true) :
    run.tree.combiner.Wakes height := by
  cases mirrors with
  | growing growing _ _ => exact growing.feeds.wakes (Nat.zero_le _) h flying
  | scanning scanning _ _ => exact scanning.feeds.wakes (Nat.zero_le _) h flying
  | closing closing _ _ =>
    obtain ⟨cursor, root, -, -, hstop⟩ := closing.flush
    exact hstop.wakes h flying

/-- At any time during a run, there are the lanes of the tree. -/
theorem Mirrors.shaped (mirrors : Mirrors run naive) : run.tree.combiner.Shaped := by
  cases mirrors with
  | growing growing _ _ => exact growing.shaped
  | scanning scanning _ _ => exact scanning.shaped
  | closing closing _ _ =>
    obtain ⟨cursor, root, -, -, hstop⟩ := closing.flush
    exact hstop.shaped

/-- Every height of the tree has its lane. -/
theorem Combiner.Shaped.getElem?_lanes {c : Combiner} (shaped : c.Shaped) {height : Nat}
    (h : height < maxDepth) : c.lanes[height]? = some (c.laneAt height) := by
  have hindex : height < c.lanes.size := shaped.lanes_size ▸ h
  simp [laneAt, hindex]

/-- A lane of the tree is the one at its height. -/
theorem Combiner.Shaped.laneAt_eq {c : Combiner} (shaped : c.Shaped) {height : Nat} {lane : Lane}
    (h : c.lanes[height]? = some lane) : height < maxDepth ∧ c.laneAt height = lane := by
  have hsize := (Array.getElem?_eq_some_iff.mp h).1
  rw [shaped.lanes_size] at hsize
  refine ⟨hsize, ?_⟩
  rw [laneAt, h]
  rfl

/-- The root is delivered at most once. -/
theorem Mirrors.length_roots_le (mirrors : Mirrors run naive) : run.tree.roots.length ≤ 1 := by
  cases mirrors with
  | growing growing _ _ => simp [growing.roots]
  | scanning scanning _ _ => simp [scanning.roots]
  | closing closing _ _ =>
    obtain ⟨cursor, root, -, hroots, -⟩ := closing.flush
    rw [hroots]
    cases root <;> simp

/-- After the root was requested, the tree is closing. -/
theorem Mirrors.closing_of_closed (mirrors : Mirrors run naive) (closed : run.tree.closed = true) :
    run.tree.Closing naive.leaves.toList := by
  cases mirrors with
  | growing growing _ _ => exact absurd (growing.closed.symm.trans closed) Bool.false_ne_true
  | scanning scanning _ _ => exact absurd (scanning.closed.symm.trans closed) Bool.false_ne_true
  | closing closing _ _ => exact closing

/-- A closed tree without jobs has delivered its root. -/
theorem CombiningTree.Closing.roots_of_idle (closing : tree.Closing leaves)
    (idle : tree.combiner.jobs = []) : tree.roots = [topHash leaves] := by
  obtain ⟨counts, -, cursor, root, -, hroots, hstop⟩ := closing
  rw [hroots, hstop.root_of_idle counts.few idle]
  rfl

/-- Every job of a closed tree can land. -/
theorem CombiningTree.Closing.exists_landed (closing : tree.Closing leaves) {position : Nat}
    (h : position < tree.combiner.jobs.length) : ∃ next, tree.landJob position = .ok next := by
  obtain ⟨next, heq, -, -⟩ := closing.landJob (List.getElem?_eq_getElem h)
  exact ⟨next, heq⟩

/-- The jobs of a closed tree cannot land one after the other forever. The induction is on the
number of hashes the tree holds. -/
theorem CombiningTree.Closing.acc_landed (closing : tree.Closing leaves) : Acc Landed tree := by
  induction hheld : tree.combiner.heldCount using Nat.strong_induction_on generalizing tree with
  | _ held ih =>
    refine Acc.intro tree ?_
    intro next hnext
    obtain ⟨position, h, heq⟩ := hnext
    obtain ⟨landed, hland, hclosing, hless⟩ := closing.landJob (List.getElem?_eq_getElem h)
    rw [heq] at hland
    obtain rfl := Except.ok.inj hland
    exact ih _ (hheld ▸ hless) hclosing rfl

/-- No operation changes a closed tree. -/
theorem perform_of_closed (closed : naive.closed = true) (op : TreeOp) :
    (naive.perform op).2 = naive := by
  cases op with
  | add leaf => simp [LeafTree.perform, LeafTree.accept, closed]
  | frontier => exact perform_frontier_snd naive
  | count => rfl
  | root => simp [LeafTree.perform, LeafTree.requestRoot, closed]

/-- No operations change a closed tree. -/
theorem play_of_closed (closed : naive.closed = true) (ops : List TreeOp) :
    (naive.play ops).2 = naive := by
  induction ops with
  | nil => rfl
  | cons op ops ih =>
    simp only [LeafTree.play]
    rw [perform_of_closed closed op, ih]

/-- A request for the root leaves a tree closed, be it the first request or not. -/
theorem closed_perform_root (few : naive.leaves.toList.length ≤ maxLeaves) :
    (naive.perform .root).2.closed = true := by
  cases closed : naive.closed with
  | true => rw [perform_of_closed closed, closed]
  | false => simp [LeafTree.perform, LeafTree.requestRoot, closed, rootOf_eq few]

/-- A run in which the root is requested closes the tree. The induction runs over the moves. -/
theorem Mirrors.closed_of_performed (mirrors : Mirrors run naive) {moves : List Move}
    (asked : .root ∈ run.performed moves) : (run.play moves).2.tree.closed = true := by
  induction moves generalizing run naive with
  | nil => exact absurd asked List.not_mem_nil
  | cons m moves ih =>
    obtain ⟨hnext, -⟩ := mirrors.move m
    rw [play_moves_cons]
    rcases List.mem_append.mp asked with hnow | hlater
    · have hcalled : run.called m = some .root := Option.mem_toList.mp hnow
      have hclosed : (naive.play (run.called m).toList).2.closed = true := by
        rw [hcalled]
        exact closed_perform_root mirrors.counts.few
      obtain ⟨hlast, -⟩ := hnext.play moves
      rw [← hlast.closed_eq, play_of_closed hclosed]
      exact hclosed
    · exact ih hnext hlater

/-- A combining tree never gets stuck. Whatever was called and landed so far, the batch that a
height in flight waits for is with a job, so there is one to wake an owner that waits for the
height. The root is delivered at most once. After it was requested the tree is closed, every job can
land, they cannot go on landing forever, and when none is left the root has been delivered. -/
theorem combining_never_stuck {batchSize : Nat} (positive : 0 < batchSize)
    (evenSize : batchSize % 2 = 0) (moves : List Move) :
    ∃ tree, CombiningTree.new batchSize = .ok tree ∧
      ∃ last, (TreeRun.play ⟨tree, none⟩ moves).2.tree = last ∧
        (∀ height lane, last.combiner.lanes[height]? = some lane → lane.inFlight = true →
          ∃ job ∈ last.combiner.jobs, job.height = height ∧ job.ticket = lane.nextToForward) ∧
        last.roots.length ≤ 1 ∧
        (.root ∈ TreeRun.performed ⟨tree, none⟩ moves →
          last.closed = true ∧
          (∀ position < last.combiner.jobs.length, ∃ next, last.landJob position = .ok next) ∧
          Acc Landed last ∧
          (last.combiner.jobs = [] → last.roots.length = 1)) := by
  have hnew := mirrors_new positive evenSize
  obtain ⟨mirrors, -⟩ := hnew.play moves
  refine ⟨{ batchSize }, new_eq positive evenSize, _, rfl, ?_, mirrors.length_roots_le, ?_⟩
  · intro height lane hlane flying
    obtain ⟨h, hat⟩ := mirrors.shaped.laneAt_eq hlane
    have hwakes := mirrors.wakes h (by rw [hat]; exact flying)
    rwa [Wakes, hat] at hwakes
  · intro asked
    have hclosed := hnew.closed_of_performed asked
    have hclosing := mirrors.closing_of_closed hclosed
    refine ⟨hclosed, fun position h => hclosing.exists_landed h, hclosing.acc_landed, ?_⟩
    intro idle
    rw [hclosing.roots_of_idle idle]
    rfl

/-- Sixteen leaves are appended. -/
def sixteenLeaves : List Move := List.replicate 16 (.call (.add Digest.zero.bytes))

/-- In batches of sixteen the leaves make a job, for which the requested root waits. Once the job
has landed the root has been delivered. -/
theorem combining_never_stuck_sixteen : 0 < 16 ∧ 16 % 2 = 0 ∧
    .root ∈ TreeRun.performed ⟨{ batchSize := 16 }, none⟩ (sixteenLeaves ++ [.call .root]) ∧
    .root ∈ TreeRun.performed ⟨{ batchSize := 16 }, none⟩
      (sixteenLeaves ++ [.call .root, .land 0]) ∧
    ∃ waiting last, CombiningTree.new 16 = .ok { batchSize := 16 } ∧
      (TreeRun.play ⟨{ batchSize := 16 }, none⟩ (sixteenLeaves ++ [.call .root])).2.tree =
        waiting ∧
      waiting.roots = [] ∧ waiting.combiner.jobs.length = 1 ∧
      (∃ next, waiting.landJob 0 = .ok next) ∧
      (TreeRun.play ⟨{ batchSize := 16 }, none⟩
        (sixteenLeaves ++ [.call .root, .land 0])).2.tree = last ∧
      last.combiner.jobs = [] ∧ last.roots.length = 1 := by
  have positive : 0 < 16 := by decide
  have evenSize : 16 % 2 = 0 := by decide
  have hfree : (TreeRun.play ⟨{ batchSize := 16 }, none⟩ sixteenLeaves).2.scan.isNone = true := by
    decide +kernel
  have asks : ∀ moves, .root ∈ TreeRun.performed ⟨{ batchSize := 16 }, none⟩
      (sixteenLeaves ++ .call .root :: moves) := by
    intro moves
    rw [(play_moves_append _ sixteenLeaves _).2, TreeRun.performed, TreeRun.called, if_pos hfree]
    exact List.mem_append_right _ List.mem_cons_self
  obtain ⟨tree, hnew, waiting, hwaiting, -, -, hlands⟩ :=
    combining_never_stuck positive evenSize (sixteenLeaves ++ [.call .root])
  obtain ⟨tree', hnew', last, hlast, -, -, hdelivers⟩ :=
    combining_never_stuck positive evenSize (sixteenLeaves ++ [.call .root, .land 0])
  obtain ⟨-, -, rfl⟩ := new_ok hnew
  obtain ⟨-, -, rfl⟩ := new_ok hnew'
  have hone : waiting.combiner.jobs.length = 1 := by
    rw [← hwaiting]
    decide +kernel
  have hnone : last.combiner.jobs = [] := by
    rw [← hlast]
    exact List.length_eq_zero_iff.mp (by decide +kernel)
  have hunsent : waiting.roots = [] := by
    rw [← hwaiting]
    decide +kernel
  exact ⟨positive, evenSize, asks [], asks [.land 0], waiting, last, hnew, hwaiting, hunsent, hone,
    (hlands (asks [])).2.1 0 (by omega), hlast, hnone, (hdelivers (asks [.land 0])).2.2.2 hnone⟩

end BlockIntake.Merkle
