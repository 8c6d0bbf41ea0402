import BlockIntake.Proofs.Merkle.BinaryFrontier
import BlockIntake.Proofs.Merkle.History

/-!
# The groups a height has seen

At every height of an open tree the hashes that were ever pushed are the roots of the first complete
groups of leaves, whatever the batch size and in whatever order jobs land and frontiers are taken.
Only whole pairs leave a height, in the order in which they stand there, so the next height has seen
half as many groups as have left, each twice as large.
-/

namespace BlockIntake.Merkle

open Combiner

/-- The first numbered hashes are numbered alike. -/
theorem eq_map_range_of_prefix {front : List Digest} {count : Nat} {hash : Nat → Digest}
    (first : front <+: (List.range count).map hash) :
    front = (List.range front.length).map hash := by
  have hle := first.length_le
  rw [List.length_map, List.length_range] at hle
  conv_lhs => rw [List.prefix_iff_eq_take.mp first]
  rw [← List.map_take, List.take_range, Nat.min_eq_left hle]

namespace Storey

variable {batchSize height : Nat} {s : Storey} {events : List LaneEvent} {sent : List Digest}

/-- The hashes of the batches that were due come first among those pushed. What has left are their
pairs, half as many. -/
theorem Chronicle.due (chronicle : Chronicle batchSize height s events sent) :
    ((LaneEvent.batches events).take s.lane.nextToForward).flatten <+: LaneEvent.pushed events ∧
    sent = pairUp (emptyRoot height)
      ((LaneEvent.batches events).take s.lane.nextToForward).flatten ∧
    2 * sent.length = ((LaneEvent.batches events).take s.lane.nextToForward).flatten.length := by
  have heven : ∀ batch ∈ (LaneEvent.batches events).take s.lane.nextToForward,
      batch.length % 2 = 0 ∧ batch ≠ [] :=
    fun batch hbatch => chronicle.even batch (List.mem_of_mem_take hbatch)
  have hpairs := pairUp_flatten_append (emptyRoot height) heven []
  rw [List.append_nil, pairUp, List.append_nil] at hpairs
  refine ⟨?_, chronicle.sent.trans hpairs.symm, ?_⟩
  · rw [chronicle.pushed, List.append_assoc]
    exact ((List.take_prefix _ _).flatten).trans (List.prefix_append _ _)
  · rw [chronicle.sent, Lane.raised]
    exact length_flatMap_pairUp (emptyRoot height) heven

end Storey

/-- The roots of the first groups of leaves of a height. -/
def groupRoots (leaves : List Digest) (height count : Nat) : List Digest :=
  (List.range count).map fun i => subtreeRoot (leafAt leaves) height (i * powerOfTwo height)

/-- The groups of the lowest height are the leaves. -/
theorem groupRoots_zero (leaves : List Digest) : groupRoots leaves 0 leaves.length = leaves := by
  have hall := wholeLevel_eq leaves 0
  have hcount : leaves.length / powerOfTwo 0 = leaves.length := by
    rw [powerOfTwo_zero, Nat.div_one]
  rw [hcount] at hall
  exact hall.symm

/-- Every height in order has seen the roots of its first groups of leaves, no more than are
complete. The induction goes up from the leaves. -/
theorem Combiner.Documented.groups {batchSize : Nat} {leaves : List Digest} {journal : Journal}
    {c : Combiner} (documented : Documented batchSize leaves journal c) (height : Nat) :
    (LaneEvent.pushed (journal.events height)).length ≤ leaves.length / powerOfTwo height ∧
    LaneEvent.pushed (journal.events height) =
      groupRoots leaves height (LaneEvent.pushed (journal.events height)).length := by
  induction height with
  | zero =>
    rw [documented.leaves, groupRoots_zero, powerOfTwo_zero, Nat.div_one]
    exact ⟨Nat.le_refl _, rfl⟩
  | succ height ih =>
    obtain ⟨hbound, hroots⟩ := ih
    obtain ⟨hfirst, hpairs, hhalf⟩ := (documented.everywhere height).due
    rw [(documented.everywhere (height + 1)).source (Nat.succ_ne_zero height)] at hpairs hhalf
    have hle := hfirst.length_le
    rw [hroots] at hfirst
    have hfront := eq_map_range_of_prefix hfirst
    rw [← hhalf] at hfront hle
    rw [hfront, pairUp_subtreeRoots] at hpairs
    rw [div_powerOfTwo_succ]
    exact ⟨by omega, hpairs⟩

/-- What stands at a height with what has happened there, where each height has seen the given
number of groups of leaves. -/
structure Storey.Represents (batchSize height : Nat) (leaves : List Digest) (groups : Nat → Nat)
    (s : Storey) (events : List LaneEvent) : Prop where
  /-- No more groups were seen than are complete. -/
  complete : groups height ≤ leaves.length / powerOfTwo height
  /-- The hashes ever pushed are the roots of the first groups, in order. -/
  roots : LaneEvent.pushed events = groupRoots leaves height (groups height)
  /-- They are the batches taken so far, followed by what is pending. -/
  pushed : LaneEvent.pushed events =
    (LaneEvent.batches events).flatten ++ s.lane.pending.toList
  /-- The batches were taken in ticket order. -/
  tickets : LaneEvent.tickets events = List.range s.lane.nextTicket
  /-- Every batch has even length. -/
  even : ∀ batch ∈ LaneEvent.batches events, batch.length % 2 = 0
  /-- Less than a full batch is pending. -/
  short : s.lane.pending.size < batchSize
  /-- Only tickets that were drawn have had their turn. -/
  forward_le : s.lane.nextToForward ≤ s.lane.nextTicket
  /-- A result that waits has a ticket that was drawn, but is not the one due next. -/
  waiting : ∀ entry ∈ s.lane.finished,
    s.lane.nextToForward < entry.1 ∧ entry.1 < s.lane.nextTicket
  /-- The next height has seen half as many groups as were in the batches that have had their
  turn. -/
  half : 2 * groups (height + 1) =
    ((LaneEvent.batches events).take s.lane.nextToForward).flatten.length

/-- Every height in order represents the groups of leaves it has seen. -/
theorem Combiner.Documented.represents {batchSize : Nat} {leaves : List Digest} {journal : Journal}
    {c : Combiner} (documented : Documented batchSize leaves journal c) (height : Nat) :
    Storey.Represents batchSize height leaves
      (fun place => (LaneEvent.pushed (journal.events place)).length)
      (c.storey height) (journal.events height) := by
  have hchronicle := documented.everywhere height
  obtain ⟨hcomplete, hroots⟩ := documented.groups height
  obtain ⟨-, -, hhalf⟩ := hchronicle.due
  rw [(documented.everywhere (height + 1)).source (Nat.succ_ne_zero height)] at hhalf
  have hpushed := hchronicle.pushed
  rw [List.append_nil] at hpushed
  refine ⟨hcomplete, hroots, hpushed, hchronicle.tickets,
    fun batch hbatch => (hchronicle.even batch hbatch).1, hchronicle.short,
    hchronicle.tracks.forward_le, fun entry hentry => ?_, hhalf⟩
  obtain ⟨hle, hlt⟩ :=
    (hchronicle.tracks.mem_iff entry.1).mp (Or.inr (List.mem_map_of_mem hentry))
  exact ⟨lt_of_le_of_ne hle (hchronicle.settled entry hentry).symm, hlt⟩

/-- The leaves that a run of a new tree has appended. -/
def TreeRun.appended (run : TreeRun) (moves : List Move) : List Digest :=
  (LeafTree.play {} (run.performed moves)).2.leaves.toList

/-- Make any moves in any order with a new tree, but do not request its root. Then at every height
the hashes ever pushed are the roots of the first groups of leaves there, and they are accounted for
by the batches taken, by what is pending and by the tickets. The groups of the lowest height are all
leaves. -/
theorem pushed_are_group_roots {batchSize : Nat} {tree : CombiningTree} {moves : List Move}
    (made : CombiningTree.new batchSize = .ok tree)
    (noRoot : .root ∉ TreeRun.performed ⟨tree, none⟩ moves) :
    ∃ groups : Nat → Nat, groups 0 = (TreeRun.appended ⟨tree, none⟩ moves).length ∧
      ∀ height, Storey.Represents batchSize height (TreeRun.appended ⟨tree, none⟩ moves) groups
        ((TreeRun.play ⟨tree, none⟩ moves).2.tree.combiner.storey height)
        ((TreeRun.journal ⟨tree, none⟩ moves).events height) := by
  obtain ⟨positive, evenSize, rfl⟩ := new_ok made
  have hrecorded := (recorded_new positive evenSize).play moves noRoot
  rw [List.nil_append] at hrecorded
  have hdocumented := hrecorded.documented
  exact ⟨_, congrArg List.length hdocumented.leaves, hdocumented.represents⟩

/-- Seventeen leaves are appended, and the frontier is asked for. -/
def seventeenLeaves : List Move :=
  List.replicate 17 (.call (.add Digest.zero.bytes)) ++ [.call .frontier]

/-- In batches of sixteen the first batch is a job, for which the frontier waits. The next height
has seen no group before the job lands, and eight groups afterwards. -/
theorem pushed_are_group_roots_seventeen :
    CombiningTree.new 16 = .ok { batchSize := 16 } ∧
    .root ∉ TreeRun.performed ⟨{ batchSize := 16 }, none⟩ (seventeenLeaves ++ [.land 0]) ∧
    (∃ groups : Nat → Nat, groups 0 = 17 ∧ groups 1 = 0 ∧
      ∀ height, Storey.Represents 16 height (List.replicate 17 .zero) groups
        ((TreeRun.play ⟨{ batchSize := 16 }, none⟩ seventeenLeaves).2.tree.combiner.storey height)
        ((TreeRun.journal ⟨{ batchSize := 16 }, none⟩ seventeenLeaves).events height)) ∧
    ∃ groups : Nat → Nat, groups 0 = 17 ∧ groups 1 = 8 ∧
      ∀ height, Storey.Represents 16 height (List.replicate 17 .zero) groups
        ((TreeRun.play ⟨{ batchSize := 16 }, none⟩
          (seventeenLeaves ++ [.land 0])).2.tree.combiner.storey height)
        ((TreeRun.journal ⟨{ batchSize := 16 }, none⟩
          (seventeenLeaves ++ [.land 0])).events height) := by
  have hnew : CombiningTree.new 16 = .ok { batchSize := 16 } := rfl
  have noRoot : .root ∉ TreeRun.performed ⟨{ batchSize := 16 }, none⟩ seventeenLeaves :=
    fun hroot => by simpa [seventeenLeaves] using call_mem_of_performed hroot
  have noRootLater :
      .root ∉ TreeRun.performed ⟨{ batchSize := 16 }, none⟩ (seventeenLeaves ++ [.land 0]) :=
    fun hroot => by simpa [seventeenLeaves] using call_mem_of_performed hroot
  obtain ⟨groups, hcount, hall⟩ := pushed_are_group_roots hnew noRoot
  obtain ⟨later, hlater, hafter⟩ := pushed_are_group_roots hnew noRootLater
  have happended : TreeRun.appended ⟨{ batchSize := 16 }, none⟩ seventeenLeaves =
      List.replicate 17 .zero := by decide +kernel
  have hsame : TreeRun.appended ⟨{ batchSize := 16 }, none⟩ (seventeenLeaves ++ [.land 0]) =
      List.replicate 17 .zero := by decide +kernel
  rw [happended] at hcount hall
  rw [hsame] at hlater hafter
  have hnone : 2 * groups 1 = 0 := (hall 0).half.trans (by decide +kernel)
  have hpairs : 2 * later 1 = 16 := (hafter 0).half.trans (by decide +kernel)
  exact ⟨hnew, noRootLater, ⟨groups, hcount, by omega, hall⟩, later, hlater, by omega, hafter⟩

end BlockIntake.Merkle
