import BlockIntake.Merkle.CombiningTree
import Mathlib

/-!
# Hashes held by a tree

A hash that was appended is held by the lane or the job it has reached until it is combined away.
Moving hashes between lanes and jobs keeps their number, and combining a batch halves it. The number
of hashes held therefore bounds the number of landings that can follow.
-/

namespace BlockIntake.Merkle

namespace Lane

/-- A pushed hash is held. -/
theorem length_held_push (lane : Lane) (hash : Digest) :
    (lane.push hash).held.length = lane.held.length + 1 := by
  simp only [held, push, List.length_append, Array.length_toList, Array.size_push]
  omega

/-- A batch that was taken is not held by its lane any more. -/
theorem length_held_takeBatch (lane : Lane) :
    lane.takeBatch.2.held.length + lane.takeBatch.1.2.length = lane.held.length := by
  simp only [held, takeBatch, List.length_append, Array.length_toList, List.length_nil]
  omega

/-- Keeping some of the early results holds no more hashes. -/
theorem length_flatMap_filter_le {β : Type} (keep : β → Bool) (f : β → List Digest)
    (entries : List β) :
    ((entries.filter keep).flatMap f).length ≤ (entries.flatMap f).length :=
  (List.filter_sublist.flatMap f).length_le

/-- A result that leaves is held no more. -/
theorem length_held_leave {lane : Lane} {results : List Digest}
    (early : lane.finished.lookup lane.nextToForward = some results) :
    results.length +
        ((lane.finished.filter (·.1 != lane.nextToForward)).flatMap (·.2)).length ≤
      (lane.finished.flatMap (·.2)).length := by
  obtain ⟨front, back, hsplit, -⟩ := List.lookup_eq_some_iff.mp early
  have hfront := length_flatMap_filter_le (fun entry => entry.1 != lane.nextToForward)
    (fun entry => entry.2) front
  have hback := length_flatMap_filter_le (fun entry => entry.1 != lane.nextToForward)
    (fun entry => entry.2) back
  rw [hsplit, List.filter_append, List.filter_cons_of_neg (by simp)]
  simp only [List.flatMap_append, List.flatMap_cons, List.length_append] at hfront hback ⊢
  omega

/-- What leaves a lane is held by it no more. -/
theorem length_held_releaseUpTo (count : Nat) (lane : Lane) :
    (lane.releaseUpTo count).1.length + (lane.releaseUpTo count).2.held.length ≤
      lane.held.length := by
  induction count generalizing lane with
  | zero => simp [releaseUpTo]
  | succ count ih =>
    simp only [releaseUpTo]
    split
    · simp
    · next results hsome =>
      have hleave := length_held_leave hsome
      have hrest := ih { lane with
        finished := lane.finished.filter (·.1 != lane.nextToForward)
        nextToForward := lane.nextToForward + 1 }
      simp only [held, List.length_append] at hrest ⊢
      omega

/-- Landing a result adds at most its hashes, those that leave the lane included. -/
theorem length_held_land (lane : Lane) (ticket : Nat) (results : List Digest) :
    (lane.land ticket results).1.length + (lane.land ticket results).2.held.length ≤
      lane.held.length + results.length := by
  have h := length_held_releaseUpTo (lane.file ticket results).finished.length
    (lane.file ticket results)
  have hfile : (lane.file ticket results).held.length = lane.held.length + results.length := by
    simp only [held, file, List.flatMap_cons, List.length_append]
    omega
  rw [hfile] at h
  exact h

end Lane

namespace Combiner

/-- The lane of a height; past the last height stands an empty one. -/
def laneAt (c : Combiner) (height : Nat) : Lane := c.lanes[height]?.getD {}

/-- The number of hashes held anywhere in a tree. -/
def heldCount (c : Combiner) : Nat := (CombiningTree.heldHashes c).length

/-- The pool with one job more. -/
def addJob (c : Combiner) (job : Job) : Combiner := { c with jobs := c.jobs ++ [job] }

/-- The pool without the job at a position. -/
def withoutJob (c : Combiner) (position : Nat) : Combiner :=
  { c with jobs := c.jobs.eraseIdx position }

/-- Replacing an entry of a list replaces its part of a flattened list. -/
theorem length_flatMap_set {β : Type} (f : β → List Digest) {entries : List β} {index : Nat}
    (h : index < entries.length) (entry : β) :
    ((entries.set index entry).flatMap f).length + (f entries[index]).length =
      (entries.flatMap f).length + (f entry).length := by
  have hold : entries = entries.take index ++ entries[index] :: entries.drop (index + 1) := by
    rw [List.cons_getElem_drop_succ, List.take_append_drop]
  have hlength := congrArg (fun entries => (entries.flatMap f).length) hold
  rw [List.set_eq_take_append_cons_drop, if_pos h]
  simp only [List.flatMap_append, List.flatMap_cons, List.length_append] at hlength ⊢
  omega

/-- Replacing a lane replaces the hashes it holds. -/
theorem heldCount_setLane {c : Combiner} {height : Nat} (h : height < c.lanes.size) (lane : Lane) :
    (c.setLane height lane).heldCount + (c.laneAt height).held.length =
      c.heldCount + lane.held.length := by
  have hlength : height < c.lanes.toList.length := by simpa using h
  have hset := length_flatMap_set Lane.held hlength lane
  have hlane : c.laneAt height = c.lanes[height] := by simp [laneAt, h]
  simp only [heldCount, CombiningTree.heldHashes, setLane, List.length_append, hlane,
    Array.toList_setIfInBounds, Array.getElem_toList] at hset ⊢
  omega

/-- A job that is added holds its batch. -/
theorem heldCount_addJob (c : Combiner) (job : Job) :
    (c.addJob job).heldCount = c.heldCount + job.batch.length := by
  simp only [addJob, heldCount, CombiningTree.heldHashes, List.flatMap_append, List.flatMap_cons,
    List.flatMap_nil, List.append_nil, List.length_append]
  omega

/-- A job splits the pool into the jobs before and after it. -/
theorem jobs_split {c : Combiner} {position : Nat} {job : Job}
    (h : c.jobs[position]? = some job) : ∃ front back,
      c.jobs = front ++ job :: back ∧ (c.withoutJob position).jobs = front ++ back := by
  obtain ⟨hindex, rfl⟩ := List.getElem?_eq_some_iff.mp h
  refine ⟨c.jobs.take position, c.jobs.drop (position + 1), ?_, ?_⟩
  · rw [List.cons_getElem_drop_succ, List.take_append_drop]
  · exact List.eraseIdx_eq_take_drop_succ _ _

/-- A job that is removed holds its batch no more. -/
theorem heldCount_withoutJob {c : Combiner} {position : Nat} {job : Job}
    (h : c.jobs[position]? = some job) :
    (c.withoutJob position).heldCount + job.batch.length = c.heldCount := by
  obtain ⟨front, back, hjobs, hrest⟩ := jobs_split h
  have hlanes : (c.withoutJob position).lanes = c.lanes := rfl
  simp only [heldCount, CombiningTree.heldHashes, hlanes, hjobs, hrest, List.flatMap_append,
    List.flatMap_cons, List.length_append]
  omega

end Combiner

end BlockIntake.Merkle
