import BlockIntake.Proofs.Verification.CatchUp

/-!
# Sessions that do the same

Two sessions of a block that are driven alike, over trees of any kind, do the same: they tell the
same whenever a batch is appended and whenever their tasks run, and if a batch is lost to a full
queue it is lost in both.
-/

namespace BlockIntake

open Merkle

/-- Working off batches keeps two verifications in agreement, ends both or none, and tells the same.
The induction runs over the batches. -/
theorem Verification.Agree.workOff {v w : Verification StrategyTree} (agree : v.Agree w)
    (verifier : Verifier) (capacity : Nat) (overflowed : Bool) (waiting : List Batch) :
    (Session.workOff verifier capacity overflowed waiting w).1 =
        (Session.workOff verifier capacity overflowed waiting v).1 ∧
      (Session.workOff verifier capacity overflowed waiting v).2.1.Agree
        (Session.workOff verifier capacity overflowed waiting w).2.1 ∧
      (Session.workOff verifier capacity overflowed waiting w).2.2 =
        (Session.workOff verifier capacity overflowed waiting v).2.2 := by
  induction waiting generalizing v w with
  | nil => exact ⟨rfl, agree, rfl⟩
  | cons items waiting ih =>
    rw [Session.workOff, Session.workOff]
    by_cases hover : overflowed = true
    · rw [if_pos hover, if_pos hover]
      obtain ⟨hagree, htold⟩ := agree.fail (.overflow capacity)
      exact ⟨rfl, hagree, htold⟩
    · rw [if_neg hover, if_neg hover]
      obtain ⟨hagree, htold⟩ := agree.handle verifier items
      dsimp only
      by_cases hended : (v.handle verifier items).1.state ≠ .running
      · rw [if_pos hended, if_pos (hagree.state ▸ hended)]
        exact ⟨rfl, hagree, htold⟩
      · rw [if_neg hended, if_neg (hagree.state ▸ hended)]
        obtain ⟨hruns, hnext, hmore⟩ := ih hagree
        exact ⟨hruns, hnext, congrArg₂ (· ++ ·) htold hmore⟩

namespace Session

variable {s t : Session StrategyTree} {verifier : Verifier}

/-- Two sessions that are driven alike, and whose verifications agree. -/
structure Twin (s t : Session StrategyTree) : Prop where
  /-- The verifications agree. -/
  agree : s.verification.Agree t.verification
  /-- They are inline, or their queues are the same. -/
  drive : t.drive = s.drive
  /-- Both are held or both were let go of. -/
  held : t.held = s.held

namespace Twin

/-- New sessions of a block are twins, whatever their trees. -/
theorem start {trees trees' : BlockTrees StrategyTree} (alike : AlikeTrees trees ⟨{}, {}⟩)
    (alike' : AlikeTrees trees' ⟨{}, {}⟩) (header : BlockHeader) (capacity : Option Nat) :
    Twin (Session.start header trees capacity) (Session.start header trees' capacity) := by
  cases capacity with
  | none => exact ⟨⟨rfl, rfl, rfl, fun _ => ⟨_, alike, alike'⟩⟩, rfl, rfl⟩
  | some capacity => exact ⟨⟨rfl, rfl, rfl, fun _ => ⟨_, alike, alike'⟩⟩, rfl, rfl⟩

/-- A batch that is appended to twins is told the same. -/
theorem append (twin : Twin s t) (verifier : Verifier) (items : Batch) :
    Twin (s.append verifier items).1 (t.append verifier items).1 ∧
      (t.append verifier items).2 = (s.append verifier items).2 := by
  rw [Session.append, Session.append, twin.drive, twin.agree.block, twin.agree.state]
  dsimp only
  split
  · exact ⟨twin, rfl⟩
  · cases s.drive with
    | inline =>
      obtain ⟨hagree, htold⟩ := twin.agree.handle verifier items
      exact ⟨⟨hagree, rfl, twin.held⟩, htold⟩
    | queued queue =>
      dsimp only
      split
      · exact ⟨twin, rfl⟩
      · split
        · exact ⟨⟨twin.agree, rfl, twin.held⟩, rfl⟩
        · exact ⟨⟨twin.agree, rfl, twin.held⟩, rfl⟩

/-- The tasks of twins tell the same. -/
theorem runTask (twin : Twin s t) (verifier : Verifier) :
    Twin (s.runTask verifier).1 (t.runTask verifier).1 ∧
      (t.runTask verifier).2 = (s.runTask verifier).2 := by
  have hwaiting : t.waiting = s.waiting := by rw [waiting, waiting, twin.drive]
  rw [Session.runTask, Session.runTask, runTaskFor, runTaskFor, hwaiting, twin.drive]
  cases hdrive : s.drive with
  | inline => exact ⟨twin, rfl⟩
  | queued queue =>
    dsimp only
    split
    · exact ⟨twin, rfl⟩
    · obtain ⟨hruns, hagree, htold⟩ := twin.agree.workOff verifier queue.capacity
        queue.overflowed (queue.waiting.take s.waiting.length)
      refine ⟨⟨hagree, ?_, twin.held⟩, htold⟩
      dsimp only
      rw [hruns, twin.held]

end Twin

/-- A session is inline, or it has a task and a queue. -/
def Driven (s : Session StrategyTree) : (capacity : Option Nat) → Prop
  | none => s.drive = .inline
  | some _ => ∃ queue, s.drive = .queued queue

namespace Driven

variable {capacity : Option Nat}

/-- A new session is driven as asked for. -/
theorem start (header : BlockHeader) (trees : BlockTrees StrategyTree) (capacity : Option Nat) :
    (Session.start header trees capacity).Driven capacity := by
  cases capacity with
  | none => rfl
  | some capacity => exact ⟨_, rfl⟩

/-- How a session is driven does not change when a batch is appended. -/
theorem append (driven : s.Driven capacity) (verifier : Verifier) (items : Batch) :
    (s.append verifier items).1.Driven capacity := by
  cases capacity with
  | none =>
    obtain ⟨hsession, -⟩ := append_inline driven verifier items
    rw [hsession]
    exact driven
  | some capacity =>
    obtain ⟨queue, hdrive⟩ := driven
    rw [Session.append, hdrive]
    dsimp only
    split
    · exact ⟨queue, hdrive⟩
    · split
      · exact ⟨queue, hdrive⟩
      · split
        · exact ⟨_, rfl⟩
        · exact ⟨_, rfl⟩

/-- How a session is driven does not change when it is let go of. -/
theorem release (driven : s.Driven capacity) : s.release.Driven capacity := by
  cases capacity with
  | none => exact driven
  | some capacity => exact driven

/-- How a session is driven does not change when its task runs. -/
theorem runTask (driven : s.Driven capacity) (verifier : Verifier) :
    (s.runTask verifier).1.Driven capacity := by
  rw [Session.runTask, runTaskFor]
  cases capacity with
  | none =>
    rw [driven]
    exact driven
  | some capacity =>
    obtain ⟨queue, hdrive⟩ := driven
    rw [hdrive]
    dsimp only
    split
    · exact ⟨queue, hdrive⟩
    · exact ⟨_, rfl⟩

/-- Nothing is told when a batch is put into a queue. -/
theorem responses_append {capacity : Nat} (driven : s.Driven (some capacity))
    (verifier : Verifier) (items : Batch) :
    Signal.responses (s.append verifier items).2 = [] := by
  obtain ⟨queue, hdrive⟩ := driven
  rw [Session.append, hdrive]
  dsimp only
  split
  · rfl
  · split
    · rfl
    · split <;> rfl

end Driven

/-- Right after its task has run a session tells nothing when it runs again. -/
theorem runTask_again (s : Session StrategyTree) (verifier : Verifier) :
    ((s.runTask verifier).1.runTask verifier).2 = [] := by
  cases hdrive : s.drive with
  | inline =>
    have hsame : s.runTask verifier = (s, []) := by rw [runTask, runTaskFor, hdrive]
    rw [hsame, hsame]
  | queued queue =>
    by_cases hlive : queue.live = false
    · have hsame : s.runTask verifier = (s, []) := by
        rw [runTask, runTaskFor, hdrive]
        exact if_pos hlive
      rw [hsame, hsame]
    · have hwaiting : s.waiting = queue.waiting := by rw [waiting, hdrive]
      have hidle : (s.runTask verifier).1.waiting = [] := by
        rw [runTask, runTaskFor, hdrive, hwaiting]
        dsimp only
        rw [if_neg hlive, List.drop_length]
        exact ite_self []
      rw [runTask, hidle, runTaskFor]
      split
      · rfl
      · split <;> rfl

/-- Letting go of a session does not change what its task tells. -/
theorem runTask_release (s : Session StrategyTree) (verifier : Verifier) :
    (s.release.runTask verifier).2 = (s.runTask verifier).2 := by
  have hwaiting : s.release.waiting = s.waiting := rfl
  have hdrive : s.release.drive = s.drive := rfl
  rw [runTask, runTask, runTaskFor, runTaskFor, hwaiting, hdrive]
  cases s.drive with
  | inline => rfl
  | queued queue =>
    dsimp only
    split <;> rfl

end Session

end BlockIntake
