import BlockIntake.Proofs.Verification.Hashing

/-!
# The account of a session

The batches appended to a session are those its verification has processed, followed by those that
wait for its task, in order. Only a session that has lost a batch has no such account any more: its
queue was full once, or its task is gone. Such a session can still fail, but never verify a block.
-/

namespace BlockIntake

open Merkle

/-- The batches of one block, as they are received. -/
structure BlockInput where
  /-- The header that opened the block. -/
  header : BlockHeader
  /-- The batches, the one with the header first. -/
  batches : List Batch

/-- The batches with one more. -/
def BlockInput.add (input : BlockInput) (items : Batch) : BlockInput :=
  { input with batches := input.batches ++ [items] }

namespace Session

variable {s : Session StrategyTree} {verifier : Verifier} {input : BlockInput}

/-- No batch was lost to a full queue, and the task is there. -/
def Intact (s : Session StrategyTree) : Prop :=
  match s.drive with
  | .inline => True
  | .queued queue => queue.overflowed = false ∧ queue.live = true

/-- What has become of the batches appended to a session. -/
inductive Fares (verifier : Verifier) (s : Session StrategyTree) (batches : List Batch) : Prop where
  /-- They were hashed, or they wait. -/
  | onTrack (processed : List Batch) (track : s.verification.OnTrack processed)
      (intact : s.Intact) (complete : batches = processed ++ s.waiting)
  /-- Some are lost, or nobody will process them. -/
  | lost (running : s.verification.state = .running) (pending : s.verification.result = none)
      (broken : ∃ queue, s.drive = .queued queue ∧ (queue.overflowed = true ∨ queue.live = false))
  /-- A verdict was given. -/
  | judged (judged : s.verification.Judged verifier batches)

/-- A session has been given the batches of a block. -/
structure Accounts (verifier : Verifier) (s : Session StrategyTree) (input : BlockInput) :
    Prop where
  /-- The number of the block is that of its header. -/
  block : s.verification.block = input.header.number
  /-- What has become of the batches. -/
  fares : s.Fares verifier input.batches

/-- A session with an account is sound. -/
theorem Fares.sound {batches : List Batch} (fares : s.Fares verifier batches) :
    s.verification.Sound := by
  cases fares with
  | onTrack processed track _ _ => exact iff_of_true track.running track.pending
  | lost running pending _ => exact iff_of_true running pending
  | judged judged =>
    cases judged with
    | failed error state result => exact iff_of_false (by rw [state]; decide) (by simp [result])
    | verified hash front state result _ _ =>
      exact iff_of_false (by rw [state]; decide) (by simp [result])

/-- A session that has verified a block was given the batches of a signed block first. -/
theorem Accounts.signed (accounts : s.Accounts verifier input) {number : UInt64} {hash : Digest}
    (result : s.verification.result = some (.verified number hash)) :
    input.header.number = number ∧
      ∃ front, front <+: input.batches ∧ SignedBlock verifier number front hash := by
  obtain ⟨hblock, fares⟩ := accounts
  cases fares with
  | onTrack processed track _ _ =>
    exact absurd (track.pending.symm.trans result) (Option.some_ne_none _).symm
  | lost _ pending _ => exact absurd (pending.symm.trans result) (Option.some_ne_none _).symm
  | judged judged =>
    cases judged with
    | failed error _ failed =>
      have hsame := Option.some.inj (failed.symm.trans result)
      simp [VerificationResult.failed, VerificationResult.verified] at hsame
    | verified found front _ verified begins signed =>
      have hsame := Option.some.inj (verified.symm.trans result)
      simp only [VerificationResult.verified, VerificationResult.mk.injEq,
        Outcome.verified.injEq] at hsame
      obtain ⟨hnumber, rfl⟩ := hsame
      refine ⟨hblock.symm.trans hnumber, front, begins, ?_⟩
      rw [← hnumber]
      exact signed

/-- A session that has lost a batch and is handed another one has still lost it. -/
theorem Fares.append {batches : List Batch} (fares : s.Fares verifier batches) (items : Batch) :
    (s.append verifier items).1.Fares verifier (batches ++ [items]) := by
  cases fares with
  | judged judged =>
    rw [Session.append, if_pos judged.state_ne_running]
    exact .judged (judged.append [items])
  | lost running pending broken =>
    obtain ⟨queue, hdrive, hbroken⟩ := broken
    rw [Session.append, if_neg (not_not.mpr running), hdrive]
    dsimp only
    split
    · exact .lost running pending ⟨queue, hdrive, hbroken⟩
    · split
      · exact .lost running pending ⟨_, rfl, Or.inl rfl⟩
      · exact .lost running pending ⟨_, rfl, hbroken⟩
  | onTrack processed track intact complete =>
    rw [Session.append, if_neg (not_not.mpr track.running)]
    unfold Intact at intact
    unfold Session.waiting at complete
    cases hdrive : s.drive with
    | inline =>
      rw [hdrive, List.append_nil] at complete
      rcases track.handle verifier items with hnext | hjudged
      · refine .onTrack (processed ++ [items]) hnext trivial ?_
        rw [complete]
        simp [Session.waiting]
      · rw [complete]
        exact .judged hjudged
    | queued queue =>
      rw [hdrive] at intact complete
      obtain ⟨hkept, hlive⟩ := intact
      dsimp only at complete ⊢
      rw [if_neg (by simp [hlive])]
      split
      · exact .lost track.running track.pending ⟨_, rfl, Or.inl rfl⟩
      · refine .onTrack processed track ⟨hkept, hlive⟩ ?_
        rw [complete, List.append_assoc]
        rfl

/-- After an overflow the next batch ends the verification with a failure. -/
theorem workOff_overflowed (verifier : Verifier) {v : Verification StrategyTree}
    (pending : v.result = none) (capacity : Nat) (waiting batches : List Batch) :
    (workOff verifier capacity true waiting v).2.1 = v ∨
      (workOff verifier capacity true waiting v).2.1.Judged verifier batches := by
  cases waiting with
  | nil => exact Or.inl rfl
  | cons items waiting =>
    rw [workOff, if_pos rfl]
    exact Or.inr (Verification.judged_fail pending _)

/-- The task works off batches in order. -/
theorem Fares.runTaskFor {batches : List Batch} (fares : s.Fares verifier batches) (count : Nat) :
    (s.runTaskFor verifier count).1.Fares verifier batches := by
  have advances := advances_runTaskFor verifier fares.sound count
  cases fares with
  | judged judged => exact .judged (judged.of_advances advances)
  | lost running pending broken =>
    obtain ⟨queue, hdrive, hbroken⟩ := broken
    rw [Session.runTaskFor, hdrive]
    dsimp only
    split
    · exact .lost running pending ⟨queue, hdrive, hbroken⟩
    · next hlive =>
      have hover : queue.overflowed = true := hbroken.resolve_right hlive
      rw [hover]
      rcases workOff_overflowed verifier pending queue.capacity
        (queue.waiting.take count) batches with hsame | hjudged
      · refine .lost ?_ ?_ ⟨_, rfl, Or.inl rfl⟩
        · exact (congrArg _ hsame).trans running
        · exact (congrArg _ hsame).trans pending
      · exact .judged hjudged
  | onTrack processed track intact complete =>
    unfold Intact at intact
    unfold Session.waiting at complete
    rw [Session.runTaskFor]
    cases hdrive : s.drive with
    | inline =>
      refine .onTrack processed track ?_ ?_
      · rw [Intact, hdrive]
        trivial
      · rw [Session.waiting, hdrive]
        rwa [hdrive] at complete
    | queued queue =>
      rw [hdrive] at intact complete
      obtain ⟨hkept, hlive⟩ := intact
      dsimp only at complete ⊢
      rw [if_neg (by simp [hlive]), hkept]
      have hsplit : batches =
          (processed ++ queue.waiting.take count) ++ queue.waiting.drop count := by
        rw [List.append_assoc, List.take_append_drop, complete]
      rcases track.workOff verifier queue.capacity (queue.waiting.take count) with
        ⟨hruns, hnext⟩ | ⟨hruns, hjudged⟩
      · rw [hruns]
        cases hstays : !(queue.waiting.drop count).isEmpty || s.held with
        | true => exact .onTrack _ hnext ⟨rfl, by simp [hstays]⟩ hsplit
        | false => exact .lost hnext.running hnext.pending ⟨_, rfl, Or.inr (by simp [hstays])⟩
      · rw [hsplit]
        exact .judged (hjudged.append _)

/-- A session that is let go of keeps its account. -/
theorem Fares.release {batches : List Batch} (fares : s.Fares verifier batches) :
    s.release.Fares verifier batches := by
  cases fares with
  | onTrack processed track intact complete => exact .onTrack processed track intact complete
  | lost running pending broken => exact .lost running pending broken
  | judged judged => exact .judged judged

/-- Without its task a session gives no verdict that it has not given. -/
theorem Fares.stopTask {batches : List Batch} (fares : s.Fares verifier batches) :
    s.stopTask.Fares verifier batches := by
  cases hdrive : s.drive with
  | inline =>
    rw [Session.stopTask, hdrive]
    exact fares
  | queued queue =>
    rw [Session.stopTask, hdrive]
    cases fares with
    | onTrack processed track _ _ =>
      exact .lost track.running track.pending ⟨_, rfl, Or.inr rfl⟩
    | lost running pending _ => exact .lost running pending ⟨_, rfl, Or.inr rfl⟩
    | judged judged => exact .judged judged

end Session

end BlockIntake
