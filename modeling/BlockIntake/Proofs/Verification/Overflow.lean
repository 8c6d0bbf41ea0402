import BlockIntake.Proofs.Verification.Acknowledged
import BlockIntake.Proofs.Verification.Blame
import BlockIntake.Proofs.Verification.Deferred

/-!
# A full queue

A batch that is appended to a running session whose queue is full is lost, and what tells the task
so is a mark on the queue. The batches that wait have to be worked off before the queue can take
another one, so the task sees the mark before any batch behind the lost one: whatever waits, the
next batch it takes out ends the verification. As long as no batch is lost, the session is where the
batches lead that were handled in order, and those do not blame the queue.
-/

namespace BlockIntake

open Merkle

namespace Session

section Loss

variable {σ : Type} {s t u : Session σ} {queue : TaskQueue} {steps : List SessionStep}

/-- An append finds that many batches waiting, in a session that still runs. -/
structure FindsFull (room : Nat) (s : Session σ) : Prop where
  /-- Somebody holds the session. -/
  held : s.held = true
  /-- It runs. -/
  running : s.verification.state = .running
  /-- That many batches wait. -/
  full : s.waiting.length = room

/-- A session has failed because its queue was full. That was told, and nothing else. -/
structure FailedFull (block : UInt64) (room : Nat) (s : Session σ) (told : List Signal) :
    Prop where
  /-- The session has failed. -/
  state : s.verification.state = .failed
  /-- The queue is blamed. -/
  result : s.verification.result = some (.failed block (.overflow room))
  /-- The stream of the block was ended with an internal error. -/
  responses : Signal.responses told = [.ended ⟨block, .internalError⟩]

/-- A session has lost a batch to a full queue, and its task has not seen that yet. -/
structure Overflown (s : Session σ) (queue : TaskQueue) : Prop where
  /-- The session has a task that works off the queue. -/
  drive : s.drive = .queued queue
  /-- The task is there. -/
  live : queue.live = true
  /-- The queue is marked. -/
  marked : queue.overflowed = true
  /-- Something waits that leads the task to the mark. -/
  waits : queue.waiting ≠ []
  /-- The session runs. -/
  running : s.verification.state = .running
  /-- It has no result. -/
  pending : s.verification.result = none

/-- On the way from one session to another nothing was told, and the task has still not seen that a
batch was lost. -/
structure Lingers (capacity : Nat) (s t : Session σ) (told : List Signal) : Prop where
  /-- The loss has not been seen. -/
  overflown : ∃ queue : TaskQueue, queue.capacity = capacity ∧ t.Overflown queue
  /-- The block is the same. -/
  block : t.verification.block = s.verification.block
  /-- Nothing was told. -/
  silent : Silent told

/-- Looking for the result or letting go of the session does not unmark the queue. -/
theorem Overflown.of_same (overflown : s.Overflown queue)
    (verification : t.verification = s.verification) (drive : t.drive = s.drive) :
    Lingers queue.capacity s t [] := by
  refine ⟨⟨queue, rfl, drive.trans overflown.drive, overflown.live, overflown.marked,
    overflown.waits, ?_, ?_⟩, congrArg _ verification, rfl, rfl⟩
  · rw [verification]
    exact overflown.running
  · rw [verification]
    exact overflown.pending

/-- What was silent before a failure does not count. -/
theorem FailedFull.of_silent {block : UInt64} {room : Nat} {told more : List Signal}
    (failed : FailedFull block room s more) (silent : Silent told) :
    FailedFull block room s (told ++ more) := by
  refine ⟨failed.state, failed.result, ?_⟩
  rw [responses_append, silent.2]
  exact failed.responses

/-- What was silent before a loss does not count either. -/
theorem Lingers.of_silent {capacity : Nat} {told more : List Signal}
    (lingers : Lingers capacity t u more) (block : t.verification.block = s.verification.block)
    (silent : Silent told) : Lingers capacity s u (told ++ more) := by
  refine ⟨lingers.overflown, lingers.block.trans block, ?_, ?_⟩
  · rw [tallies_append, silent.1, lingers.silent.1]
    rfl
  · rw [responses_append, silent.2, lingers.silent.2]
    rfl

variable [TreeHasher σ]

/-- A session that has lost a batch may lose more, but stays marked. -/
theorem Overflown.append (overflown : s.Overflown queue) (verifier : Verifier) (items : Batch) :
    Lingers queue.capacity s (s.append verifier items).1 (s.append verifier items).2 := by
  have hlive : ¬ queue.live = false := by
    rw [overflown.live]
    exact Bool.noConfusion
  rw [Session.append, if_neg (not_not.mpr overflown.running), overflown.drive]
  dsimp only
  rw [if_neg hlive]
  split
  · exact ⟨⟨{ queue with overflowed := true }, rfl, rfl, overflown.live, rfl, overflown.waits,
      overflown.running, overflown.pending⟩, rfl, rfl, rfl⟩
  · exact ⟨⟨{ queue with waiting := queue.waiting ++ [items] }, rfl, rfl, overflown.live,
      overflown.marked, by simp, overflown.running, overflown.pending⟩, rfl, rfl, rfl⟩

/-- The task of a session that has lost a batch fails with the first batch it takes out. -/
theorem Overflown.runTaskFor (overflown : s.Overflown queue) (verifier : Verifier) (count : Nat) :
    (Lingers queue.capacity s (s.runTaskFor verifier count).1 (s.runTaskFor verifier count).2 ∧
        count = 0) ∨
      FailedFull s.verification.block queue.capacity (s.runTaskFor verifier count).1
        (s.runTaskFor verifier count).2 := by
  have hlive : ¬ queue.live = false := by
    rw [overflown.live]
    exact Bool.noConfusion
  have hpending : ¬ s.verification.result.isSome = true := by simp [overflown.pending]
  obtain ⟨items, rest, hsplit⟩ := List.exists_cons_of_ne_nil overflown.waits
  rw [Session.runTaskFor, overflown.drive]
  dsimp only
  rw [if_neg hlive, overflown.marked, hsplit]
  cases count with
  | zero =>
    refine Or.inl ⟨⟨⟨{ queue with waiting := items :: rest, overflowed := true, live := true }, rfl,
      ?_⟩, rfl, rfl, rfl⟩, rfl⟩
    exact ⟨rfl, rfl, rfl, List.cons_ne_nil items rest, overflown.running, overflown.pending⟩
  | succ count =>
    rw [List.take_succ_cons, workOff, if_pos rfl, Verification.fail, if_neg hpending]
    exact Or.inr ⟨rfl, rfl, rfl⟩

/-- As long as the runtime stays, a step leaves the loss unseen or fails the session, and running
the task until it waits fails it. -/
theorem Overflown.step (overflown : s.Overflown queue) (verifier : Verifier) {step : SessionStep}
    (stays : step ≠ .stopRuntime) :
    (Lingers queue.capacity s (s.step verifier step).2.1 (s.step verifier step).2.2 ∧
        step ≠ .drain) ∨
      FailedFull s.verification.block queue.capacity (s.step verifier step).2.1
        (s.step verifier step).2.2 := by
  cases step with
  | append items =>
    refine Or.inl ⟨?_, by simp⟩
    rw [Session.step]
    split
    · exact overflown.append verifier items
    · exact overflown.of_same rfl rfl
  | work count =>
    rcases overflown.runTaskFor verifier count with ⟨hlingers, -⟩ | hfailed
    · exact Or.inl ⟨hlingers, by simp⟩
    · exact Or.inr hfailed
  | drain =>
    rcases overflown.runTaskFor verifier s.waiting.length with ⟨-, hnone⟩ | hfailed
    · have hwaiting : s.waiting = queue.waiting := by rw [waiting, overflown.drive]
      rw [hwaiting] at hnone
      exact absurd (List.length_eq_zero_iff.mp hnone) overflown.waits
    · exact Or.inr hfailed
  | takeResult =>
    refine Or.inl ⟨?_, by simp⟩
    rw [Session.step]
    split <;> exact overflown.of_same rfl rfl
  | pollResult =>
    obtain ⟨read, hpolled⟩ := exists_pollResult s
    refine Or.inl ⟨?_, by simp⟩
    rw [Session.step]
    dsimp only
    rw [hpolled]
    exact overflown.of_same rfl rfl
  | release => exact Or.inl ⟨overflown.of_same rfl rfl, by simp⟩
  | stopRuntime => exact absurd rfl stays

/-- A session that has failed because its queue was full has done so for good. -/
theorem FailedFull.run {block : UInt64} {room : Nat} {told : List Signal}
    (failed : FailedFull block room s told) (verifier : Verifier) (steps : List SessionStep) :
    FailedFull block room (s.run verifier steps).2.1 (told ++ (s.run verifier steps).2.2) := by
  have hended : s.verification.state ≠ .running := by
    rw [failed.state]
    decide
  have hsound : s.verification.Sound := iff_of_false hended (by simp [failed.result])
  rcases advances_run verifier hsound steps with keeps | ends
  · refine ⟨keeps.state.trans failed.state, keeps.result.trans failed.result, ?_⟩
    rw [responses_append, keeps.silent.2, List.append_nil]
    exact failed.responses
  · exact absurd ends.running hended

/-- Whatever steps follow the loss of a batch, the loss is unseen or has failed the session, and the
task has not run until it waits without failing it. The induction runs over the steps. -/
theorem Overflown.run (overflown : s.Overflown queue) (verifier : Verifier)
    (stays : .stopRuntime ∉ steps) :
    (Lingers queue.capacity s (s.run verifier steps).2.1 (s.run verifier steps).2.2 ∧
        .drain ∉ steps) ∨
      FailedFull s.verification.block queue.capacity (s.run verifier steps).2.1
        (s.run verifier steps).2.2 := by
  induction steps generalizing s queue with
  | nil => exact Or.inl ⟨overflown.of_same rfl rfl, List.not_mem_nil⟩
  | cons step steps ih =>
    obtain ⟨hstep, hsteps⟩ := not_or.mp (mt List.mem_cons.mpr stays)
    rcases overflown.step verifier (Ne.symm hstep) with ⟨hlingers, hwaits⟩ | hfailed
    · obtain ⟨next, hcapacity, hnext⟩ := hlingers.overflown
      rcases ih hnext hsteps with ⟨hrest, hnone⟩ | hfailed
      · rw [hcapacity] at hrest
        refine Or.inl ⟨hrest.of_silent hlingers.block hlingers.silent, ?_⟩
        exact fun h => (List.mem_cons.mp h).elim (fun h => hwaits h.symm) hnone
      · rw [hcapacity, hlingers.block] at hfailed
        exact Or.inr (hfailed.of_silent hlingers.silent)
    · exact Or.inr (hfailed.run verifier steps)

end Loss

section Room

variable {σ : Type} [TreeHasher σ] {s t : Session σ} {queue : TaskQueue} {verifier : Verifier}

/-- Appending leaves no more batches waiting than there is room for. -/
theorem length_waiting_append (drive : s.drive = .queued queue)
    (fits : s.waiting.length ≤ queue.capacity) (verifier : Verifier) (items : Batch) :
    (s.append verifier items).1.waiting.length ≤ queue.capacity := by
  have hwaiting : s.waiting = queue.waiting := by rw [waiting, drive]
  rw [append]
  dsimp only
  split
  · exact fits
  · rw [drive]
    dsimp only
    split
    · exact fits
    · split
      · exact hwaiting ▸ fits
      · next hroom =>
        rw [waiting, List.length_append, List.length_singleton]
        omega

/-- Running the task leaves no more batches waiting than before. -/
theorem length_waiting_runTaskFor (s : Session σ) (verifier : Verifier) (count : Nat) :
    (s.runTaskFor verifier count).1.waiting.length ≤ s.waiting.length := by
  rw [runTaskFor]
  cases hdrive : s.drive with
  | inline => exact le_rfl
  | queued queue =>
    have hwaiting : s.waiting = queue.waiting := by rw [waiting, hdrive]
    dsimp only
    split
    · exact le_rfl
    · rw [waiting, hwaiting]
      dsimp only
      split
      · rw [List.length_drop]
        omega
      · exact Nat.zero_le _

/-- A step finds the queue full with a batch, or leads on and leaves no more batches than there is
room for. -/
theorem Tended.step_or_full (tended : s.Tended queue) (fits : s.waiting.length ≤ queue.capacity)
    (verifier : Verifier) {step : SessionStep} (stays : step ≠ .stopRuntime) :
    (∃ items, step = .append items ∧ s.FindsFull queue.capacity) ∨
      (∃ batches, s.Leads verifier queue.capacity batches (s.step verifier step).2.1
        (s.step verifier step).2.2) ∧
      (s.step verifier step).2.1.waiting.length ≤ queue.capacity := by
  cases step with
  | append items =>
    rw [Session.step]
    by_cases hheld : s.held = true
    · rw [if_pos hheld]
      by_cases hfull : s.FindsFull queue.capacity
      · exact Or.inl ⟨items, rfl, hfull⟩
      · obtain ⟨hleads, -, -⟩ := tended.append hheld verifier items fun hrunning =>
          lt_of_le_of_ne fits fun hlength => hfull ⟨hheld, hrunning, hlength⟩
        exact Or.inr ⟨⟨_, hleads⟩, length_waiting_append tended.drive fits verifier items⟩
    · rw [if_neg hheld]
      exact Or.inr ⟨⟨[], .of_same tended rfl rfl id⟩, fits⟩
  | work count =>
    obtain ⟨hleads, -, -⟩ := tended.runTaskFor verifier count
    exact Or.inr ⟨⟨[], hleads⟩, (length_waiting_runTaskFor s verifier count).trans fits⟩
  | drain =>
    obtain ⟨hleads, -, -⟩ := tended.runTaskFor verifier s.waiting.length
    exact Or.inr ⟨⟨[], hleads⟩, (length_waiting_runTaskFor s verifier _).trans fits⟩
  | takeResult =>
    rw [Session.step]
    split <;> exact Or.inr ⟨⟨[], .of_same tended rfl rfl id⟩, fits⟩
  | pollResult =>
    obtain ⟨read, hpolled⟩ := exists_pollResult s
    rw [Session.step]
    dsimp only
    rw [hpolled]
    exact Or.inr ⟨⟨[], .of_same tended rfl rfl id⟩, fits⟩
  | release =>
    exact Or.inr ⟨⟨[], .of_same tended rfl rfl fun h => absurd h Bool.false_ne_true⟩, fits⟩
  | stopRuntime => exact absurd rfl stays

/-- A run leads on without a loss, or does so up to a batch that finds the queue full. The induction
runs over the steps. -/
theorem Tended.run_or_full (tended : s.Tended queue) (fits : s.waiting.length ≤ queue.capacity)
    (verifier : Verifier) {steps : List SessionStep} (stays : .stopRuntime ∉ steps) :
    (∃ batches, s.Leads verifier queue.capacity batches (s.run verifier steps).2.1
        (s.run verifier steps).2.2) ∨
      ∃ before items after, steps = before ++ .append items :: after ∧
        (∃ batches, s.Leads verifier queue.capacity batches (s.run verifier before).2.1
          (s.run verifier before).2.2) ∧
        (s.run verifier before).2.1.FindsFull queue.capacity := by
  induction steps generalizing s queue with
  | nil => exact Or.inl ⟨[], .of_same tended rfl rfl id⟩
  | cons step steps ih =>
    obtain ⟨hstep, hsteps⟩ := not_or.mp (mt List.mem_cons.mpr stays)
    rcases tended.step_or_full fits verifier (Ne.symm hstep) with
      ⟨items, rfl, hfull⟩ | ⟨⟨batches, hleads⟩, hfits⟩
    · exact Or.inr ⟨[], items, steps, rfl, ⟨[], .of_same tended rfl rfl id⟩, hfull⟩
    · obtain ⟨next, hcapacity, hnext⟩ := hleads.tended
      rw [← hcapacity] at hfits
      rcases ih hnext hfits hsteps with
        ⟨more, hrest⟩ | ⟨before, items, after, rfl, ⟨more, hrest⟩, hfull⟩
      · rw [hcapacity] at hrest
        exact Or.inl ⟨batches ++ more, hleads.trans hrest⟩
      · rw [hcapacity] at hrest hfull
        exact Or.inr ⟨step :: before, items, after, rfl, ⟨batches ++ more, hleads.trans hrest⟩,
          hfull⟩

/-- Where batches led on without a loss, the queue is not blamed for a failure. -/
theorem Leads.spared {capacity : Nat} {batches : List Batch} {told : List Signal}
    (leads : s.Leads verifier capacity batches t told) (spared : (s.caughtUp verifier).Spared)
    (sound : t.verification.Sound) : t.verification.Spared := by
  intro block lost hresult
  have hstays := (Verification.advances_handleAll verifier sound t.waiting).result hresult
  have hspared := spared.handleAll verifier batches
  rw [← leads.caughtUp] at hspared
  exact hspared block lost hstays

/-- An append that finds the queue full marks it. -/
theorem FindsFull.append (full : s.FindsFull queue.capacity) (tended : s.Tended queue)
    (sound : s.verification.Sound) (positive : 0 < queue.capacity) (verifier : Verifier)
    (items : Batch) :
    Lingers queue.capacity s (s.step verifier (.append items)).2.1
      (s.step verifier (.append items)).2.2 := by
  have hlength := full.full
  rw [tended.waiting_eq] at hlength
  have hlive := tended.needed full.held full.running
  have hwaits : queue.waiting ≠ [] := by
    intro hnone
    rw [hnone, List.length_nil] at hlength
    omega
  rw [Session.step, if_pos full.held, tended.append_eq full.held full.running,
    if_pos hlength.ge]
  exact ⟨⟨{ queue with overflowed := true }, rfl, rfl, hlive, rfl, hwaits, full.running,
    sound.mp full.running⟩, rfl, rfl, rfl⟩

/-- A session that has lost nothing before an append finds the queue full lingers, or fails when its
task runs. -/
theorem Leads.run_full {capacity : Nat} {batches : List Batch} {before after : List SessionStep}
    (leads : s.Leads verifier capacity batches (s.run verifier before).2.1
      (s.run verifier before).2.2)
    (full : (s.run verifier before).2.1.FindsFull capacity) (sound : s.verification.Sound)
    (positive : 0 < capacity) (items : Batch) (stays : .stopRuntime ∉ after) :
    (Lingers capacity s (s.run verifier (before ++ .append items :: after)).2.1
        (s.run verifier (before ++ .append items :: after)).2.2 ∧ .drain ∉ after) ∨
      FailedFull s.verification.block capacity
        (s.run verifier (before ++ .append items :: after)).2.1
        (s.run verifier (before ++ .append items :: after)).2.2 := by
  have hadvances := advances_run verifier sound before
  have hsound := hadvances.sound sound
  have hblock := hadvances.block
  have hsilent : Silent (s.run verifier before).2.2 := by
    rcases hadvances with keeps | ends
    · exact keeps.silent
    · have hnone := ends.decided
      rw [hsound.mp full.running] at hnone
      exact absurd hnone Bool.false_ne_true
  obtain ⟨queue, rfl, htended⟩ := leads.tended
  have hlost := full.append htended hsound positive verifier items
  obtain ⟨next, hcapacity, hnext⟩ := hlost.overflown
  rw [run_append, run]
  rcases hnext.run verifier stays with ⟨hlingers, hwaits⟩ | hfailed
  · rw [hcapacity] at hlingers
    exact Or.inl ⟨(hlingers.of_silent hlost.block hlost.silent).of_silent hblock hsilent, hwaits⟩
  · rw [hcapacity, hlost.block, hblock] at hfailed
    exact Or.inr ((hfailed.of_silent hlost.silent).of_silent hsilent)

/-- Once an append finds the queue full, the session lingers, or fails when its task runs. -/
theorem Tended.run_full (tended : s.Tended queue) (fits : s.waiting.length ≤ queue.capacity)
    (sound : s.verification.Sound) (positive : 0 < queue.capacity)
    {before after : List SessionStep} {items : Batch}
    (stays : .stopRuntime ∉ before ++ .append items :: after)
    (full : (s.run verifier before).2.1.FindsFull queue.capacity) :
    (Lingers queue.capacity s (s.run verifier (before ++ .append items :: after)).2.1
        (s.run verifier (before ++ .append items :: after)).2.2 ∧ .drain ∉ after) ∨
      FailedFull s.verification.block queue.capacity
        (s.run verifier (before ++ .append items :: after)).2.1
        (s.run verifier (before ++ .append items :: after)).2.2 := by
  have hbefore : .stopRuntime ∉ before := fun h => stays (List.mem_append_left _ h)
  have hafter : .stopRuntime ∉ after := fun h =>
    stays (List.mem_append_right _ (List.mem_cons_of_mem _ h))
  rcases tended.run_or_full fits verifier hbefore with
    ⟨batches, hleads⟩ | ⟨first, lost, middle, rfl, ⟨batches, hleads⟩, hfirst⟩
  · exact hleads.run_full full sound positive items hafter
  · -- An earlier append has found the queue full, and this one is among the steps behind it.
    have hrest : .stopRuntime ∉ middle ++ .append items :: after := fun h => stays (by
      rw [List.append_assoc]
      exact List.mem_append_right _ (List.mem_cons_of_mem _ h))
    rw [List.append_assoc, List.cons_append]
    rcases hleads.run_full hfirst sound positive lost hrest with
      ⟨hlingers, hwaits⟩ | hfailed
    · exact Or.inl ⟨hlingers, fun h =>
        hwaits (List.mem_append_right _ (List.mem_cons_of_mem _ h))⟩
    · exact Or.inr hfailed

/-- Make a session with a task and take any steps with it as long as the runtime stays: append
batches, whatever they hold, run the task at any time and for any number of batches, look for the
result, let go of the session. If an append finds as many batches waiting as the queue has room for,
one at least, while the session runs, then the session is never completed and its block is never
acknowledged, and once the task has run until it waits, the session has failed because of the queue
and has told so once. And it fails because of the queue only if some append has found it full. The
trees may refuse any leaf and the root, and the check of signatures may crash. -/
theorem full_queue_fails_session (verifier : Verifier) (header : BlockHeader)
    (trees : BlockTrees σ) {capacity : Nat} {session : Session σ}
    (spawned : spawn header trees capacity = .ok session) {steps : List SessionStep}
    (stays : .stopRuntime ∉ steps) :
    ∃ answers last told, session.run verifier steps = (answers, last, told) ∧
      (∀ before items after, steps = before ++ .append items :: after →
        (session.run verifier before).2.1.FindsFull (max capacity 1) →
        last.verification.state ≠ .completed ∧
        (∀ ack, .acknowledged ack ∉ Signal.responses told) ∧
        (.drain ∈ after → FailedFull header.number (max capacity 1) last told)) ∧
      ∀ block batches, last.verification.result = some (.failed block (.overflow batches)) →
        ∃ before items after, steps = before ++ .append items :: after ∧
          (session.run verifier before).2.1.FindsFull (max capacity 1) := by
  obtain rfl : queued header trees capacity = session := by
    rw [spawn] at spawned
    split at spawned
    · cases spawned
    · exact Except.ok.inj spawned
  have htended := tended_queued header trees capacity
  have hsound : (queued header trees capacity).verification.Sound := iff_of_true rfl rfl
  have hpositive : 0 < max capacity 1 := by omega
  refine ⟨_, _, _, rfl, ?_, ?_⟩
  · rintro before items after rfl hfull
    rcases htended.run_full (Nat.zero_le _) hsound hpositive stays hfull with
      ⟨hlingers, hwaits⟩ | hfailed
    · obtain ⟨queue, -, hoverflown⟩ := hlingers.overflown
      refine ⟨?_, ?_, fun hdrain => absurd hdrain hwaits⟩
      · rw [hoverflown.running]
        decide
      · rw [hlingers.silent.2]
        exact fun _ => List.not_mem_nil
    · refine ⟨?_, ?_, fun _ => hfailed⟩
      · rw [hfailed.state]
        decide
      · rw [hfailed.responses]
        simp
  · intro block batches hresult
    rcases htended.run_or_full (Nat.zero_le _) verifier stays with
      ⟨accepted, hleads⟩ | ⟨before, items, after, hsplit, -, hfull⟩
    · have hspared : ((queued header trees capacity).caughtUp verifier).Spared :=
        fun _ _ => (Option.some_ne_none _).symm
      have hlast := (advances_run verifier hsound steps).sound hsound
      exact absurd hresult (hleads.spared hspared hlast block batches)
    · exact ⟨before, items, after, hsplit, hfull⟩

/-- With room for one batch, which is a complete block with a good signature, a second batch fails
the session. -/
theorem full_queue_fails_session_brief : ∃ session last told,
    spawn ⟨0, .zero, 0⟩ (⟨{}, {}⟩ : BlockTrees LeafTree) 0 = .ok session ∧
    session.run (fun _ _ => .ok true) [.append briefBlock, .append [], .release, .drain] =
      ([.done, .done, .done, .done], last, told) ∧
    FailedFull 0 1 last told := by
  have stays : SessionStep.stopRuntime ∉
      [.append briefBlock, .append [], .release, .drain] := by simp
  have spawned : spawn ⟨0, .zero, 0⟩ (⟨{}, {}⟩ : BlockTrees LeafTree) 0 =
      .ok (queued ⟨0, .zero, 0⟩ ⟨{}, {}⟩ 0) := rfl
  obtain ⟨answers, last, told, hrun, hfails, -⟩ :=
    full_queue_fails_session (fun _ _ => .ok true) _ _ spawned stays
  obtain ⟨-, -, hfailed⟩ := hfails [.append briefBlock] [] [.release, .drain] rfl ⟨rfl, rfl, rfl⟩
  obtain rfl : [.done, .done, .done, .done] = answers := congrArg Prod.fst hrun
  exact ⟨_, last, told, spawned, hrun, hfailed (by simp)⟩

end Room

end Session

end BlockIntake
