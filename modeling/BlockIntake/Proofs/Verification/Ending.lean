import BlockIntake.Verification.Run
import Mathlib

/-!
# A session ends once

Whatever happens to a session, it tells the outside nothing while it runs. A step that ends it gives
one count, one response and one result, and these agree. After that nothing changes any more. This
holds for any trees, which may refuse or crash, and for any check of signatures, which may crash.
-/

namespace BlockIntake

open Merkle

/-- What has been told when a verification of a block is in a state: nothing while it runs, and one
count and one response that agree with the result once it has ended. -/
inductive Told (block : UInt64) :
    SessionState → Option VerificationResult → List Tally → List Response → Prop where
  /-- Nothing has been told. -/
  | running : Told block .running none [] []
  /-- The block was verified. -/
  | completed (hash : Digest) : Told block .completed (some (.verified block hash)) [.verified]
      [.acknowledged ⟨block, hash, false⟩]
  /-- The block failed. -/
  | failed (error : VerificationError) : Told block .failed (some (.failed block error))
      [.failed error.code] [.ended ⟨block, error.code⟩]

/-- Without a count nothing has ended. -/
theorem Told.state_ne_running {block : UInt64} {state : SessionState} {result : VerificationResult}
    {tallies : List Tally} {responses : List Response}
    (told : Told block state (some result) tallies responses) : state ≠ .running := by
  cases told <;> decide

/-- Neither a count nor a response is among the signals. -/
def Silent (signals : List Signal) : Prop :=
  Signal.tallies signals = [] ∧ Signal.responses signals = []

/-- Counts come in the order of the signals. -/
theorem tallies_append (front back : List Signal) :
    Signal.tallies (front ++ back) = Signal.tallies front ++ Signal.tallies back :=
  List.filterMap_append

/-- Responses come in the order of the signals. -/
theorem responses_append (front back : List Signal) :
    Signal.responses (front ++ back) = Signal.responses front ++ Signal.responses back :=
  List.filterMap_append

namespace Verification

variable {σ : Type} {before middle after v : Verification σ}
  {signals more : List Signal}

/-- Nothing was told, and neither the state nor the result has changed. -/
structure Keeps (before after : Verification σ) (signals : List Signal) : Prop where
  /-- The block is the same. -/
  block : after.block = before.block
  /-- The state is the same. -/
  state : after.state = before.state
  /-- The result is the same. -/
  result : after.result = before.result
  /-- Nothing was told. -/
  silent : Silent signals

/-- A running verification has ended and has told so. -/
structure Ends (before after : Verification σ) (signals : List Signal) : Prop where
  /-- The block is the same. -/
  block : after.block = before.block
  /-- The verification was running. -/
  running : before.state = .running
  /-- There was no result. -/
  pending : before.result = none
  /-- There is one now. -/
  decided : after.result.isSome
  /-- It was told. -/
  told : Told before.block after.state after.result (Signal.tallies signals)
    (Signal.responses signals)

/-- The verification has gone on: it keeps what it has told, or it has ended. -/
def Advances (before after : Verification σ) (signals : List Signal) : Prop :=
  Keeps before after signals ∨ Ends before after signals

/-- A verification without a result is running, and one with a result is not. -/
def Sound (v : Verification σ) : Prop := v.state = .running ↔ v.result = none

/-- Logging alone ends nothing. -/
theorem Advances.unchanged (same : after = before) (silent : Silent signals) :
    Advances before after signals := by
  subst same
  exact Or.inl ⟨rfl, rfl, rfl, silent⟩

/-- Where nothing happens, nothing is told. -/
theorem Advances.refl (v : Verification σ) : Advances v v [] := .unchanged rfl ⟨rfl, rfl⟩

/-- A verification that has gone on is for the same block. -/
theorem Advances.block (h : Advances before after signals) : after.block = before.block := by
  rcases h with keeps | ends
  · exact keeps.block
  · exact ends.block

/-- A result that was given stays. -/
theorem Advances.result (h : Advances before after signals) {result : VerificationResult}
    (hresult : before.result = some result) : after.result = some result := by
  rcases h with keeps | ends
  · rw [keeps.result, hresult]
  · rw [ends.pending] at hresult
    exact absurd hresult.symm (Option.some_ne_none result)

/-- A block that is acknowledged was verified. -/
theorem Advances.acknowledged (h : Advances before after signals) {ack : Acknowledgement}
    (hack : .acknowledged ack ∈ Signal.responses signals) :
    after.result = some (.verified ack.block ack.root) := by
  rcases h with keeps | ends
  · rw [keeps.silent.2] at hack
    exact absurd hack List.not_mem_nil
  · have htold := ends.told
    generalize Signal.responses signals = responses at htold hack
    generalize after.result = result at htold ⊢
    generalize after.state = state at htold
    generalize Signal.tallies signals = tallies at htold
    cases htold with
    | running => exact absurd hack List.not_mem_nil
    | completed hash =>
      obtain rfl : ack = ⟨before.block, hash, false⟩ := by simpa using hack
      rfl
    | failed error => simp at hack

/-- A verification that has been given a result has told it. -/
theorem Advances.told (h : Advances before after signals) (pending : before.result = none)
    {result : VerificationResult} (decided : after.result = some result) :
    Told before.block after.state (some result) (Signal.tallies signals)
      (Signal.responses signals) := by
  rcases h with keeps | ends
  · rw [keeps.result, pending] at decided
    exact absurd decided.symm (Option.some_ne_none result)
  · rw [← decided]
    exact ends.told

/-- A verification that has gone on is still sound. -/
theorem Advances.sound (h : Advances before after signals) (sound : before.Sound) :
    after.Sound := by
  rcases h with keeps | ends
  · rw [Sound, keeps.state, keeps.result]
    exact sound
  · obtain ⟨result, hresult⟩ := Option.isSome_iff_exists.mp ends.decided
    have htold := ends.told
    rw [hresult] at htold
    rw [Sound, hresult]
    exact iff_of_false htold.state_ne_running (by simp)

/-- What was told on the way is told at the end. A verification that has ended cannot end again. -/
theorem Advances.trans (first : Advances before middle signals)
    (second : Advances middle after more) : Advances before after (signals ++ more) := by
  rcases first with keeps | ends
  · rcases second with keeps' | ends'
    · refine Or.inl ⟨keeps'.block.trans keeps.block, keeps'.state.trans keeps.state,
        keeps'.result.trans keeps.result, ?_, ?_⟩
      · rw [tallies_append, keeps.silent.1, keeps'.silent.1]
        rfl
      · rw [responses_append, keeps.silent.2, keeps'.silent.2]
        rfl
    · refine Or.inr ⟨ends'.block.trans keeps.block, keeps.state.symm.trans ends'.running,
        keeps.result.symm.trans ends'.pending, ends'.decided, ?_⟩
      rw [tallies_append, responses_append, keeps.silent.1, keeps.silent.2, ← keeps.block]
      exact ends'.told
  · rcases second with keeps' | ends'
    · refine Or.inr ⟨keeps'.block.trans ends.block, ends.running, ends.pending, ?_, ?_⟩
      · rw [keeps'.result]
        exact ends.decided
      · rw [tallies_append, responses_append, keeps'.silent.1, keeps'.silent.2, keeps'.state,
          keeps'.result, List.append_nil, List.append_nil]
        exact ends.told
    · have hnone := ends.decided
      rw [ends'.pending] at hnone
      exact absurd hnone Bool.false_ne_true

/-- Ending with a verified block ends a running verification. -/
theorem advances_complete (sound : v.Sound) (hash : Digest) :
    Advances v (v.complete hash).1 (v.complete hash).2 := by
  rw [complete]
  cases hresult : v.result with
  | some result => exact Advances.refl v
  | none => exact Or.inr ⟨rfl, sound.mpr hresult, hresult, rfl, .completed hash⟩

/-- Ending with a failure ends a running verification. -/
theorem advances_fail (sound : v.Sound) (error : VerificationError) :
    Advances v (v.fail error).1 (v.fail error).2 := by
  rw [fail]
  cases hresult : v.result with
  | some result => exact Advances.refl v
  | none => exact Or.inr ⟨rfl, sound.mpr hresult, hresult, rfl, .failed error⟩

variable [TreeHasher σ]

/-- A batch that was processed has entered the trees and changed nothing else. If a hash came back,
the batch ends with a proof that was found good. -/
theorem process_ok {verifier : Verifier} {items : Batch} {answer : Option Digest}
    {next : Verification σ} (h : v.process verifier items = .ok (answer, next)) :
    ∃ trees, v.trees.addAll items = .ok trees ∧ next = { v with trees } ∧
      ∀ hash, answer = some hash → ∃ last proof, items.getLast? = some last ∧
        last.kind = .blockProof ∧ last.proof = .ok proof ∧
        next.finalize verifier proof = .ok hash := by
  unfold process at h
  cases htrees : v.trees.addAll items with
  | error fault => simp [htrees] at h
  | ok trees =>
    refine ⟨trees, rfl, ?_⟩
    rw [htrees, ok_bind] at h
    cases hlast : items.getLast? with
    | none =>
      simp only [hlast, pure_eq_ok, Except.ok.injEq, Prod.mk.injEq] at h
      refine ⟨h.2.symm, ?_⟩
      intro hash hanswer
      exact absurd (h.1.trans hanswer) (Option.some_ne_none _).symm
    | some last =>
      simp only [hlast] at h
      by_cases hkind : last.kind ≠ .blockProof
      · simp only [if_pos hkind, pure_eq_ok, Except.ok.injEq, Prod.mk.injEq] at h
        refine ⟨h.2.symm, ?_⟩
        intro hash hanswer
        exact absurd (h.1.trans hanswer) (Option.some_ne_none _).symm
      · rw [if_neg hkind] at h
        cases hproof : last.proof with
        | error error => simp [hproof, Except.mapError, orRefuse] at h
        | ok proof =>
          simp only [hproof, Except.mapError, orRefuse, ok_bind] at h
          cases hfinal : ({ v with trees } : Verification σ).finalize verifier proof with
          | error fault => simp [hfinal] at h
          | ok root =>
            simp only [hfinal, ok_bind, pure_eq_ok, Except.ok.injEq, Prod.mk.injEq] at h
            refine ⟨h.2.symm, fun hash hanswer => ⟨last, proof, rfl, not_not.mp hkind, hproof, ?_⟩⟩
            rw [← h.2, hfinal, Option.some.inj (h.1.trans hanswer)]

/-- Handling a batch tells nothing or ends the verification, also if the processing crashes. -/
theorem advances_handle (verifier : Verifier) (sound : v.Sound) (items : Batch) :
    Advances v (v.handle verifier items).1 (v.handle verifier items).2 := by
  rw [handle]
  by_cases hstate : v.state ≠ .running
  · rw [if_pos hstate]
    exact .unchanged rfl ⟨rfl, rfl⟩
  · rw [if_neg hstate]
    cases hprocess : v.process verifier items with
    | error fault =>
      cases fault with
      | refused error => exact advances_fail sound error
      | crashed crash => exact advances_fail sound (.ofCrash crash)
    | ok answer =>
      obtain ⟨hash, next⟩ := answer
      obtain ⟨trees, -, hnext, -⟩ := process_ok hprocess
      have hkeeps : Keeps v next [] := by
        rw [hnext]
        exact ⟨rfl, rfl, rfl, rfl, rfl⟩
      cases hash with
      | none => exact Or.inl hkeeps
      | some hash =>
        have hsound := Advances.sound (Or.inl hkeeps) sound
        exact Advances.trans (Or.inl hkeeps) (advances_complete hsound hash)

end Verification

namespace Session

variable {σ : Type} {s : Session σ}

/-- The results among the answers to a run. -/
def shownResults (answers : List SessionAnswer) : List VerificationResult :=
  answers.filterMap fun | .view (.result result) => some result | _ => none

/-- Looking for the result shows it once. -/
theorem shown_pollResult (s : Session σ) :
    (shownResults [.view s.pollResult.1] = [] ∧ s.pollResult.2.read = s.read) ∨
      ∃ result, shownResults [.view s.pollResult.1] = [result] ∧ s.read = false ∧
        s.verification.result = some result ∧ s.pollResult.2.read = true := by
  rw [pollResult]
  by_cases htaken : s.taken = false
  · rw [if_pos htaken]
    exact Or.inl ⟨rfl, rfl⟩
  · rw [if_neg htaken]
    cases hread : s.read with
    | true => exact Or.inl ⟨rfl, hread⟩
    | false =>
      cases hresult : s.verification.result with
      | none =>
        refine Or.inl ⟨?_, hread⟩
        cases hdeliver : s.canDeliver <;> simp [shownResults]
      | some result => exact Or.inr ⟨result, rfl, rfl, rfl, rfl⟩

/-- Looking for the result leaves the verification alone. -/
theorem verification_pollResult (s : Session σ) :
    s.pollResult.2.verification = s.verification := by
  rw [pollResult]
  split
  · rfl
  · split
    · rfl
    · split <;> rfl

/-- Destroying the task leaves the verification alone. -/
theorem verification_stopTask (s : Session σ) : s.stopTask.verification = s.verification := by
  rw [stopTask]
  cases s.drive <;> rfl

/-- A new session, inline or with a queue for a number of batches. -/
def start (header : BlockHeader) (trees : BlockTrees σ) : (capacity : Option Nat) → Session σ
  | none => inline header trees
  | some capacity => queued header trees capacity

/-- A new session runs and has no result. -/
theorem verification_start (header : BlockHeader) (trees : BlockTrees σ) (capacity : Option Nat) :
    (start header trees capacity).verification = ⟨header.number, trees, .running, none⟩ := by
  cases capacity <;> rfl

variable [TreeHasher σ]

/-- A step advances the verification of a session. -/
theorem advances_append (verifier : Verifier) (sound : s.verification.Sound) (items : Batch) :
    s.verification.Advances (s.append verifier items).1.verification
      (s.append verifier items).2 := by
  rw [append]
  by_cases hstate : s.verification.state ≠ .running
  · rw [if_pos hstate]
    exact .unchanged rfl ⟨rfl, rfl⟩
  · rw [if_neg hstate]
    cases hdrive : s.drive with
    | inline => exact Verification.advances_handle verifier sound items
    | queued queue =>
      dsimp only
      split
      · exact .unchanged rfl ⟨rfl, rfl⟩
      · split <;> exact .unchanged rfl ⟨rfl, rfl⟩

/-- Working off batches advances the verification. The induction runs over the batches. -/
theorem advances_workOff (verifier : Verifier) (capacity : Nat) (overflowed : Bool)
    (waiting : List Batch) (v : Verification σ) (sound : v.Sound) :
    v.Advances (workOff verifier capacity overflowed waiting v).2.1
      (workOff verifier capacity overflowed waiting v).2.2 := by
  induction waiting generalizing v with
  | nil => exact Verification.Advances.refl v
  | cons items waiting ih =>
    rw [workOff]
    by_cases hover : overflowed = true
    · rw [if_pos hover]
      exact Verification.advances_fail sound (.overflow capacity)
    · rw [if_neg hover]
      have hfirst := Verification.advances_handle verifier sound items
      dsimp only
      split
      · exact hfirst
      · exact hfirst.trans (ih _ (hfirst.sound sound))

/-- Running the task advances the verification. -/
theorem advances_runTaskFor (verifier : Verifier) (sound : s.verification.Sound) (count : Nat) :
    s.verification.Advances (s.runTaskFor verifier count).1.verification
      (s.runTaskFor verifier count).2 := by
  rw [runTaskFor]
  cases s.drive with
  | inline => exact Verification.Advances.refl s.verification
  | queued queue =>
    dsimp only
    split
    · exact Verification.Advances.refl s.verification
    · exact advances_workOff verifier queue.capacity queue.overflowed _ _ sound

/-- Every step advances the verification. -/
theorem advances_step (verifier : Verifier) (sound : s.verification.Sound) (step : SessionStep) :
    s.verification.Advances (s.step verifier step).2.1.verification
      (s.step verifier step).2.2 := by
  cases step with
  | append items =>
    rw [Session.step]
    split
    · exact advances_append verifier sound items
    · exact Verification.Advances.refl s.verification
  | work count => exact advances_runTaskFor verifier sound count
  | drain => exact advances_runTaskFor verifier sound s.waiting.length
  | takeResult =>
    rw [Session.step]
    split <;> exact Verification.Advances.refl s.verification
  | pollResult => exact .unchanged (verification_pollResult s) ⟨rfl, rfl⟩
  | release => exact Verification.Advances.refl s.verification
  | stopRuntime => exact .unchanged (verification_stopTask s) ⟨rfl, rfl⟩

/-- Every run advances the verification. -/
theorem advances_run (verifier : Verifier) (sound : s.verification.Sound)
    (steps : List SessionStep) :
    s.verification.Advances (s.run verifier steps).2.1.verification
      (s.run verifier steps).2.2 := by
  induction steps generalizing s with
  | nil => exact Verification.Advances.refl s.verification
  | cons step steps ih =>
    have hfirst := advances_step verifier sound step
    exact hfirst.trans (ih (hfirst.sound sound))

/-- Every step of a run is answered. -/
theorem length_answers (s : Session σ) (verifier : Verifier) (steps : List SessionStep) :
    (s.run verifier steps).1.length = steps.length := by
  induction steps generalizing s with
  | nil => rfl
  | cons step steps ih =>
    rw [run, List.length_cons, List.length_cons]
    exact congrArg _ (ih _)

/-- Appending does not look for the result. -/
theorem read_append (s : Session σ) (verifier : Verifier) (items : Batch) :
    (s.append verifier items).1.read = s.read := by
  rw [append]
  dsimp only
  split
  · rfl
  · cases s.drive with
    | inline => rfl
    | queued queue =>
      dsimp only
      split
      · rfl
      · split <;> rfl

/-- Running the task does not look for the result. -/
theorem read_runTaskFor (s : Session σ) (verifier : Verifier) (count : Nat) :
    (s.runTaskFor verifier count).1.read = s.read := by
  rw [runTaskFor]
  cases s.drive with
  | inline => rfl
  | queued queue =>
    dsimp only
    split <;> rfl

/-- A step shows at most the result, and never shows it again. -/
theorem shown_step (s : Session σ) (verifier : Verifier) (step : SessionStep) :
    (shownResults [(s.step verifier step).1] = [] ∧ (s.step verifier step).2.1.read = s.read) ∨
      ∃ result, shownResults [(s.step verifier step).1] = [result] ∧ s.read = false ∧
        s.verification.result = some result ∧ (s.step verifier step).2.1.read = true := by
  cases step with
  | append items =>
    rw [Session.step]
    split
    · exact Or.inl ⟨rfl, read_append s verifier items⟩
    · exact Or.inl ⟨rfl, rfl⟩
  | work count => exact Or.inl ⟨rfl, read_runTaskFor s verifier count⟩
  | drain => exact Or.inl ⟨rfl, read_runTaskFor s verifier s.waiting.length⟩
  | takeResult =>
    rw [Session.step]
    split <;> exact Or.inl ⟨rfl, rfl⟩
  | pollResult => exact shown_pollResult s
  | release => exact Or.inl ⟨rfl, rfl⟩
  | stopRuntime =>
    refine Or.inl ⟨rfl, ?_⟩
    rw [Session.step, stopTask]
    cases s.drive <;> rfl

/-- A run shows the result at most once. -/
theorem shown_run (verifier : Verifier) (sound : s.verification.Sound)
    (steps : List SessionStep) :
    shownResults (s.run verifier steps).1 = [] ∨
      ∃ result, shownResults (s.run verifier steps).1 = [result] ∧ s.read = false ∧
        (s.run verifier steps).2.1.verification.result = some result := by
  induction steps generalizing s with
  | nil => exact Or.inl rfl
  | cons step steps ih =>
    have hnext := (advances_step verifier sound step).sound sound
    have hcons : shownResults (s.run verifier (step :: steps)).1 =
        shownResults [(s.step verifier step).1] ++
          shownResults ((s.step verifier step).2.1.run verifier steps).1 := by
      rw [run, shownResults, shownResults, shownResults, ← List.filterMap_append]
      rfl
    rw [hcons, run]
    rcases shown_step s verifier step with ⟨hnone, hread⟩ | ⟨result, hone, hread, hresult, hdone⟩
    · rw [hnone, List.nil_append, ← hread]
      exact ih hnext
    · have hlater : shownResults ((s.step verifier step).2.1.run verifier steps).1 = [] := by
        rcases ih hnext with hnil | ⟨other, -, hunread, -⟩
        · exact hnil
        · rw [hdone] at hunread
          exact absurd hunread Bool.noConfusion
      have hstays := (advances_step verifier sound step).result hresult
      refine Or.inr ⟨result, ?_, hread, (advances_run verifier hnext steps).result hstays⟩
      rw [hone, hlater, List.append_nil]

/-- Whatever its trees and its check of signatures do, and whatever steps are taken, a session that
runs has told nothing, and one that has ended has told one outcome: one count, one response and one
result that agree. The owner sees no other result, and sees it once. A crash while a batch is
processed is a failure. Once the session has ended, no further steps change or tell anything. -/
theorem session_tells_one_outcome (verifier : Verifier) (header : BlockHeader)
    (trees : BlockTrees σ) (capacity : Option Nat) (steps : List SessionStep) :
    ∃ answers last signals,
      (start header trees capacity).run verifier steps = (answers, last, signals) ∧
      answers.length = steps.length ∧
      Told header.number last.verification.state last.verification.result
        (Signal.tallies signals) (Signal.responses signals) ∧
      (shownResults answers = [] ∨ ∃ result, shownResults answers = [result] ∧
        last.verification.result = some result) ∧
      (∀ items crash, last.verification.state = .running →
        last.verification.process verifier items = .error (.crashed crash) →
        (last.verification.handle verifier items).1.result =
          some (.failed header.number (.ofCrash crash))) ∧
      (last.verification.state ≠ .running → ∀ more,
        (last.run verifier more).2.1.verification.state = last.verification.state ∧
        (last.run verifier more).2.1.verification.result = last.verification.result ∧
        Silent (last.run verifier more).2.2) := by
  have hstart := verification_start header trees capacity
  have hsound : (start header trees capacity).verification.Sound := by
    rw [hstart]
    exact iff_of_true rfl rfl
  have hrun := advances_run verifier hsound steps
  have hlast := hrun.sound hsound
  have hshown := shown_run verifier hsound steps
  have hlength := length_answers (start header trees capacity) verifier steps
  generalize (start header trees capacity).run verifier steps = out at *
  obtain ⟨answers, last, signals⟩ := out
  simp only at hrun hlast hshown hlength
  refine ⟨answers, last, signals, rfl, hlength, ?_, ?_, ?_, ?_⟩
  · rcases hrun with keeps | ends
    · rw [keeps.state, keeps.result, keeps.silent.1, keeps.silent.2, hstart]
      exact .running
    · have htold := ends.told
      rw [hstart] at htold
      exact htold
  · rcases hshown with hnone | ⟨result, hone, -, hresult⟩
    · exact Or.inl hnone
    · exact Or.inr ⟨result, hone, hresult⟩
  · intro items crash hrunning hcrash
    have hblock : last.verification.block = header.number := by
      rw [hrun.block, hstart]
    have hopen : last.verification.result = none := hlast.mp hrunning
    simp [Verification.handle, Verification.fail, hrunning, hcrash, hopen, hblock]
  · intro hended more
    rcases advances_run verifier hlast more with keeps | ends
    · exact ⟨keeps.state, keeps.result, keeps.silent⟩
    · exact absurd ends.running hended

end Session

end BlockIntake
