import BlockIntake.Proofs.Verification.Ending

/-!
# Handling batches in order

A verification handles batches one after the other. An inline session does so as the batches are
appended, and the task of a queued session as it works them off; both come to the same verification
and tell the same. A verification that has ended changes no more and tells nothing more.
-/

namespace BlockIntake

open Merkle

/-- The same counts and responses are told, in the same order. What is logged may differ. -/
def TellSame (signals other : List Signal) : Prop :=
  Signal.tallies signals = Signal.tallies other ∧
    Signal.responses signals = Signal.responses other

namespace TellSame

variable {signals other more others : List Signal}

/-- What is told is the same as itself. -/
theorem refl (signals : List Signal) : TellSame signals signals := ⟨rfl, rfl⟩

/-- If one tells what the other tells, the other tells what the one tells. -/
theorem symm (same : TellSame signals other) : TellSame other signals :=
  ⟨same.1.symm, same.2.symm⟩

/-- What is told the same twice over is told the same. -/
theorem trans (same : TellSame signals other) (same' : TellSame other more) :
    TellSame signals more :=
  ⟨same.1.trans same'.1, same.2.trans same'.2⟩

/-- What is told later is the same too. -/
theorem append (same : TellSame signals other) (same' : TellSame more others) :
    TellSame (signals ++ more) (other ++ others) := by
  constructor
  · rw [tallies_append, tallies_append, same.1, same'.1]
  · rw [responses_append, responses_append, same.2, same'.2]

/-- Nothing is added by telling nothing. -/
theorem append_silent (same : TellSame signals other) (silent : Silent more) :
    TellSame (signals ++ more) other := by
  have hmore : TellSame more [] := silent
  have hall := same.append hmore
  rwa [List.append_nil] at hall

end TellSame

namespace Verification

variable {σ : Type} [TreeHasher σ] {v : Verification σ}

/-- Handle batches in order. -/
def handleAll (verifier : Verifier) (v : Verification σ) :
    List Batch → Verification σ × List Signal
  | [] => (v, [])
  | items :: batches =>
    let (v, signals) := v.handle verifier items
    let (v, more) := v.handleAll verifier batches
    (v, signals ++ more)

/-- The first batch is handled before the others. -/
theorem handleAll_cons (verifier : Verifier) (v : Verification σ) (items : Batch)
    (batches : List Batch) :
    v.handleAll verifier (items :: batches) =
      (((v.handle verifier items).1.handleAll verifier batches).1,
        (v.handle verifier items).2 ++
          ((v.handle verifier items).1.handleAll verifier batches).2) :=
  rfl

/-- Batches that come later are handled later. -/
theorem handleAll_append (verifier : Verifier) (v : Verification σ) (front back : List Batch) :
    v.handleAll verifier (front ++ back) =
      (((v.handleAll verifier front).1.handleAll verifier back).1,
        (v.handleAll verifier front).2 ++
          ((v.handleAll verifier front).1.handleAll verifier back).2) := by
  induction front generalizing v with
  | nil => rfl
  | cons items front ih => simp only [List.cons_append, handleAll_cons, ih, List.append_assoc]

/-- A single batch is handled as such. -/
theorem handleAll_singleton (verifier : Verifier) (v : Verification σ) (items : Batch) :
    v.handleAll verifier [items] = v.handle verifier items := by
  simp only [handleAll, List.append_nil]

/-- A verification that has ended ignores a batch. -/
theorem handle_of_ended (ended : v.state ≠ .running) (verifier : Verifier) (items : Batch) :
    v.handle verifier items = (v, [.log (.sessionNotRunning v.block items.length)]) := by
  rw [handle, if_pos ended]

/-- A verification that has ended ignores all batches. -/
theorem handleAll_of_ended (ended : v.state ≠ .running) (verifier : Verifier)
    (batches : List Batch) :
    (v.handleAll verifier batches).1 = v ∧ Silent (v.handleAll verifier batches).2 := by
  induction batches with
  | nil => exact ⟨rfl, rfl, rfl⟩
  | cons items batches ih =>
    obtain ⟨hsame, htallies, hresponses⟩ := ih
    rw [handleAll_cons, handle_of_ended ended]
    refine ⟨hsame, ?_, ?_⟩
    · rw [tallies_append, htallies]
      rfl
    · rw [responses_append, hresponses]
      rfl

/-- Handling batches tells nothing or ends the verification. -/
theorem advances_handleAll (verifier : Verifier) (sound : v.Sound) (batches : List Batch) :
    v.Advances (v.handleAll verifier batches).1 (v.handleAll verifier batches).2 := by
  induction batches generalizing v with
  | nil => exact Advances.refl v
  | cons items batches ih =>
    have hfirst := advances_handle verifier sound items
    exact hfirst.trans (ih (hfirst.sound sound))

end Verification

namespace Session

variable {σ : Type} [TreeHasher σ] {s : Session σ} {verifier : Verifier}

/-- A batch that is appended to an inline session is handled. -/
theorem append_inline (inline : s.drive = .inline) (verifier : Verifier) (items : Batch) :
    (s.append verifier items).1 =
        { s with verification := (s.verification.handle verifier items).1 } ∧
      (s.append verifier items).2 = (s.verification.handle verifier items).2 := by
  rw [append]
  by_cases hstate : s.verification.state ≠ .running
  · rw [if_pos hstate, Verification.handle_of_ended hstate]
    exact ⟨rfl, rfl⟩
  · rw [if_neg hstate, inline]
    exact ⟨rfl, rfl⟩

/-- The batches that are appended to an inline session are handled in order. -/
theorem run_inline (inline : s.drive = .inline) (held : s.held = true) (verifier : Verifier)
    (batches : List Batch) :
    (s.run verifier (batches.map .append)).2 =
      ({ s with verification := (s.verification.handleAll verifier batches).1 },
        (s.verification.handleAll verifier batches).2) := by
  induction batches generalizing s with
  | nil => rfl
  | cons items batches ih =>
    obtain ⟨hsession, hsignals⟩ := append_inline inline verifier items
    have hrest := ih (s := (s.append verifier items).1) (by rw [hsession]; exact inline)
      (by rw [hsession]; exact held)
    rw [hsession] at hrest
    simp only [List.map_cons, run, step, if_pos held, hsession, hsignals, hrest,
      Verification.handleAll_cons]

/-- A task that works off batches has handled them, and it ends with the verification. The
induction runs over the batches; once the verification has ended, the ones that are left would
change nothing. -/
theorem workOff_eq (verifier : Verifier) (capacity : Nat) (waiting : List Batch)
    {v : Verification σ} (running : v.state = .running) :
    (workOff verifier capacity false waiting v).2.1 = (v.handleAll verifier waiting).1 ∧
      TellSame (v.handleAll verifier waiting).2
        (workOff verifier capacity false waiting v).2.2 ∧
      ((workOff verifier capacity false waiting v).1 = true ↔
        (v.handleAll verifier waiting).1.state = .running) := by
  induction waiting generalizing v with
  | nil => exact ⟨rfl, .refl [], iff_of_true rfl running⟩
  | cons items waiting ih =>
    rw [workOff, if_neg Bool.false_ne_true, Verification.handleAll_cons]
    dsimp only
    by_cases hended : (v.handle verifier items).1.state ≠ .running
    · obtain ⟨hsame, hsilent⟩ := Verification.handleAll_of_ended hended verifier waiting
      rw [if_pos hended, hsame]
      have htold := TellSame.refl (v.handle verifier items).2
      exact ⟨rfl, htold.append_silent hsilent, iff_of_false Bool.false_ne_true hended⟩
    · obtain ⟨hsame, htold, hruns⟩ := ih (not_not.mp hended)
      rw [if_neg hended]
      have hfirst := TellSame.refl (v.handle verifier items).2
      exact ⟨hsame, hfirst.append htold, hruns⟩

end Session

end BlockIntake
