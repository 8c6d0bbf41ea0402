import BlockIntake.Proofs.Verification.Handling

/-!
# Failures that do not blame the queue

Only a batch that was lost to a full queue fails a verification with the error that says so. No
refusal of a tree is worded like it, nor is a bad proof, and a crash reports itself in other words.
So a verification that handles batches in order does not come to that error by itself.
-/

namespace BlockIntake

open Merkle

namespace VerificationError

/-- The character the reason of an unrecoverable failure begins with. -/
def initial : VerificationError → Option Char
  | .unrecoverable reason => reason.toList.head?
  | _ => none

/-- A text begins with the first of its parts. -/
theorem head?_wording {front : String} {first : Char} (begins : front.toList.head? = some first)
    (back : String) : (front ++ back).toList.head? = some first := by
  rw [String.toList_append, List.head?_append, begins, Option.some_or]

/-- What the failure of a full queue begins with. -/
theorem initial_overflow (batches : Nat) : (overflow batches).initial = some 's' :=
  head?_wording (head?_wording (by decide) _) _

/-- What begins differently is another failure. -/
theorem ne_overflow {error : VerificationError} (other : error.initial ≠ some 's')
    (batches : Nat) : error ≠ .overflow batches := by
  rintro rfl
  exact other (initial_overflow batches)

/-- A crash is worded differently. -/
theorem initial_ofCrash (crash : Crash) : (ofCrash crash).initial ≠ some 's' := by
  have hfirst : (ofCrash crash).initial = some 'p' := head?_wording (by decide) _
  rw [hfirst]
  decide

/-- So is every refusal of a tree. -/
theorem initial_ofTree (cause : TreeError) : (ofTree cause).initial ≠ some 's' := by
  cases cause with
  | invalidArgument reason => exact (Option.some_ne_none 's').symm
  | illegalState reason => exact (Option.some_ne_none 's').symm
  | capacityExceeded max =>
    have hfirst : (TreeError.capacityExceeded max).message.toList.head? = some 'T' :=
      head?_wording (head?_wording (by decide) _) _
    rw [ofTree, initial, hfirst]
    · decide
    · exact fun _ => TreeError.noConfusion
    · exact fun _ => TreeError.noConfusion
  | cancelled => decide
  | poolUnavailable reason =>
    have hbegins : "Worker pool initialization failed: ".toList.head? = some 'W' := by decide
    have hfirst : (TreeError.poolUnavailable reason).message.toList.head? = some 'W' :=
      head?_wording hbegins _
    rw [ofTree, initial, hfirst]
    · decide
    · exact fun _ => TreeError.noConfusion
    · exact fun _ => TreeError.noConfusion

end VerificationError

/-- A computation that does not refuse because of a full queue. -/
def Spares {α : Type} (x : Except VerificationFault α) : Prop :=
  ∀ batches, x ≠ .error (.refused (.overflow batches))

section Spares

variable {α β : Type} {x : Except VerificationFault α}

/-- What succeeds refuses nothing. -/
theorem spares_ok (a : α) : Spares (.ok a) := by
  intro batches h
  cases h

/-- A crash is no refusal. -/
theorem spares_crashed (crash : Crash) :
    Spares (.error (.crashed crash) : Except VerificationFault α) := by
  intro batches h
  cases h

/-- A refusal that is worded differently has another cause. -/
theorem spares_refused {error : VerificationError} (other : error.initial ≠ some 's') :
    Spares (.error (.refused error) : Except VerificationFault α) := by
  intro batches h
  exact VerificationError.ne_overflow other batches (Fault.refused.inj (Except.error.inj h))

/-- What goes on without such a refusal has none. -/
theorem Spares.bind (spares : Spares x) {f : α → Except VerificationFault β}
    (next : ∀ a, Spares (f a)) : Spares (x >>= f) := by
  cases x with
  | ok a => exact next a
  | error fault =>
    intro batches h
    exact spares batches (congrArg _ (Except.error.inj h))

/-- What can only crash does not refuse. -/
theorem spares_orCrash (y : Except Crash α) : Spares (orCrash y) := by
  cases y with
  | ok a => exact spares_ok a
  | error crash => exact spares_crashed crash

/-- No tree refuses because of a full queue. -/
theorem spares_ofTreeFault (y : Except TreeFault α) : Spares (ofTreeFault y) := by
  cases y with
  | ok a => exact spares_ok a
  | error fault =>
    cases fault with
    | refused cause => exact spares_refused (VerificationError.initial_ofTree cause)
    | crashed crash => exact spares_crashed crash

end Spares

namespace Verification

variable {σ : Type} {v : Verification σ}

/-- A verification that has not failed because of a full queue. -/
def Spared (v : Verification σ) : Prop :=
  ∀ block batches, v.result ≠ some (.failed block (.overflow batches))

/-- Another failure does not blame the queue. -/
theorem Spared.fail (spared : v.Spared) {error : VerificationError}
    (other : ∀ batches, error ≠ .overflow batches) : (v.fail error).1.Spared := by
  intro block batches h
  rw [Verification.fail] at h
  split at h
  · exact spared block batches h
  · simp only [VerificationResult.failed, Option.some.injEq, VerificationResult.mk.injEq,
      Outcome.failed.injEq] at h
    exact other batches h.2.1

/-- Nor does verifying a block. -/
theorem Spared.complete (spared : v.Spared) (hash : Digest) : (v.complete hash).1.Spared := by
  intro block batches h
  rw [Verification.complete] at h
  split at h
  · exact spared block batches h
  · simp [VerificationResult.verified, VerificationResult.failed] at h

end Verification

section Refusals

variable {σ : Type} [TreeHasher σ]

/-- Appending items does not refuse because of a full queue. The induction runs over the items. -/
theorem BlockTrees.spares_addAll (trees : BlockTrees σ) (items : Batch) :
    Spares (trees.addAll items) := by
  induction items generalizing trees with
  | nil => exact spares_ok trees
  | cons item items ih =>
    have hadd : Spares (trees.add item) := by
      rw [BlockTrees.add]
      split
      · exact (spares_ofTreeFault _).bind fun _ => spares_ok _
      · exact (spares_ofTreeFault _).bind fun _ => spares_ok _
      · exact spares_ok trees
    rw [BlockTrees.addAll, List.foldlM_cons]
    exact hadd.bind ih

/-- Nor does asking for the roots. -/
theorem BlockTrees.spares_roots (trees : BlockTrees σ) : Spares trees.roots :=
  (spares_ofTreeFault _).bind fun _ => (spares_ofTreeFault _).bind fun _ =>
    (spares_ofTreeFault _).bind fun _ => (spares_ofTreeFault _).bind fun _ => spares_ok _

namespace Verification

/-- A proof is not refused because of a full queue. -/
theorem spares_finalize (verifier : Verifier) (v : Verification σ) (proof : BlockProof) :
    Spares (v.finalize verifier proof) := by
  rw [finalize]
  split
  · exact spares_refused (Option.some_ne_none 's').symm
  · refine v.trees.spares_roots.bind fun roots => (spares_orCrash _).bind fun good => ?_
    cases good with
    | true => exact spares_ok _
    | false => exact spares_refused (Option.some_ne_none 's').symm

/-- A batch is not refused because of a full queue. -/
theorem spares_process (verifier : Verifier) (v : Verification σ) (items : Batch) :
    Spares (v.process verifier items) := by
  rw [process]
  refine (v.trees.spares_addAll items).bind fun trees => ?_
  dsimp only
  split
  · exact spares_ok _
  · next last _ =>
    split
    · exact spares_ok _
    · have hproof : Spares (orRefuse <| last.proof.mapError fun error =>
          VerificationError.parseFailure ItemKind.blockProof.name error.message) := by
        cases last.proof with
        | ok proof => exact spares_ok proof
        | error error => exact spares_refused (Option.some_ne_none 's').symm
      exact hproof.bind fun proof => (spares_finalize verifier _ proof).bind fun _ => spares_ok _

/-- Handling a batch does not fail because of a full queue. -/
theorem Spared.handle {v : Verification σ} (spared : v.Spared) (verifier : Verifier)
    (items : Batch) : (v.handle verifier items).1.Spared := by
  rw [Verification.handle]
  split
  · exact spared
  · cases hprocess : v.process verifier items with
    | error fault =>
      cases fault with
      | refused error =>
        refine spared.fail fun batches herror => ?_
        exact spares_process verifier v items batches (herror ▸ hprocess)
      | crashed crash =>
        exact spared.fail (VerificationError.ne_overflow (VerificationError.initial_ofCrash crash))
    | ok answer =>
      obtain ⟨hash, next⟩ := answer
      obtain ⟨trees, -, rfl, -⟩ := process_ok hprocess
      cases hash with
      | none => exact spared
      | some hash => exact Spared.complete (v := { v with trees }) spared hash

/-- Nor does handling batches in order. -/
theorem Spared.handleAll {v : Verification σ} (spared : v.Spared) (verifier : Verifier)
    (batches : List Batch) : (v.handleAll verifier batches).1.Spared := by
  induction batches generalizing v with
  | nil => exact spared
  | cons items batches ih => exact ih (spared.handle verifier items)

end Verification

end Refusals

end BlockIntake
