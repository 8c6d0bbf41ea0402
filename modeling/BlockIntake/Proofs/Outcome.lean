import BlockIntake.Fault
import Mathlib

/-!
# Computations with the same outcome

Two computations have the same outcome if both fail with the same error, or if both yield values
that stand in a given relation. Outcomes of larger computations follow from those of their parts.
-/

namespace BlockIntake

variable {ε δ α β γ κ : Type}

/-- Both computations fail alike, or both yield related values. -/
inductive SameOutcome (R : α → β → Prop) : Except ε α → Except ε β → Prop where
  /-- The values are related. -/
  | ok {a : α} {b : β} (related : R a b) : SameOutcome R (.ok a) (.ok b)
  /-- The errors are the same. -/
  | error (e : ε) : SameOutcome R (.error e) (.error e)

variable {R : α → β → Prop} {S : γ → κ → Prop} {x : Except ε α} {y : Except ε β}

/-- A computation has the same outcome as itself. -/
theorem SameOutcome.refl (x : Except ε α) : SameOutcome Eq x x := by
  cases x with
  | ok a => exact .ok rfl
  | error e => exact .error e

/-- Two computations with the same outcome as a third have the same outcome. -/
theorem SameOutcome.common {z : Except ε γ} {T : α → γ → Prop} {U : β → γ → Prop}
    (same : SameOutcome T x z) (same' : SameOutcome U y z) :
    SameOutcome (fun a b => ∃ c, T a c ∧ U b c) x y := by
  cases same with
  | ok related =>
    cases same' with
    | ok related' => exact .ok ⟨_, related, related'⟩
  | error e =>
    cases same' with
    | error => exact .error e

/-- The same outcome is had by going on alike from related values. -/
theorem SameOutcome.bind (same : SameOutcome R x y) {f : α → Except ε γ} {g : β → Except ε κ}
    (next : ∀ a b, R a b → SameOutcome S (f a) (g b)) : SameOutcome S (x >>= f) (y >>= g) := by
  cases same with
  | ok related => exact next _ _ related
  | error e => exact .error e

/-- The same outcome is had under other names for the errors. -/
theorem SameOutcome.mapError (same : SameOutcome R x y) (f : ε → δ) :
    SameOutcome R (x.mapError f) (y.mapError f) := by
  cases same with
  | ok related => exact .ok related
  | error e => exact .error (f e)

/-- A computation that goes on and succeeds has succeeded before. -/
theorem exists_of_bind_ok {f : α → Except ε γ} {c : γ} (h : (x >>= f) = .ok c) :
    ∃ a, x = .ok a ∧ f a = .ok c := by
  cases x with
  | ok a => exact ⟨a, rfl, h⟩
  | error e => cases h

/-- What succeeds succeeds on the other side too. -/
theorem SameOutcome.exists_ok (same : SameOutcome R x y) {a : α} (h : x = .ok a) :
    ∃ b, y = .ok b ∧ R a b := by
  cases same with
  | ok related =>
    obtain rfl := Except.ok.inj h
    exact ⟨_, rfl, related⟩
  | error e => cases h

/-- Steps with the same outcome make runs with the same outcome. -/
theorem SameOutcome.foldlM {f : α → γ → Except ε α} {g : β → γ → Except ε β}
    (step : ∀ a b c, R a b → SameOutcome R (f a c) (g b c)) (entries : List γ) {a : α} {b : β}
    (related : R a b) : SameOutcome R (entries.foldlM f a) (entries.foldlM g b) := by
  induction entries generalizing a b with
  | nil => exact .ok related
  | cons entry entries ih =>
    rw [List.foldlM_cons, List.foldlM_cons]
    exact (step a b entry related).bind fun _ _ hnext => ih hnext

end BlockIntake
