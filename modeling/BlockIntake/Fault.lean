/-!
# Refusals and crashes

A computation that yields no answer either refuses its input, with a cause its caller can act on,
or crashes, which no caller is meant to see. Crashes are outcomes of their own here, so that the
absence of crashes is a statement about a function's value.
-/

namespace BlockIntake

/-- Why a computation crashed. -/
inductive Crash where
  /-- A table with `size` entries was read at an index past its end. -/
  | pastTable (size index : Nat)
  /-- A sum left the range of 64-bit integers. -/
  | sumOverflow
  /-- A product left the range of 64-bit integers. -/
  | productOverflow
  /-- A text was cut inside a character. -/
  | insideCharacter (offset : Nat)
  /-- More room was asked for than there can be. -/
  | noRoom (wanted : Nat)
  /-- A collaborator crashed; the text is what it said, if it said anything readable. -/
  | collaborator (text : Option String)
deriving DecidableEq

/-- What a crash reports about itself. -/
def Crash.report : Crash → String
  | .pastTable size index => s!"index out of bounds: the len is {size} but the index is {index}"
  | .sumOverflow => "attempt to add with overflow"
  | .productOverflow => "attempt to multiply with overflow"
  | .insideCharacter offset => s!"byte index {offset} is not a char boundary"
  | .noRoom wanted => s!"capacity overflow: {wanted}"
  | .collaborator (some text) => text
  | .collaborator none => "unknown panic"

/-- Why a computation gave no answer: a refusal with its cause, or a crash. -/
inductive Fault (ε : Type) where
  /-- The input was refused. -/
  | refused (cause : ε)
  /-- The computation crashed. -/
  | crashed (crash : Crash)
deriving DecidableEq

namespace Fault

/-- Give a refusal another cause and keep a crash. -/
def mapCause {ε δ : Type} (f : ε → δ) : Fault ε → Fault δ
  | .refused cause => .refused (f cause)
  | .crashed crash => .crashed crash

end Fault

/-- The sum of two 64-bit integers, if it is one. -/
def checkedSum (a b : Nat) : Except Crash Nat :=
  if a + b < UInt64.size then .ok (a + b) else .error .sumOverflow

/-- A computation that can crash, seen as one that can also refuse. -/
def orCrash {ε α : Type} : Except Crash α → Except (Fault ε) α
  | .ok a => .ok a
  | .error crash => .error (.crashed crash)

/-- A computation that can refuse, seen as one that can also crash. -/
def orRefuse {ε α : Type} : Except ε α → Except (Fault ε) α
  | .ok a => .ok a
  | .error cause => .error (.refused cause)

/-- A sum that is a 64-bit integer is had. -/
theorem checkedSum_of_lt {a b : Nat} (h : a + b < UInt64.size) : checkedSum a b = .ok (a + b) :=
  if_pos h

/-- A sum past the 64-bit integers is a crash. -/
theorem checkedSum_of_le {a b : Nat} (h : UInt64.size ≤ a + b) :
    checkedSum a b = .error .sumOverflow := if_neg (Nat.not_lt_of_le h)

section Except

variable {ε α β : Type}

/-- A computation goes on with the value it has. -/
@[simp] theorem ok_bind (a : α) (f : α → Except ε β) : (Except.ok a >>= f) = f a := rfl

/-- Nothing follows a fault. -/
@[simp] theorem error_bind (e : ε) (f : α → Except ε β) : (Except.error e >>= f) = .error e := rfl

/-- A returned value is the value of the computation. -/
@[simp] theorem pure_eq_ok (a : α) : (pure a : Except ε α) = .ok a := rfl

/-- A thrown fault is the fault of the computation. -/
@[simp] theorem throw_eq_error (e : ε) : (throw e : Except ε α) = .error e := rfl

/-- A value stays a value. -/
@[simp] theorem orCrash_ok (a : α) : (orCrash (.ok a) : Except (Fault ε) α) = .ok a := rfl

/-- A crash stays a crash. -/
@[simp] theorem orCrash_error (crash : Crash) :
    (orCrash (.error crash) : Except (Fault ε) α) = .error (.crashed crash) := rfl

/-- Where nothing after a computation that can crash fails, nothing is refused. -/
theorem orCrash_bind_ne_refused (x : Except Crash α) (f : α → β) (cause : ε) :
    (orCrash x >>= fun a => (.ok (f a) : Except (Fault ε) β)) ≠ .error (.refused cause) := by
  cases x <;> exact fun refused => nomatch refused

/-- A value stays a value. -/
@[simp] theorem orRefuse_ok (a : α) : (orRefuse (.ok a) : Except (Fault ε) α) = .ok a := rfl

/-- A refusal stays a refusal. -/
@[simp] theorem orRefuse_error (cause : ε) :
    (orRefuse (.error cause) : Except (Fault ε) α) = .error (.refused cause) := rfl

end Except

end BlockIntake
