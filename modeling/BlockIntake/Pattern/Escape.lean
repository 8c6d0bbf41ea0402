import BlockIntake.Pattern.Mode

/-!
# Escapes in a pattern

A backslash gives a mark of the pattern language as a character, a character by the digits of its
number, a class, or a place between characters. Properties of characters take tables and cannot be
named.
-/

namespace BlockIntake.Pattern

/-- What an escape stands for. -/
inductive Escape where
  /-- A character; it may have been given as the value of a byte. -/
  | character (c : Char) (isByte : Bool)
  /-- A class of digits, blanks or letters, or everything else. -/
  | shorthand (isNegated : Bool)
  /-- The start or the end of the text. -/
  | edge
  /-- A boundary of a word, or a place that is none. -/
  | wordBoundary
deriving DecidableEq

/-- The value of a hexadecimal digit. -/
def hexDigit? (c : Char) : Option Nat :=
  if c.isDigit then some (c.toNat - 48)
  else if 'a' ≤ c ∧ c ≤ 'f' then some (c.toNat - 87)
  else if 'A' ≤ c ∧ c ≤ 'F' then some (c.toNat - 55)
  else none

/-- Read a number of hexadecimal digits after a value. -/
def readHex (mode : Mode) : (digits : Nat) → (value : Nat) → List Char → Option (Nat × List Char)
  | 0, value, text => some (value, text)
  | _ + 1, _, [] => none
  | digits + 1, value, c :: rest => do
    readHex mode digits (16 * value + (← hexDigit? c)) (mode.skip rest)

/-- Reading digits makes no text longer. -/
theorem length_le_of_readHex {mode : Mode} {digits value n : Nat} {text rest : List Char}
    (h : readHex mode digits value text = some (n, rest)) : rest.length ≤ text.length := by
  induction digits generalizing value text with
  | zero => simp only [readHex, Option.some.injEq, Prod.mk.injEq] at h; simp [h.2]
  | succ digits ih =>
    cases text with
    | nil => simp [readHex] at h
    | cons c tail =>
      obtain ⟨d, _, h⟩ := Option.bind_eq_some_iff.1 h
      have := ih h
      have := mode.length_skip_le tail
      simp only [List.length_cons]
      omega

/-- Read the number of a character. -/
def readCode (mode : Mode) (digits : Nat) (text : List Char) : Option (Escape × List Char) :=
  match readHex mode digits 0 (mode.skip text) with
  | none => none
  | some (n, rest) =>
    if n.isValidChar then some (.character (Char.ofNat n) (digits == 2), rest) else none

/-- Reading the number of a character makes no text longer. -/
theorem length_le_of_readCode {mode : Mode} {digits : Nat} {text rest : List Char}
    {escape : Escape} (h : readCode mode digits text = some (escape, rest)) :
    rest.length ≤ text.length := by
  unfold readCode at h
  split at h
  next => contradiction
  next n tail hn =>
    split at h
    · obtain ⟨_, rfl⟩ := Prod.mk.inj (Option.some.inj h)
      exact Nat.le_trans (length_le_of_readHex hn) (mode.length_skip_le text)
    · contradiction

/-- The character an escaped character stands for: some letters stand for control characters, and
a character of ASCII that is no letter and no digit stands for itself. -/
def escaped? (c : Char) : Option Char :=
  match c with
  | 'a' => some '\x07'
  | 'f' => some '\x0c'
  | 't' => some '\t'
  | 'n' => some '\n'
  | 'r' => some '\r'
  | 'v' => some '\x0b'
  | c => if c.toNat < 0x80 && !c.isAlphanum then some c else none

/-- Read an escape that goes on after its backslash. -/
def readEscape (mode : Mode) : List Char → Option (Escape × List Char)
  | [] => none
  | c :: rest =>
    if c == 'x' then readCode mode 2 rest
    else if c == 'u' then readCode mode 4 rest
    else if c == 'U' then readCode mode 8 rest
    else if ['d', 's', 'w'].contains c then some (.shorthand false, rest)
    else if ['D', 'S', 'W'].contains c then some (.shorthand true, rest)
    else if ['A', 'z'].contains c then some (.edge, rest)
    else if ['b', 'B', '<', '>'].contains c then some (.wordBoundary, rest)
    else (escaped? c).map fun c => (.character c false, rest)

/-- An escape takes at least a character after its backslash. -/
theorem length_lt_of_readEscape {mode : Mode} {text rest : List Char} {escape : Escape}
    (h : readEscape mode text = some (escape, rest)) : rest.length < text.length := by
  cases text with
  | nil => simp [readEscape] at h
  | cons c tail =>
    simp only [readEscape] at h
    rw [List.length_cons]
    split at h
    · exact Nat.lt_succ_of_le (length_le_of_readCode h)
    split at h
    · exact Nat.lt_succ_of_le (length_le_of_readCode h)
    split at h
    · exact Nat.lt_succ_of_le (length_le_of_readCode h)
    suffices tail = rest by simp [this]
    repeat' split at h
    · exact (Prod.mk.inj (Option.some.inj h)).2
    · exact (Prod.mk.inj (Option.some.inj h)).2
    · exact (Prod.mk.inj (Option.some.inj h)).2
    · exact (Prod.mk.inj (Option.some.inj h)).2
    · obtain ⟨_, _, h⟩ := Option.map_eq_some_iff.1 h
      exact (Prod.mk.inj h).2

end BlockIntake.Pattern
