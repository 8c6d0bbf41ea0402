import BlockIntake.Pattern.Escape
import BlockIntake.Pattern.Part

/-!
# Classes in brackets

A class in brackets has characters, ranges of characters, classes with a name and other classes in
brackets as members, and operators between its members. Hyphens right after the opening bracket are
members, and so is a closing bracket there. No class is empty.
-/

namespace BlockIntake.Pattern

/-- A class in brackets that is being read. -/
structure Bracket where
  /-- What stands to the left of the last operator. -/
  left : Option Part := none
  /-- The members read since then. -/
  members : List Part := []
  /-- Whether nothing but hyphens was read. -/
  isOpening : Bool := true

namespace Bracket

/-- What was read so far. -/
def part (bracket : Bracket) : Part :=
  match bracket.left with
  | none => .join bracket.members
  | some left => .gather [left, .join bracket.members]

/-- Add a member. -/
def add (bracket : Bracket) (member : Part) : Bracket :=
  { bracket with members := member :: bracket.members }

/-- Put an operator after what was read. -/
def operator (bracket : Bracket) : Bracket :=
  { bracket with left := some bracket.part, members := [] }

end Bracket

/-- The names of the classes of ASCII. -/
def classNames : List String :=
  ["alnum", "alpha", "ascii", "blank", "cntrl", "digit", "graph", "lower", "print", "punct",
    "space", "upper", "word", "xdigit"]

/-- Read the name of a class, to its end. -/
def readClassName (text : List Char) : Option (List Char) :=
  match text.dropWhile (· ≠ ':') with
  | ':' :: ']' :: rest =>
    if classNames.contains (String.ofList (text.takeWhile (· ≠ ':'))) then some rest else none
  | _ => none

/-- Read a class with a name that goes on after its bracket; the answer says whether everything
else is meant. -/
def readNamed : List Char → Option (Bool × List Char)
  | ':' :: '^' :: rest => (readClassName rest).map (true, ·)
  | ':' :: rest => (readClassName rest).map (false, ·)
  | _ => none

/-- Dropping characters makes no text longer. -/
theorem length_dropWhile_le {α : Type} (p : α → Bool) (text : List α) :
    (text.dropWhile p).length ≤ text.length := by
  induction text with
  | nil => simp
  | cons c rest ih =>
    rw [List.dropWhile_cons]
    split
    · exact Nat.le_succ_of_le ih
    · exact Nat.le_refl _

/-- Reading the name of a class makes a text shorter. -/
theorem length_lt_of_readClassName {text rest : List Char} (h : readClassName text = some rest) :
    rest.length < text.length := by
  unfold readClassName at h
  have hle := length_dropWhile_le (fun c => decide (c ≠ ':')) text
  split at h
  next after hd =>
    split at h
    · obtain rfl := Option.some.inj h
      rw [hd, List.length_cons, List.length_cons] at hle
      omega
    · contradiction
  next => contradiction

/-- Reading a class with a name makes a text shorter. -/
theorem length_lt_of_readNamed {text rest : List Char} {isNegated : Bool}
    (h : readNamed text = some (isNegated, rest)) : rest.length < text.length := by
  unfold readNamed at h
  split at h
  next tail =>
    obtain ⟨_, hn, he⟩ := Option.map_eq_some_iff.1 h
    obtain ⟨_, rfl⟩ := Prod.mk.inj he
    have := length_lt_of_readClassName hn
    simp only [List.length_cons]
    omega
  next tail _ =>
    obtain ⟨_, hn, he⟩ := Option.map_eq_some_iff.1 h
    obtain ⟨_, rfl⟩ := Prod.mk.inj he
    exact Nat.lt_succ_of_lt (length_lt_of_readClassName hn)
  next => contradiction

/-- Read a member that may begin or end a range: a character, or a class, which has none. -/
def readMember (mode : Mode) : List Char → Option (Option Char × List Char)
  | [] => none
  | c :: rest =>
    if c == '\\' then
      match readEscape mode rest with
      | some (.character c _, rest) => if mode.admitsMember c then some (some c, rest) else none
      | some (.shorthand isNegated, rest) =>
        if mode.admitsShorthand isNegated then some (none, rest) else none
      | _ => none
    else if mode.admitsMember c then some (some c, rest)
    else none

/-- Reading a member makes a text shorter. -/
theorem length_lt_of_readMember {mode : Mode} {text rest : List Char} {member : Option Char}
    (h : readMember mode text = some (member, rest)) : rest.length < text.length := by
  cases text with
  | nil => simp [readMember] at h
  | cons c tail =>
    simp only [readMember] at h
    rw [List.length_cons]
    split at h
    · split at h
      next he =>
        split at h
        · obtain ⟨_, rfl⟩ := Prod.mk.inj (Option.some.inj h)
          exact Nat.lt_succ_of_lt (length_lt_of_readEscape he)
        · contradiction
      next he =>
        split at h
        · obtain ⟨_, rfl⟩ := Prod.mk.inj (Option.some.inj h)
          exact Nat.lt_succ_of_lt (length_lt_of_readEscape he)
        · contradiction
      next => contradiction
    · split at h
      · obtain ⟨_, rfl⟩ := Prod.mk.inj (Option.some.inj h)
        exact Nat.lt_succ_self _
      · contradiction

/-- Read a member, or a range of characters that does not descend. A hyphen makes a range unless it
comes last or belongs to an operator. -/
def readRange (mode : Mode) (text : List Char) : Option (List Char) :=
  match readMember mode text with
  | none => none
  | some (first, rest) =>
    match mode.skip rest with
    | '-' :: after =>
      if mode.peek after == some ']' || mode.peek after == some '-' then some ('-' :: after)
      else
        match first, readMember mode (mode.skip after) with
        | some low, some (some high, rest) => if low ≤ high then some rest else none
        | _, _ => none
    | rest => some rest

/-- Reading a member or a range makes a text shorter. -/
theorem length_lt_of_readRange {mode : Mode} {text rest : List Char}
    (h : readRange mode text = some rest) : rest.length < text.length := by
  unfold readRange at h
  split at h
  next => contradiction
  next first tail hm =>
    have ht := length_lt_of_readMember hm
    have hs := mode.length_skip_le tail
    split at h
    next after ha =>
      rw [ha, List.length_cons] at hs
      split at h
      · obtain rfl := Option.some.inj h
        simp only [List.length_cons]
        omega
      · split at h
        next low high last hl =>
          split at h
          · obtain rfl := Option.some.inj h
            have := length_lt_of_readMember hl
            have := mode.length_skip_le after
            omega
          · contradiction
        next => contradiction
    next =>
      obtain rfl := Option.some.inj h
      omega

/-- How far the reading of nested classes has come. -/
inductive BracketStep where
  /-- A class is being read, in other ones from the inside out, and this text is left. -/
  | inside (outside : List Bracket) (bracket : Bracket) (rest : List Char)
  /-- The outermost class has been closed. -/
  | closed (part : Part) (rest : List Char)

/-- The text that is left after a step. -/
def BracketStep.rest : BracketStep → List Char
  | inside _ _ rest => rest
  | closed _ rest => rest

/-- Open a class that goes on after its bracket. Where bytes are meant, a class of everything else
is refused. -/
def openBracket (mode : Mode) (text : List Char) : Option (List Char) :=
  match mode.skip text with
  | '^' :: rest => if mode.isUnicode then some rest else none
  | rest => some rest

/-- Opening a class makes no text longer. -/
theorem length_le_of_openBracket {mode : Mode} {text rest : List Char}
    (h : openBracket mode text = some rest) : rest.length ≤ text.length := by
  have hs := mode.length_skip_le text
  unfold openBracket at h
  split at h
  next tail ht =>
    split at h
    · obtain rfl := Option.some.inj h
      rw [ht, List.length_cons] at hs
      omega
    · contradiction
  next => exact Option.some.inj h ▸ hs

/-- Read on in nested classes, at a character that was not skipped. -/
def stepBracket (mode : Mode) (outside : List Bracket) (bracket : Bracket) :
    List Char → Option BracketStep
  | [] => none
  | c :: rest =>
    if bracket.isOpening && (c == '-' || c == ']' && bracket.members.isEmpty) then
      if mode.admitsMember c then
        some (.inside outside { bracket.add {} with isOpening := c == '-' } rest)
      else none
    else
      let bracket := { bracket with isOpening := false }
      if c == ']' then
        match outside with
        | [] => some (.closed bracket.part.within rest)
        | around :: outside => some (.inside outside (around.add bracket.part.within) rest)
      else if c == '[' then
        match readNamed rest with
        | some (isNegated, rest) =>
          if mode.admitsNamed isNegated then some (.inside outside (bracket.add {}) rest) else none
        | none => (openBracket mode rest).map (.inside (bracket :: outside) {})
      else if ['&', '-', '~'].contains c && rest.head? == some c then
        some (.inside outside bracket.operator rest.tail)
      else (readRange mode (c :: rest)).map (.inside outside (bracket.add {}))

/-- A step makes a text shorter. -/
theorem length_lt_of_stepBracket {mode : Mode} {outside : List Bracket} {bracket : Bracket}
    {text : List Char} {step : BracketStep} (h : stepBracket mode outside bracket text = some step) :
    step.rest.length < text.length := by
  cases text with
  | nil => simp [stepBracket] at h
  | cons c tail =>
    simp only [stepBracket] at h
    rw [List.length_cons]
    split at h
    · split at h
      · obtain rfl := Option.some.inj h
        exact Nat.lt_succ_self _
      · contradiction
    split at h
    · split at h <;>
        · obtain rfl := Option.some.inj h
          exact Nat.lt_succ_self _
    split at h
    · split at h
      next hn =>
        split at h
        · obtain rfl := Option.some.inj h
          exact Nat.lt_succ_of_lt (length_lt_of_readNamed hn)
        · contradiction
      next =>
        obtain ⟨rest, hr, rfl⟩ := Option.map_eq_some_iff.1 h
        exact Nat.lt_succ_of_le (length_le_of_openBracket hr)
    split at h
    · obtain rfl := Option.some.inj h
      show tail.tail.length < tail.length + 1
      rw [List.length_tail]
      omega
    · obtain ⟨rest, hr, rfl⟩ := Option.map_eq_some_iff.1 h
      exact length_lt_of_readRange hr

/-- Read nested classes to the end of the outermost one. -/
def readBrackets (mode : Mode) (outside : List Bracket) (bracket : Bracket) (text : List Char) :
    Option (Part × List Char) :=
  match h : stepBracket mode outside bracket (mode.skip text) with
  | none => none
  | some (.closed part rest) => some (part, rest)
  | some (.inside outside bracket rest) =>
    have : rest.length < text.length :=
      Nat.lt_of_lt_of_le (length_lt_of_stepBracket h) (mode.length_skip_le text)
    readBrackets mode outside bracket rest
termination_by text.length

/-- Reading classes makes a text shorter. -/
theorem length_lt_of_readBrackets {mode : Mode} {outside : List Bracket} {bracket : Bracket}
    {text rest : List Char} {part : Part}
    (h : readBrackets mode outside bracket text = some (part, rest)) :
    rest.length < text.length := by
  fun_induction readBrackets mode outside bracket text with
  | case1 => contradiction
  | case2 outside bracket text part' rest' hs =>
    obtain ⟨_, rfl⟩ := Prod.mk.inj (Option.some.inj h)
    exact Nat.lt_of_lt_of_le (length_lt_of_stepBracket hs) (mode.length_skip_le text)
  | case3 outside bracket text outside' bracket' rest' hs _ ih =>
    exact Nat.lt_trans (ih h)
      (Nat.lt_of_lt_of_le (length_lt_of_stepBracket hs) (mode.length_skip_le text))

/-- Read a class that goes on after its bracket. -/
def readClass (mode : Mode) (text : List Char) : Option (Part × List Char) :=
  (openBracket mode text).bind (readBrackets mode [] {})

/-- Reading a class makes a text shorter. -/
theorem length_lt_of_readClass {mode : Mode} {text rest : List Char} {part : Part}
    (h : readClass mode text = some (part, rest)) : rest.length < text.length := by
  obtain ⟨inside, hi, h⟩ := Option.bind_eq_some_iff.1 h
  exact Nat.lt_of_lt_of_le (length_lt_of_readBrackets h) (length_le_of_openBracket hi)

end BlockIntake.Pattern
