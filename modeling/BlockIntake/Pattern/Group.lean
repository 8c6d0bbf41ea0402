import BlockIntake.Pattern.Bracket
import BlockIntake.Text.Alphanumeric

/-!
# Groups of a pattern

A pattern is read from left to right. A group that is opened is read before the parts around it go
on; the flags it sets, and the flags set inside it, are forgotten where it ends. A pattern comes
without the braces of counted repetitions: whoever writes one inside another notation that ends at
a closing brace cannot close them, so an opening brace that is no member of a class and not escaped
is refused.
-/

namespace BlockIntake.Pattern

/-- A group that is being read; the whole pattern is one. -/
structure Group where
  /-- The mode outside the group, which comes back at its end. -/
  outerMode : Mode
  /-- The branches that are complete. -/
  branches : List Part := []
  /-- The parts of the branch being read, the last one first. -/
  parts : List Part := []

namespace Group

/-- What was read so far. -/
def part (group : Group) : Part := .join (.join group.parts :: group.branches)

/-- Add a part. -/
def add (group : Group) (part : Part) : Group := { group with parts := part :: group.parts }

/-- Begin another branch. -/
def branch (group : Group) : Group :=
  { group with branches := .join group.parts :: group.branches, parts := [] }

/-- Repeat the last part. There has to be one that is not just a switch of flags. -/
def repeatLast? (group : Group) : Option Group :=
  match group.parts with
  | [] => none
  | last :: parts => if last.isSwitch then none else some { group with parts := last.within :: parts }

end Group

/-- How far the reading of a pattern has come. -/
structure Reading where
  /-- How it is read on. -/
  mode : Mode := {}
  /-- The groups around the one being read, from the inside out. -/
  outside : List Group := []
  /-- The group being read. -/
  group : Group := { outerMode := {} }
  /-- The names given to groups. -/
  names : List (List Char) := []

namespace Reading

/-- Add a part to the group being read. -/
def add (reading : Reading) (part : Part) : Reading :=
  { reading with group := reading.group.add part }

/-- Open a group that is read in a mode. -/
def enter (reading : Reading) (mode : Mode) : Reading :=
  { reading with
    mode
    outside := reading.group :: reading.outside
    group := { outerMode := reading.mode } }

/-- Close the group being read, if it is not the whole pattern. -/
def leave? (reading : Reading) : Option Reading :=
  match reading.outside with
  | [] => none
  | around :: outside => some
    { reading with
      mode := reading.group.outerMode, outside, group := around.add reading.group.part.within }

/-- Add what an escape stands for. -/
def addEscape? (reading : Reading) : Escape → Option Reading
  | .character c isByte => if reading.mode.admits c isByte then some (reading.add {}) else none
  | .shorthand isNegated =>
    if reading.mode.admitsShorthand isNegated then some (reading.add {}) else none
  | .edge => some (reading.add {})
  | .wordBoundary => some (reading.add { seeksBoundary := reading.mode.isUnicode })

/-- Whether a text can name a group: a letter or an underscore, and then also digits, points and
brackets. -/
def isGroupName : List Char → Bool
  | [] => false
  | c :: rest =>
    (c == '_' || Text.isAlphabetic c) &&
      rest.all fun c => ['_', '.', '[', ']'].contains c || Text.isAlphanumeric c

/-- Read the name of a group, to its end, and open the group. No two groups have the same name. -/
def readName (reading : Reading) (text : List Char) : Option (Reading × List Char) :=
  let name := text.takeWhile (· ≠ '>')
  match text.dropWhile (· ≠ '>') with
  | [] => none
  | _ :: rest =>
    if isGroupName name && !reading.names.contains name then
      some ({ reading with names := name :: reading.names }.enter reading.mode, rest)
    else none

/-- Reading the name of a group makes a text shorter. -/
theorem length_lt_of_readName {reading after : Reading} {text rest : List Char}
    (h : reading.readName text = some (after, rest)) : rest.length < text.length := by
  unfold readName at h
  have hle := length_dropWhile_le (fun c => decide (c ≠ '>')) text
  simp only at h
  split at h
  next => contradiction
  next _ tail ht =>
    split at h
    · obtain ⟨_, rfl⟩ := Prod.mk.inj (Option.some.inj h)
      rw [ht, List.length_cons] at hle
      exact hle
    · contradiction

/-- Read flags, to their end: they are set for what follows, or for a group that is opened. -/
def readFlags (reading : Reading) (text : List Char) : Option (Reading × List Char) :=
  let flags := text.takeWhile fun c => c != ':' && c != ')'
  match text.dropWhile fun c => c != ':' && c != ')' with
  | [] => none
  | mark :: rest =>
    match reading.mode.switch? flags with
    | none => none
    | some mode =>
      if mark == ':' then some (reading.enter mode, rest)
      else if flags.isEmpty then none
      else some ({ reading with mode }.add { isSwitch := true }, rest)

/-- Reading flags makes a text shorter. -/
theorem length_lt_of_readFlags {reading after : Reading} {text rest : List Char}
    (h : reading.readFlags text = some (after, rest)) : rest.length < text.length := by
  unfold readFlags at h
  have hle := length_dropWhile_le (fun c => c != ':' && c != ')') text
  simp only at h
  split at h
  next => contradiction
  next mark tail ht =>
    rw [ht, List.length_cons] at hle
    split at h
    next => contradiction
    next =>
      split at h
      · obtain ⟨_, rfl⟩ := Prod.mk.inj (Option.some.inj h)
        exact hle
      · split at h
        · contradiction
        · obtain ⟨_, rfl⟩ := Prod.mk.inj (Option.some.inj h)
          exact hle

/-- Open a group that goes on after its parenthesis, or set flags. -/
def readOpening (reading : Reading) (text : List Char) : Option (Reading × List Char) :=
  match reading.mode.skip text with
  | '?' :: 'P' :: '<' :: rest => reading.readName rest
  | '?' :: '<' :: rest => reading.readName rest
  | '?' :: rest => reading.readFlags rest
  | rest => some (reading.enter reading.mode, rest)

/-- Opening a group makes no text longer. -/
theorem length_le_of_readOpening {reading after : Reading} {text rest : List Char}
    (h : reading.readOpening text = some (after, rest)) : rest.length ≤ text.length := by
  have hs := reading.mode.length_skip_le text
  unfold readOpening at h
  split at h
  next ht =>
    have := length_lt_of_readName h
    simp only [ht, List.length_cons] at hs
    omega
  next ht =>
    have := length_lt_of_readName h
    simp only [ht, List.length_cons] at hs
    omega
  next ht =>
    have := length_lt_of_readFlags h
    simp only [ht, List.length_cons] at hs
    omega
  next =>
    obtain ⟨_, rfl⟩ := Prod.mk.inj (Option.some.inj h)
    exact hs

/-- Read on, at a character that was not skipped. -/
def step (reading : Reading) : List Char → Option (Reading × List Char)
  | [] => none
  | c :: rest =>
    if c == '(' then reading.readOpening rest
    else if c == ')' then reading.leave?.map (·, rest)
    else if c == '|' then some ({ reading with group := reading.group.branch }, rest)
    else if c == '[' then
      (readClass reading.mode rest).map fun (part, rest) => (reading.add part, rest)
    else if ['?', '*', '+'].contains c then
      reading.group.repeatLast?.map fun group =>
        ({ reading with group }, if rest.head? == some '?' then rest.tail else rest)
    else if c == '\x7b' then none
    else if c == '\\' then
      match readEscape reading.mode rest with
      | none => none
      | some (escape, rest) => (reading.addEscape? escape).map (·, rest)
    else if c == '.' then
      if reading.mode.isUnicode then some (reading.add {}, rest) else none
    else if c == '^' || c == '$' || reading.mode.admits c false then some (reading.add {}, rest)
    else none

/-- A step makes a text shorter. -/
theorem length_lt_of_step {reading after : Reading} {text rest : List Char}
    (h : reading.step text = some (after, rest)) : rest.length < text.length := by
  cases text with
  | nil => simp [step] at h
  | cons c tail =>
    simp only [step] at h
    rw [List.length_cons]
    split at h
    · exact Nat.lt_succ_of_le (length_le_of_readOpening h)
    split at h
    · obtain ⟨_, _, he⟩ := Option.map_eq_some_iff.1 h
      obtain ⟨_, rfl⟩ := Prod.mk.inj he
      exact Nat.lt_succ_self _
    split at h
    · obtain ⟨_, rfl⟩ := Prod.mk.inj (Option.some.inj h)
      exact Nat.lt_succ_self _
    split at h
    · obtain ⟨⟨part, left⟩, hc, he⟩ := Option.map_eq_some_iff.1 h
      obtain ⟨_, rfl⟩ := Prod.mk.inj he
      exact Nat.lt_succ_of_lt (length_lt_of_readClass hc)
    split at h
    · obtain ⟨_, _, he⟩ := Option.map_eq_some_iff.1 h
      obtain ⟨_, rfl⟩ := Prod.mk.inj he
      split
      · rw [List.length_tail]
        omega
      · exact Nat.lt_succ_self _
    split at h
    · contradiction
    split at h
    · split at h
      next => contradiction
      next hr =>
        obtain ⟨_, _, he⟩ := Option.map_eq_some_iff.1 h
        obtain ⟨_, rfl⟩ := Prod.mk.inj he
        exact Nat.lt_succ_of_lt (length_lt_of_readEscape hr)
    split at h
    · split at h
      · obtain ⟨_, rfl⟩ := Prod.mk.inj (Option.some.inj h)
        exact Nat.lt_succ_self _
      · contradiction
    split at h
    · obtain ⟨_, rfl⟩ := Prod.mk.inj (Option.some.inj h)
      exact Nat.lt_succ_self _
    · contradiction

/-- Read a pattern to its end. Every group has to be closed by then. -/
def toEnd (reading : Reading) (text : List Char) : Option Part :=
  if reading.mode.skip text = [] then
    if reading.outside.isEmpty then some reading.group.part else none
  else
    match h : reading.step (reading.mode.skip text) with
    | none => none
    | some (after, rest) =>
      have : rest.length < text.length :=
        Nat.lt_of_lt_of_le (length_lt_of_step h) (reading.mode.length_skip_le text)
      toEnd after rest
termination_by text.length

end Reading

end BlockIntake.Pattern
