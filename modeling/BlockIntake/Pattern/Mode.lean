import BlockIntake.Text.Blank

/-!
# How a pattern is read

The groups of a pattern switch flags on and off: whether letters count in any case, whether
characters are meant or bytes, and whether blanks and comments are left out. Patterns are kept
without tables of the characters of the world, so what would take such a table is refused: a class
of letters, digits or blanks unless only ASCII is meant, and letters of any case unless only ASCII
is meant. Where bytes are meant, whatever matches a byte beyond ASCII is refused, since it could
stand inside a character.
-/

namespace BlockIntake.Pattern

/-- The flags under which a part of a pattern is read. -/
structure Mode where
  /-- Whether letters count in any case. -/
  ignoresCase : Bool := false
  /-- Whether characters are meant, not bytes. -/
  isUnicode : Bool := true
  /-- Whether blanks and comments are left out. -/
  isSpaced : Bool := false
deriving DecidableEq

/-- A text without the blanks at its start, and without the comments there, which go from a number
sign to the end of the line. -/
def skipBlanks : (inComment : Bool) → List Char → List Char
  | _, [] => []
  | true, c :: rest => skipBlanks (c != '\n') rest
  | false, c :: rest =>
    if Text.isBlank c then skipBlanks false rest
    else if c == '#' then skipBlanks true rest
    else c :: rest

/-- Skipping blanks makes no text longer. -/
theorem length_skipBlanks_le (inComment : Bool) (text : List Char) :
    (skipBlanks inComment text).length ≤ text.length := by
  fun_induction skipBlanks inComment text with
  | case1 => simp
  | case2 c rest ih => simp only [List.length_cons]; omega
  | case3 c rest _ ih => simp only [List.length_cons]; omega
  | case4 c rest _ _ ih => simp only [List.length_cons]; omega
  | case5 => simp

namespace Mode

/-- The text from where reading goes on. -/
def skip (mode : Mode) (text : List Char) : List Char :=
  if mode.isSpaced then skipBlanks false text else text

/-- Skipping makes no text longer. -/
theorem length_skip_le (mode : Mode) (text : List Char) :
    (mode.skip text).length ≤ text.length := by
  unfold skip
  split
  · exact length_skipBlanks_le false text
  · exact Nat.le_refl _

/-- The character after a hyphen in a class, found past blanks and at most one number sign. -/
def peek (mode : Mode) (text : List Char) : Option Char :=
  if mode.isSpaced then
    match text.dropWhile Text.isBlank with
    | '#' :: rest => (rest.dropWhile Text.isBlank).head?
    | rest => rest.head?
  else text.head?

/-- Whether a character may stand for itself. The value of a byte may be given by its digits. -/
def admits (mode : Mode) (c : Char) (isByte : Bool) : Bool :=
  if mode.isUnicode then !mode.ignoresCase else !isByte || c.toNat < 0x80

/-- Whether a character may be a member of a class. -/
def admitsMember (mode : Mode) (c : Char) : Bool :=
  if mode.isUnicode then !mode.ignoresCase else c.toNat < 0x80

/-- Whether a class of ASCII with a name may be used. -/
def admitsNamed (mode : Mode) (isNegated : Bool) : Bool :=
  if mode.isUnicode then !mode.ignoresCase else !isNegated

/-- Whether a class of digits, blanks or letters may be used. -/
def admitsShorthand (mode : Mode) (isNegated : Bool) : Bool := !mode.isUnicode && !isNegated

/-- Every flag there is, and the hyphen, after which flags are switched off. -/
def flagLetters : List Char := ['i', 'm', 's', 'U', 'u', 'R', 'x', '-']

/-- Whether a flag is on after a list of flags. -/
def switched (flags : List Char) (flag : Char) (before : Bool) : Bool :=
  if (flags.takeWhile (· ≠ '-')).contains flag then true
  else if flags.contains flag then false
  else before

/-- The mode after a list of flags. Every flag is given at most once, and the hyphen is not last. -/
def switch? (mode : Mode) (flags : List Char) : Option Mode :=
  if flags.all flagLetters.contains && flags.eraseDups.length == flags.length &&
      flags.getLast? != some '-' then
    some {
      ignoresCase := switched flags 'i' mode.ignoresCase
      isUnicode := switched flags 'u' mode.isUnicode
      isSpaced := switched flags 'x' mode.isSpaced }
  else none

end Mode

end BlockIntake.Pattern
