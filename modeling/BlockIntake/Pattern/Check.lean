import BlockIntake.Pattern.Group

/-!
# Whether a pattern can be used

A pattern can be used if it is well formed, is not nested too deeply, and looks for no boundary of a
word of any alphabet, which the automata of patterns cannot find.
-/

namespace BlockIntake

/-- Why a pattern cannot be used. -/
inductive PatternError where
  /-- It is not well formed, nested too deeply, or in need of tables that are not kept. -/
  | malformed
  /-- It looks for the boundary of a word of any alphabet. -/
  | unicodeBoundary
deriving DecidableEq

/-- The wording of an error. -/
def PatternError.message : PatternError → String
  | .malformed => "error building NFA"
  | .unicodeBoundary =>
    "unsupported regex feature for DFAs: cannot build DFAs for regexes with Unicode word " ++
      "boundaries; switch to ASCII word boundaries, or heuristically enable Unicode word " ++
      "boundaries or use a different regex engine"

namespace Pattern

/-- How deeply the parts of a pattern may be nested. -/
def deepestNesting : Nat := 250

/-- What a pattern comes to, if it is well formed. -/
def read? (text : List Char) : Option Part := Reading.toEnd {} text

/-- Refuse a pattern that cannot be used. -/
def check (text : List Char) : Except PatternError Unit :=
  match read? text with
  | none => .error .malformed
  | some part =>
    if deepestNesting < part.depth then .error .malformed
    else if part.seeksBoundary then .error .unicodeBoundary
    else .ok ()

/-- A pattern can be used exactly when it is well formed, not nested too deeply, and looks for no
boundary of a word of any alphabet. -/
theorem check_eq_ok_iff (text : List Char) :
    check text = .ok () ↔
      ∃ part, read? text = some part ∧ part.depth ≤ deepestNesting ∧
        part.seeksBoundary = false := by
  unfold check
  cases h : read? text with
  | none => simp
  | some part => grind

end Pattern

end BlockIntake
