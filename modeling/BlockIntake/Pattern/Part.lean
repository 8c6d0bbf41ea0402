/-!
# Parts of a pattern

What is read is kept only as far as it decides whether a pattern can be used: how deeply its parts
are nested, and whether any of them looks for the boundary of a word.
-/

namespace BlockIntake.Pattern

/-- What a part of a pattern comes to. -/
structure Part where
  /-- How deeply its own parts are nested. -/
  depth : Nat := 0
  /-- Whether it looks for the boundary of a word of any alphabet. -/
  seeksBoundary : Bool := false
  /-- Whether it only switches flags, so that it cannot be repeated. -/
  isSwitch : Bool := false
deriving DecidableEq

namespace Part

/-- A part with another one inside it. -/
def within (part : Part) : Part where
  depth := part.depth + 1
  seeksBoundary := part.seeksBoundary

/-- A part made of others. -/
def gather (parts : List Part) : Part where
  depth := parts.foldl (fun depth part => max depth part.depth) 0 + 1
  seeksBoundary := parts.any Part.seeksBoundary

/-- Parts one after the other, or to choose from. A single part is taken as it is. -/
def join : List Part → Part
  | [] => {}
  | [part] => part
  | parts => gather parts

end Part

end BlockIntake.Pattern
