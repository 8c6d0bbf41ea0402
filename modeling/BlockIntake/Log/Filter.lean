import BlockIntake.Log.Event
import BlockIntake.Pattern.Check
import BlockIntake.Text.Offset
import BlockIntake.Text.Real

/-!
# Filters of the log

A filter is a list of directives. A directive lets events through up to a level; it applies to
events whose target begins with its own target and which carry its field. Of the directives that
apply to an event the most specific one decides. A directive about a span applies to what happens
inside that span, and one about the value of a field to the span that carries the field, so neither
decides about an event outside all spans.

A directive is written `target[span{field=value}]=level`, where every part may be missing, and a
filter is written as directives with commas between them. A directive is scanned without the blanks
around it, but its parts are cut out of the text that has them, at the offsets found. A value is a
truth value, a number, or else a pattern, which has to be one that can be used.
-/

namespace BlockIntake

/-- How far events are let through: up to a level, or not at all. -/
abbrev Threshold := Option LogLevel

/-- Whether a threshold lets a level through. -/
def Threshold.admits (threshold : Threshold) (level : LogLevel) : Bool :=
  match threshold with
  | none => false
  | some most => level.verbosity ≤ most.verbosity

/-- What the value of a field is asked for. -/
inductive ValueTest where
  /-- It is this truth value. -/
  | truth (b : Bool)
  /-- It is the number this numeral stands for. -/
  | number (numeral : String)
  /-- Its text fits this pattern. -/
  | pattern (text : String)
deriving DecidableEq

/-- A field a directive asks for. -/
structure FieldTest where
  /-- The name of the field. -/
  name : String
  /-- What its value has to be, if that matters. -/
  value : Option ValueTest
deriving DecidableEq

/-- A rule about the events that are let through. -/
structure Directive where
  /-- How far events are let through. -/
  threshold : Threshold := some .trace
  /-- What the target of an event begins with. -/
  target : Option String := none
  /-- The span an event lies in. -/
  span : Option String := none
  /-- The field it carries. -/
  field : Option FieldTest := none
deriving DecidableEq

/-- Why a text is no filter. -/
inductive FilterError where
  /-- A directive is not well formed. -/
  | malformed
  /-- The value of a field is no pattern that can be used. -/
  | unusablePattern (error : PatternError)
  /-- A level has no such name. -/
  | unknownLevel
deriving DecidableEq

/-- The wording of an error. -/
def FilterError.message : FilterError → String
  | .malformed => "invalid filter directive"
  | .unusablePattern error => "invalid field filter: " ++ error.message
  | .unknownLevel =>
    "error parsing level filter: expected one of \"off\", \"error\", \"warn\", \"info\", " ++
      "\"debug\", \"trace\", or a number 0-5"

namespace Threshold

/-- The thresholds by number. -/
def all : List Threshold :=
  [none, some .error, some .warn, some .info, some .debug, some .trace]

/-- The name of a threshold. -/
def name : Threshold → String
  | none => "off"
  | some .error => "error"
  | some .warn => "warn"
  | some .info => "info"
  | some .debug => "debug"
  | some .trace => "trace"

/-- Read a threshold: its number, or its name in any case of ASCII. -/
def read? (text : List Char) : Option Threshold :=
  match Text.readUnsignedBelow UInt64.size text with
  | .ok n => all[n]?
  | .error _ => all.find? fun threshold => threshold.name.toList == text.map Char.toLower

/-- Every threshold is read back from its name. -/
theorem read?_name (threshold : Threshold) : read? threshold.name.toList = some threshold := by
  rcases threshold with _ | level
  · decide
  · cases level <;> decide

/-- Read the level of a directive. Without a text everything is let through. -/
def ofLevel (text : List Char) : Except FilterError Threshold :=
  if text = [] then .ok (some .trace)
  else
    match read? text with
    | some threshold => .ok threshold
    | none => .error .unknownLevel

end Threshold

/-- Read the value a field is asked for. -/
def ValueTest.ofText (text : List Char) : Except FilterError ValueTest :=
  let written := String.ofList text
  if written = "true" then .ok (.truth true)
  else if written = "false" then .ok (.truth false)
  else if Text.isReal text then .ok (.number written)
  else
    match Pattern.check text with
    | .ok () => .ok (.pattern written)
    | .error error => .error (.unusablePattern error)

/-- Read a field: a name, and after an equals sign, up to the next one, a value. -/
def FieldTest.ofText (text : List Char) : Except FilterError FieldTest :=
  let name := String.ofList (text.takeWhile (· ≠ '='))
  match text.dropWhile (· ≠ '=') with
  | [] => .ok ⟨name, none⟩
  | _ :: value => (ValueTest.ofText (value.takeWhile (· ≠ '='))).map fun value => ⟨name, some value⟩

namespace Directive

/-- Whether a directive can begin with a character, apart from a span. -/
def canBegin (c : Char) : Bool := c == '-' || c == ':' || c == '_' || Text.isAlphanumeric c

/-- What a scan has found: a directive, or why there is none. -/
abbrev Scan := Except (Fault FilterError)

/-- Refuse a directive. -/
def refuse {α : Type} (error : FilterError) : Scan α := .error (.refused error)

/-- Skip characters up to one of two marks, and past it. The answer has the offset of the mark, the
mark, and what comes after it. -/
def seek (marks : List Char) (ahead : List (Nat × Char)) :
    Option (Nat × Char × List (Nat × Char)) :=
  match ahead.dropWhile fun (_, c) => !marks.contains c with
  | [] => none
  | (offset, mark) :: rest => some (offset, mark, rest)

/-- Read a level that begins at an offset of a text. -/
def readLevel (text : List Char) (start : Nat) (directive : Directive) : Scan Directive := do
  let level ← orCrash (Text.cutFrom start text)
  return { directive with threshold := ← orRefuse (Threshold.ofLevel level) }

/-- Read what comes after a span: a level, or nothing. -/
def readAfterSpan (text : List Char) (ahead : List (Nat × Char)) (directive : Directive) :
    Scan Directive :=
  match ahead with
  | [] => .ok directive
  | (offset, '=') :: _ => readLevel text (offset + 1) directive
  | _ :: _ => refuse .malformed

/-- Read a field that begins at an offset of a text, the end of its span, and what follows. -/
def readField (text : List Char) (start : Nat) (ahead : List (Nat × Char))
    (directive : Directive) : Scan Directive := do
  match seek ['\x7d'] ahead with
  | none => refuse .malformed
  | some (stop, _, rest) =>
    let field ← orCrash (Text.cut start stop text)
    if field = [] then refuse .malformed
    let test ← orRefuse (FieldTest.ofText field)
    match rest with
    | (_, ']') :: rest => readAfterSpan text rest { directive with field := some test }
    | _ => refuse .malformed

/-- Read a span whose name begins at an offset of a text, and what follows. A span with a field can
go without a name. -/
def readSpan (text : List Char) (start : Nat) (ahead : List (Nat × Char)) (directive : Directive) :
    Scan Directive := do
  match seek [']', '\x7b'] ahead with
  | none => refuse .malformed
  | some (stop, mark, rest) =>
    let name ← orCrash (Text.cut start stop text)
    let named := { directive with span := some (String.ofList name) }
    if mark = ']' then readAfterSpan text rest named
    else readField text (stop + 1) rest (if name = [] then directive else named)

/-- Read a directive that begins with a target. Without a level the whole text is a level if it is
the name of one, and otherwise a target of which everything is let through. -/
def readTarget (text : List Char) (ahead : List (Nat × Char)) : Scan Directive := do
  match seek ['=', '['] ahead with
  | none =>
    match Threshold.read? text with
    | some threshold => return { threshold }
    | none => return { target := some (String.ofList text) }
  | some (stop, mark, rest) =>
    let target ← orCrash (Text.cut 0 stop text)
    let directive : Directive := { target := some (String.ofList target) }
    if mark = '=' then readLevel text (stop + 1) directive
    else readSpan text (stop + 1) rest directive

/-- Read a directive. -/
def read (text : List Char) : Scan Directive :=
  match Text.withOffsets 0 (Text.trim text) with
  | [] => refuse .malformed
  | (_, '[') :: rest => readSpan text 1 rest {}
  | (_, c) :: rest => if canBegin c then readTarget text rest else refuse .malformed

/-- Whether a directive decides about events outside all spans. -/
def concernsEvents (directive : Directive) : Bool :=
  directive.span.isNone &&
    match directive.field with
    | none => true
    | some test => test.value.isNone

/-- Whether a directive applies to an event. Its message counts as one of its fields. -/
def appliesTo (directive : Directive) (event : LogEvent) : Bool :=
  directive.concernsEvents &&
    (match directive.target with
      | none => true
      | some target => target.toList.isPrefixOf event.target.toList) &&
    match directive.field with
    | none => true
    | some test => ("message" :: event.fields.map Prod.fst).contains test.name

/-- The size of a target; no target is smaller than any other. -/
def targetSize (directive : Directive) : Nat :=
  match directive.target with
  | none => 0
  | some target => target.utf8ByteSize + 1

/-- Whether a directive is at least as specific as another: it has the longer target, or one as long
and a field that is not before the other one's. No field is before every field. -/
def atLeastAsSpecific (directive other : Directive) : Bool :=
  other.targetSize < directive.targetSize ||
    directive.targetSize == other.targetSize &&
      match directive.field, other.field with
      | _, none => true
      | none, some _ => false
      | some test, some otherTest => otherTest.name ≤ test.name

end Directive

/-- What events are let through. -/
structure Filter where
  /-- The rules, in the order in which they were given. -/
  directives : List Directive

namespace Filter

/-- Read a filter. Empty directives are left out, so an empty text is a filter without any. -/
def read (text : String) : Directive.Scan Filter := do
  let parts := (text.toList.splitOn ',').filter (· ≠ [])
  return ⟨← parts.mapM Directive.read⟩

/-- The directive that decides about an event: of the most specific ones that apply, the last. -/
def deciding (filter : Filter) (event : LogEvent) : Option Directive :=
  (filter.directives.filter (·.appliesTo event)).foldl (fun best directive =>
    match best with
    | none => some directive
    | some other => if directive.atLeastAsSpecific other then some directive else some other) none

/-- Whether an event is let through. -/
def admits (filter : Filter) (event : LogEvent) : Bool :=
  match filter.deciding event with
  | none => false
  | some directive => directive.threshold.admits event.level

end Filter

end BlockIntake
