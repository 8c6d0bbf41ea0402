import BlockIntake.Log.Event

/-!
# Log lines

An event is written as a line of text for people or as a JSON object for programs. Both carry the
time and the thread of the event. A line of text puts texts the program chose itself in quotes,
which need no escapes; an object has numbers and truth values as they are and escapes every text.
-/

namespace BlockIntake

/-- When and where an event happened. -/
structure LogStamp where
  /-- The time. -/
  time : String
  /-- The name of the thread. -/
  thread : String := "main"

/-- The value of a field in a line of text. -/
def LogValue.inLine : LogValue → String
  | .quoted text => "\"" ++ text ++ "\""
  | value => value.text

namespace LogEvent

/-- The name of a level, with blanks before it up to the width of the longest. -/
def paddedLevel (level : LogLevel) : String :=
  String.ofList (List.replicate (5 - level.name.length) ' ') ++ level.name

/-- The names of levels all have one width after padding. -/
theorem length_paddedLevel (level : LogLevel) : (paddedLevel level).length = 5 := by
  cases level <;> rfl

/-- What a line says after its stamp. -/
def content (event : LogEvent) : String :=
  String.join (event.target :: ": " :: event.message ::
    event.fields.map fun (name, value) => " " ++ name ++ "=" ++ value.inLine)

/-- An event as a line of text. -/
def line (event : LogEvent) (stamp : LogStamp) : String :=
  " ".intercalate [stamp.time, paddedLevel event.level, stamp.thread, event.content]

end LogEvent

/-! ## JSON -/

/-- The digit of a number below sixteen. -/
def hexDigitOf (n : Nat) : Char := "0123456789abcdef".toList.getD n '0'

/-- A character as it is written in a JSON text. -/
def jsonEscape (c : Char) : List Char :=
  match c with
  | '"' => ['\\', '"']
  | '\\' => ['\\', '\\']
  | '\n' => ['\\', 'n']
  | '\r' => ['\\', 'r']
  | '\t' => ['\\', 't']
  | '\x08' => ['\\', 'b']
  | '\x0c' => ['\\', 'f']
  | c =>
    if c.toNat < 0x20 then ['\\', 'u', '0', '0', hexDigitOf (c.toNat / 16), hexDigitOf (c.toNat % 16)]
    else [c]

/-- A JSON text. -/
def jsonText (text : String) : String :=
  String.ofList ('"' :: (text.toList.flatMap jsonEscape ++ ['"']))

/-- A JSON object of members already written. -/
def jsonObject (members : List (String × String)) : String :=
  "\x7b" ++ ",".intercalate (members.map fun (name, value) => jsonText name ++ ":" ++ value) ++ "\x7d"

/-- The value of a field in a JSON object. -/
def LogValue.json : LogValue → String
  | .plain text => jsonText text
  | .quoted text => jsonText text
  | value => value.text

/-- An event as a JSON object. -/
def LogEvent.json (event : LogEvent) (stamp : LogStamp) : String :=
  let fields := ("message", jsonText event.message) ::
    event.fields.map fun (name, value) => (name, value.json)
  jsonObject [("timestamp", jsonText stamp.time), ("level", jsonText event.level.name),
    ("fields", jsonObject fields), ("target", jsonText event.target),
    ("threadName", jsonText stamp.thread)]

end BlockIntake
