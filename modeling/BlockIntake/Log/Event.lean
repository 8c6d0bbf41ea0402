/-!
# Log events

An event has a level, a target that names the part of the program it comes from, a message, and
named fields. Values keep their kind until they are printed, since a line of text and a structured
record print them differently.
-/

namespace BlockIntake

/-- How important an event is. -/
inductive LogLevel where
  /-- Something failed. -/
  | error
  /-- Something unexpected happened. -/
  | warn
  /-- Something worth knowing happened. -/
  | info
  /-- Detail for finding faults. -/
  | debug
  /-- Every step. -/
  | trace
deriving DecidableEq

namespace LogLevel

/-- The rank of a level: the higher, the more events there are of it. -/
def verbosity : LogLevel → Nat
  | error => 1
  | warn => 2
  | info => 3
  | debug => 4
  | trace => 5

/-- The name of a level in a log line. -/
def name : LogLevel → String
  | error => "ERROR"
  | warn => "WARN"
  | info => "INFO"
  | debug => "DEBUG"
  | trace => "TRACE"

end LogLevel

/-- The value of a field. -/
inductive LogValue where
  /-- A text printed as it is. -/
  | plain (text : String)
  /-- A text printed in quotes where lines are for people. -/
  | quoted (text : String)
  /-- A number. -/
  | number (n : Nat)
  /-- A truth value. -/
  | flag (b : Bool)
deriving DecidableEq

/-- The text of a value. -/
def LogValue.text : LogValue → String
  | .plain text => text
  | .quoted text => text
  | .number n => toString n
  | .flag b => if b then "true" else "false"

/-- Something a program reports. -/
structure LogEvent where
  /-- How important it is. -/
  level : LogLevel
  /-- Where it comes from. -/
  target : String
  /-- What happened. -/
  message : String
  /-- Named values, in order. -/
  fields : List (String × LogValue) := []
deriving DecidableEq

end BlockIntake
