import BlockIntake.Bytes
import BlockIntake.Log.Event

/-!
# Environment variables

Settings are read from named variables whose values are byte strings. A value counts only if it is
valid UTF-8; otherwise the variable counts as not set. Reading a setting can warn about a value
that cannot be used, so settings are read together with log events.
-/

namespace BlockIntake

/-- The variables that are set. -/
structure Environment where
  /-- Names and values. -/
  entries : List (String × Bytes)

/-- The text of a variable, if it is set and is valid UTF-8. -/
def Environment.text? (environment : Environment) (name : String) : Option String := do
  let value ← environment.entries.lookup name
  String.fromUTF8? ⟨value.toArray⟩

/-- A value read with the log events of the reading. -/
structure Logged (α : Type) where
  /-- The value. -/
  value : α
  /-- The events, in order. -/
  events : List LogEvent := []

namespace Logged

instance : Monad Logged where
  pure value := ⟨value, []⟩
  bind logged f :=
    let next := f logged.value
    ⟨next.value, logged.events ++ next.events⟩

end Logged

end BlockIntake
