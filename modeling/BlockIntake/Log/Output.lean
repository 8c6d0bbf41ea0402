import BlockIntake.Log.Filter
import BlockIntake.Log.Line
import BlockIntake.Settings.Telemetry

/-!
# The output of the log

The log is opened once, with a filter and a form for its lines. A text that is no filter is
refused before it matters whether the log is open already.
-/

namespace BlockIntake

/-- Why the log cannot be opened. -/
inductive LogError where
  /-- The text of the filter is no filter. -/
  | invalidFilter (text : String) (reason : FilterError)
  /-- The log is open already. -/
  | alreadyOpen
deriving DecidableEq

/-- The wording of an error. -/
def LogError.message : LogError → String
  | .invalidFilter text reason =>
    let wording := reason.message
    s!"Invalid log filter '{text}': {wording}"
  | .alreadyOpen =>
    "Failed to install the global subscriber: a global default trace dispatcher has already been set"

/-- An open log. -/
structure LogOutput where
  /-- What events are written. -/
  filter : Filter
  /-- Whether a line is a JSON object. -/
  asJson : Bool

/-- The log was opened. -/
def LogEvent.logOpened (settings : TelemetrySettings) : LogEvent where
  level := .info
  target := "bs_telemetry::logging"
  message := "Logging initialized"
  fields := [("service", .plain settings.serviceName), ("json_logs", .flag settings.jsonLogs)]

namespace LogOutput

/-- Open the log, unless it is open. -/
def ofSettings (settings : TelemetrySettings) (isOpen : Bool) :
    Except (Fault LogError) LogOutput := do
  let filter ← (Filter.read settings.logLevel).mapError
    (Fault.mapCause (LogError.invalidFilter settings.logLevel))
  if isOpen then throw (.refused .alreadyOpen)
  return ⟨filter, settings.jsonLogs⟩

/-- The line of an event. -/
def line (output : LogOutput) (stamp : LogStamp) (event : LogEvent) : String :=
  if output.asJson then event.json stamp else event.line stamp

/-- The events that are written. -/
def admitted (output : LogOutput) (events : List LogEvent) : List LogEvent :=
  events.filter output.filter.admits

end LogOutput

end BlockIntake
