import BlockIntake.Settings.Environment

/-!
# Settings of the log

The name of the service, the filter of its log, and whether log lines are structured records. They
are records by default in a container.
-/

namespace BlockIntake

/-- Settings of the log. -/
structure TelemetrySettings where
  /-- The name of the service. -/
  serviceName : String := "block-stream-node"
  /-- The filter of the log. -/
  logLevel : String := "info"
  /-- Whether log lines are structured records. -/
  jsonLogs : Bool := false
deriving DecidableEq

namespace TelemetrySettings

/-- Whether a text switches something on: the word `true` in any case, or `1`. No character beyond
ASCII becomes a letter of that word when put in lower case. -/
def isOn (text : String) : Bool :=
  String.ofList (text.toList.map Char.toLower) == "true" || text == "1"

/-- The settings in the environment. -/
def ofEnvironment (environment : Environment) : TelemetrySettings :=
  let defaults : TelemetrySettings := {}
  let inContainer := (environment.text? "KUBERNETES_SERVICE_HOST").isSome ||
    (environment.text? "DOCKER_CONTAINER").isSome
  { serviceName := (environment.text? "BS_SERVICE_NAME").getD defaults.serviceName
    logLevel := ((environment.text? "BS_LOG_LEVEL").or (environment.text? "RUST_LOG")).getD
      defaults.logLevel
    jsonLogs := ((environment.text? "BS_JSON_LOGS").map isOn).getD inContainer }

end TelemetrySettings

end BlockIntake
