import BlockIntake.Log.Output
import BlockIntake.Node.Demo

/-!
# Launching a node

A launch reads the settings from the environment, opens the log, makes a node, and streams the demo
through it. Warnings about settings come before the log is open and are not written. A launch
fails if the log cannot be opened, the settings are refused or the demo fails; the failure is
reported with its causes, and the exit code tells the outcomes apart.
-/

namespace BlockIntake

/-- The target of the log events of a launch. -/
def launchTarget : String := "node_runtime"

/-- A line that greets the reader of the log. -/
def LogEvent.greeting (message : String) : LogEvent := ⟨.info, launchTarget, message, []⟩

/-- The lines that greet the reader of the log. -/
def banner : List LogEvent :=
  let bar := "==========================================="
  [.greeting bar, .greeting "  Block Stream Node v0.1.0", .greeting bar]

/-- The demo came to its end. -/
def LogEvent.demoFinished (report : DemoReport) (elapsed : Nat) : LogEvent where
  level := .info
  target := launchTarget
  message := "Demo stream finished"
  fields := [("blocks", .number report.blocks), ("items", .number report.items),
    ("acknowledged", .number report.acknowledged), ("failed", .number report.failed),
    ("elapsed_ms", .number elapsed)]

/-- Why a launch fails. -/
inductive LaunchError where
  /-- The log cannot be opened. -/
  | log (error : LogError)
  /-- The node or its demo fails. -/
  | node (error : NodeError)

/-- The wording of an error: what was being done, then what went wrong, from the outside in. -/
def LaunchError.chain : LaunchError → List String
  | .log error => ["Failed to initialize logging", error.message]
  | .node error => error.chain

/-- A launch that has come to its end. -/
structure Launch where
  /-- The log, if it could be opened. -/
  output : Option LogOutput
  /-- The events up to the end of the demo. -/
  events : List LogEvent
  /-- What the demo reports, or why there was none. -/
  outcome : Except (Fault LaunchError) DemoReport

namespace Launch

/-- Launch a node in an environment. -/
def run (environment : Environment) (source : ThreadSource := {}) : Launch :=
  let settings := (NodeSettings.ofEnvironment environment).value
  match LogOutput.ofSettings settings.telemetry false with
  | .error fault => ⟨none, [], .error (fault.mapCause .log)⟩
  | .ok output =>
    let opening := LogEvent.logOpened settings.telemetry :: banner
    match Node.new settings true source with
    | .error fault => ⟨some output, opening, .error (fault.mapCause .node)⟩
    | .ok node =>
      match Demo.run node.startLogger with
      | .error fault => ⟨some output, opening ++ node.events, .error (fault.mapCause .node)⟩
      | .ok (report, node) => ⟨some output, opening ++ node.events, .ok report⟩

/-- The events that are written, the end of the demo with them, which tells how many milliseconds
the demo took. -/
def written (launch : Launch) (elapsed : Nat) : List LogEvent :=
  match launch.output with
  | none => []
  | some output =>
    let finish := match launch.outcome with
      | .ok report => [LogEvent.demoFinished report elapsed]
      | .error _ => []
    output.admitted (launch.events ++ finish)

/-- The lines of events. -/
def lines (launch : Launch) (stamp : LogStamp) (events : List LogEvent) : List String :=
  match launch.output with
  | none => []
  | some output => events.map (output.line stamp)

/-- The exit code: zero for success, one for a failure, and a code of its own for a crash. -/
def exitCode (launch : Launch) : UInt32 :=
  match launch.outcome with
  | .ok _ => 0
  | .error (.refused _) => 1
  | .error (.crashed _) => 101

/-- A text with its lines after the first indented. -/
def hang (indent text : String) : String :=
  String.ofList (text.toList.flatMap fun c => if c = '\n' then c :: indent.toList else [c])

/-- A number as it stands before a cause, aligned to the right. -/
def causeNumber (n : Nat) : String :=
  let digits := toString n
  String.ofList (List.replicate (5 - digits.length) ' ') ++ digits ++ ": "

/-- The report of a failure: what was being done, and then the causes, numbered if there are
several. -/
def failureReport : List String → String
  | [] => ""
  | [head] => "Error: " ++ head ++ "\n"
  | [head, cause] => "Error: " ++ head ++ "\n\nCaused by:\n    " ++ hang "    " cause ++ "\n"
  | head :: causes =>
    let numbered := causes.zipIdx.map fun (cause, n) => causeNumber n ++ hang "       " cause ++ "\n"
    "Error: " ++ head ++ "\n\nCaused by:\n" ++ String.join numbered

/-- What is reported when the launch has failed. -/
def report (launch : Launch) : String :=
  match launch.outcome with
  | .ok _ => ""
  | .error (.refused error) => failureReport error.chain
  | .error (.crashed crash) => crash.report ++ "\n"

/-- The exit code is zero exactly when the demo came to its end. -/
theorem exitCode_eq_zero_iff (launch : Launch) :
    launch.exitCode = 0 ↔ ∃ report, launch.outcome = .ok report := by
  unfold exitCode
  cases h : launch.outcome with
  | ok report => simp
  | error fault => cases fault <;> simp

end Launch

end BlockIntake
