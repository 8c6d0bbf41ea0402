import BlockIntake.Settings.Telemetry
import BlockIntake.Settings.Verification

/-!
# Settings of a node

The settings of the verification and of the log, the shape of the demo stream, the number of
responses kept for slow subscribers, and the number of hashing threads.
-/

namespace BlockIntake

/-- The number of responses kept for subscribers when none is configured. -/
def defaultNotifierCapacity : Nat := 1024

/-- The shape of the demo stream. -/
structure DemoSettings where
  /-- Number of blocks. -/
  blocks : Nat := 10
  /-- Largest number of items in a batch. -/
  itemsPerBatch : Nat := 64
  /-- Number of events in a block. -/
  eventsPerBlock : Nat := 100
deriving DecidableEq

/-- Settings of a node. -/
structure NodeSettings where
  /-- Settings of the verification. -/
  verification : VerificationSettings := {}
  /-- Settings of the log. -/
  telemetry : TelemetrySettings := {}
  /-- The shape of the demo stream. -/
  demo : DemoSettings := {}
  /-- The number of responses kept for subscribers. -/
  notifierCapacity : Nat := defaultNotifierCapacity
  /-- The number of threads of a pool of its own, or none for the shared pool. -/
  hashingThreads : Option Nat := none
deriving DecidableEq

/-- Why settings of a node are refused. -/
inductive NodeSettingError where
  /-- The settings of the verification are refused. -/
  | verification (error : SettingError)
  /-- A setting is zero that has to be positive. -/
  | zero (name : String)
deriving DecidableEq

/-- The wording of a refusal. -/
def NodeSettingError.message : NodeSettingError → String
  | .verification error =>
    let reason := error.message
    s!"Invalid verification configuration: {reason}"
  | .zero name => s!"{name} must be greater than zero"

/-- A number in the environment was ignored. -/
def LogEvent.numberIgnored (name value : String) : LogEvent where
  level := .warn
  target := "node_runtime::config"
  message := "Ignoring invalid configuration value"
  fields := [("variable", .quoted name), ("value", .plain value)]

/-- Read a variable as a number; a value that is no number is ignored with a warning. -/
def Environment.number? (environment : Environment) (name : String) : Logged (Option Nat) :=
  match environment.text? name with
  | none => pure none
  | some raw =>
    match Text.readUnsigned raw with
    | .ok n => pure (some n)
    | .error _ => ⟨none, [.numberIgnored name raw]⟩

namespace NodeSettings

/-- Refuse settings no node could work with. -/
def validate (settings : NodeSettings) : Except NodeSettingError Unit := do
  settings.verification.validate.mapError .verification
  if settings.demo.itemsPerBatch = 0 then throw (.zero "BS_DEMO_ITEMS_PER_BATCH")
  if settings.notifierCapacity = 0 then throw (.zero "BS_NOTIFIER_CAPACITY")
  if settings.hashingThreads = some 0 then throw (.zero "BS_HASHING_THREADS")

/-- The settings in the environment. -/
def ofEnvironment (environment : Environment) : Logged NodeSettings := do
  let verification ← VerificationSettings.ofEnvironment environment
  let telemetry := TelemetrySettings.ofEnvironment environment
  let defaults : NodeSettings := {}
  let blocks ← environment.number? "BS_DEMO_BLOCKS"
  let itemsPerBatch ← environment.number? "BS_DEMO_ITEMS_PER_BATCH"
  let eventsPerBlock ← environment.number? "BS_DEMO_EVENTS_PER_BLOCK"
  let notifierCapacity ← environment.number? "BS_NOTIFIER_CAPACITY"
  let hashingThreads ← environment.number? "BS_HASHING_THREADS"
  return {
    verification, telemetry, hashingThreads
    demo := {
      blocks := blocks.getD defaults.demo.blocks
      itemsPerBatch := itemsPerBatch.getD defaults.demo.itemsPerBatch
      eventsPerBlock := eventsPerBlock.getD defaults.demo.eventsPerBlock }
    notifierCapacity := notifierCapacity.getD defaults.notifierCapacity }

end NodeSettings

end BlockIntake
