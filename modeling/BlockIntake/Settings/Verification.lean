import BlockIntake.Settings.Environment
import BlockIntake.Text.Blank
import BlockIntake.Text.Unsigned
import BlockIntake.Verification.Error

/-!
# Settings of the verification

Which service runs, where sessions process their batches, which tree they use, how many hashes are
combined at a time and how many batches may wait. A setting that cannot be read is replaced by its
default with a warning; settings that can be read may still be refused.
-/

namespace BlockIntake

/-- The service that runs. -/
inductive ServiceType where
  /-- Verifies blocks. -/
  | production
  /-- Accepts and drops every item. -/
  | noOp
deriving DecidableEq

/-- Where a session processes its batches. -/
inductive SessionType where
  /-- When they are appended. -/
  | sync
  /-- In a task. -/
  | async
deriving DecidableEq

/-- The tree a session uses. -/
inductive HasherStrategy where
  /-- The tree that keeps its leaves. -/
  | naive
  /-- The tree that combines while leaves arrive. -/
  | concurrent
deriving DecidableEq

/-- Why settings are refused. -/
inductive SettingError where
  /-- The number of hashes combined at a time is zero or odd. -/
  | batchSize (size : Nat)
  /-- No batch may wait. -/
  | zeroQueueCapacity
  /-- A text names no option. -/
  | unknownValue (field value : String)
deriving DecidableEq

/-- The wording of a refusal. -/
def SettingError.message : SettingError → String
  | .batchSize size => s!"Hash combine batch size must be positive and even, got {size}"
  | .zeroQueueCapacity => "Session queue capacity must be positive"
  | .unknownValue field value => s!"Unknown {field} value: {value}"

/-- A refused setting as a failure of the verification. -/
def VerificationError.ofSetting (error : SettingError) : VerificationError :=
  .invalidInput error.message

/-- An option in capital letters and without blanks at its ends. -/
def normalizeOption (text : String) : String :=
  String.ofList ((Text.trim text.toList).map Char.toUpper)

namespace ServiceType

/-- The name of a service type. -/
def name : ServiceType → String
  | production => "Production"
  | noOp => "NoOp"

/-- Read a service type. -/
def parse (text : String) : Except SettingError ServiceType :=
  match normalizeOption text with
  | "PRODUCTION" => .ok production
  | "NO_OP" | "NOOP" => .ok noOp
  | _ => .error (.unknownValue "service type" text)

end ServiceType

namespace SessionType

/-- The name of a session type. -/
def name : SessionType → String
  | sync => "Sync"
  | async => "Async"

/-- Read a session type. -/
def parse (text : String) : Except SettingError SessionType :=
  match normalizeOption text with
  | "SYNC" => .ok sync
  | "ASYNC" => .ok async
  | _ => .error (.unknownValue "session type" text)

end SessionType

namespace HasherStrategy

/-- The name of a strategy. -/
def name : HasherStrategy → String
  | naive => "Naive"
  | concurrent => "Concurrent"

/-- Read a strategy. -/
def parse (text : String) : Except SettingError HasherStrategy :=
  match normalizeOption text with
  | "NAIVE" => .ok naive
  | "CONCURRENT" => .ok concurrent
  | _ => .error (.unknownValue "hasher" text)

end HasherStrategy

/-- The number of batches that may wait when none is configured. -/
def defaultQueueCapacity : Nat := 1024

/-- Settings of the verification. -/
structure VerificationSettings where
  /-- The service that runs. -/
  serviceType : ServiceType := .production
  /-- Where sessions process their batches. -/
  sessionType : SessionType := .async
  /-- The tree of the sessions. -/
  hasher : HasherStrategy := .concurrent
  /-- The number of hashes combined at a time. -/
  batchSize : Nat := 32
  /-- The number of batches that may wait. -/
  queueCapacity : Nat := defaultQueueCapacity
deriving DecidableEq

/-- A setting was replaced by its default. -/
def LogEvent.settingIgnored (name value error fallback : String) : LogEvent where
  level := .warn
  target := "bs_02_block_verification::config"
  message := "[bs-02] Ignoring invalid configuration value"
  fields := [("variable", .quoted name), ("value", .plain value), ("error", .plain error),
    ("fallback", .plain fallback)]

/-- Read a variable, or take the default if it is not set, or, with a warning, if it cannot be
read. -/
def Environment.readOr {α ε : Type} (environment : Environment) (name : String) (default : α)
    (parse : String → Except ε α) (message : ε → String) (render : α → String) : Logged α :=
  match environment.text? name with
  | none => pure default
  | some raw =>
    match parse raw with
    | .ok value => pure value
    | .error error => ⟨default, [.settingIgnored name raw (message error) (render default)]⟩

namespace VerificationSettings

/-- Settings of the sequential path: everything happens when a batch is appended, on trees that
keep their leaves. -/
def sequential : VerificationSettings :=
  { sessionType := .sync, hasher := .naive, batchSize := Merkle.defaultBatchSize }

/-- Refuse settings no session could work with. -/
def validate (settings : VerificationSettings) : Except SettingError Unit := do
  if settings.batchSize = 0 ∨ settings.batchSize % 2 ≠ 0 then throw (.batchSize settings.batchSize)
  if settings.queueCapacity = 0 then throw .zeroQueueCapacity

/-- The settings in the environment. -/
def ofEnvironment (environment : Environment) : Logged VerificationSettings := do
  let defaults : VerificationSettings := {}
  let serviceType ← environment.readOr "BS_VERIFICATION_TYPE" defaults.serviceType
    ServiceType.parse SettingError.message ServiceType.name
  let sessionType ← environment.readOr "BS_VERIFICATION_SESSION_TYPE" defaults.sessionType
    SessionType.parse SettingError.message SessionType.name
  let hasher ← environment.readOr "BS_VERIFICATION_HASHER" defaults.hasher
    HasherStrategy.parse SettingError.message HasherStrategy.name
  let batchSize ← environment.readOr "BS_VERIFICATION_HASH_COMBINE_BATCH_SIZE" defaults.batchSize
    Text.readUnsigned Text.NumeralError.message toString
  let queueCapacity ← environment.readOr "BS_VERIFICATION_SESSION_QUEUE_CAPACITY"
    defaults.queueCapacity Text.readUnsigned Text.NumeralError.message toString
  return { serviceType, sessionType, hasher, batchSize, queueCapacity }

end VerificationSettings

end BlockIntake
