import BlockIntake.Broadcast
import BlockIntake.Node.Producer
import BlockIntake.Settings.Node
import BlockIntake.Verification.Service
import BlockIntake.Verification.Verifier

/-!
# A node that verifies a demo stream

The node wires a verification service to a pool of workers, a notifier and counters. The demo feeds
it the blocks of a synthetic producer, one after the other, counts their items in a 64-bit integer,
and waits for the response to each. On one thread the tasks of sessions, and the logger of
responses, run while the demo waits, and when it has received so many responses without waiting that
its turn is over; the logger also runs when the demo is over.
-/

namespace BlockIntake

open Merkle

/-- The target of the log events of the node. -/
def nodeTarget : String := "node_runtime::runtime"

/-- The service is ready. -/
def LogEvent.serviceReady (settings : VerificationSettings) : LogEvent where
  level := .info
  target := nodeTarget
  message := "Verification service ready"
  fields := [("service_type", .plain settings.serviceType.name),
    ("session_type", .plain settings.sessionType.name), ("hasher", .plain settings.hasher.name),
    ("batch_size", .number settings.batchSize)]

/-- A block was acknowledged. -/
def LogEvent.blockAcknowledged (ack : Acknowledgement) : LogEvent where
  level := .info
  target := nodeTarget
  message := "Block acknowledged"
  fields := [("subsystem", .quoted "node"), ("block_number", .number ack.block.toNat),
    ("block_hash", .plain ack.root.short)]

/-- A stream ended. -/
def LogEvent.streamEnded (eos : EndOfStream) : LogEvent where
  level := .warn
  target := nodeTarget
  message := "Producer stream ended"
  fields := [("block_number", .number eos.block.toNat), ("code", .plain eos.code.name)]

/-- The logger of responses lost some. -/
def LogEvent.loggerLagged (lost : Nat) : LogEvent where
  level := .warn
  target := nodeTarget
  message := "Response logger lagged behind"
  fields := [("skipped", .number lost)]

/-- What the logger of responses writes for what it receives. -/
def Received.logged : Received Response → Option LogEvent
  | .value (.acknowledged ack) => some (.blockAcknowledged ack)
  | .value (.ended eos) => some (.streamEnded eos)
  | .lagged lost => some (.loggerLagged lost)
  | .empty | .closed => none

/-- The messages of the logger of responses. -/
def loggerMessages : List String :=
  ["Block acknowledged", "Producer stream ended", "Response logger lagged behind"]

/-- Whether an event comes from the logger of responses. -/
def LogEvent.isOfLogger (event : LogEvent) : Bool := loggerMessages.contains event.message

/-- Everything the logger of responses writes is recognised as its own. -/
theorem isOfLogger_of_mem_logged {received : Received Response} {event : LogEvent}
    (h : event ∈ received.logged) : event.isOfLogger = true := by
  unfold Received.logged at h
  split at h <;> simp_all <;> subst h <;>
    simp [LogEvent.isOfLogger, loggerMessages, LogEvent.blockAcknowledged, LogEvent.streamEnded,
      LogEvent.loggerLagged]

/-- Why a node or its demo fails. -/
inductive NodeError where
  /-- The settings are refused. -/
  | settings (error : NodeSettingError)
  /-- The workers that combine hashes could not be had. -/
  | pool (error : TreeError)
  /-- The factory of sessions could not be made. -/
  | factory (error : VerificationError)
  /-- A block could not be produced. -/
  | production (error : ProducerError)
  /-- A batch of a block was refused. -/
  | rejected (block : UInt64) (error : VerificationError)
  /-- No response came for a block. -/
  | noOutcome (block : UInt64)
  /-- The response to a block was lost. -/
  | lagged (lost : Nat)
  /-- The notifier is gone. -/
  | notifierClosed
  /-- A block was acknowledged with a root that is not its own. -/
  | unexpectedRoot (block : UInt64) (root : Digest)

/-- The wording of an error: what was being done, then what went wrong, from the outside in. -/
def NodeError.chain : NodeError → List String
  | .settings error =>
    let inner := match error with
      | .verification error => [error.message]
      | .zero _ => []
    "Invalid node configuration" :: error.message :: inner
  | .pool error => ["Failed to build hashing pool", error.message]
  | .factory error => ["Failed to build verification session factory", error.message]
  | .production (.hashing error) =>
    ["Failed to produce block", (ProducerError.hashing error).message, error.message]
  | .rejected block error =>
    let number := block.toNat
    [s!"Block {number} rejected", error.message]
  | .noOutcome block =>
    let number := block.toNat
    [s!"No outcome for block {number}", "deadline has elapsed"]
  | .lagged lost => ["Notifier closed", s!"channel lagged by {lost}"]
  | .notifierClosed => ["Notifier closed", "channel closed"]
  | .unexpectedRoot block root =>
    let number := block.toNat
    let short := root.short
    [s!"Block {number} acknowledged with unexpected root {short}"]

/-- The number of responses a task can receive in one turn. After that it lets the others run, even
if there are more for it. -/
def turnLength : Nat := 128

/-- A running node. -/
structure Node where
  /-- Its settings. -/
  settings : NodeSettings
  /-- Makes its sessions. -/
  factory : Factory StrategyTree
  /-- Its service. -/
  service : SelectedService StrategyTree
  /-- Its notifier. -/
  notifier : Notifier
  /-- The counts for its metrics so far. -/
  tallies : List Tally := []
  /-- The log events so far. -/
  events : List LogEvent := []
  /-- The receiver of the logger of responses, if it runs. -/
  logger : Option Nat := none

namespace Node

/-- The node for settings. -/
def new (settings : NodeSettings) (hasRuntime : Bool) (source : ThreadSource := {}) :
    Except (Fault NodeError) Node := do
  orRefuse (settings.validate.mapError .settings)
  let hashing ← orRefuse ((WorkerPool.ofThreads source settings.hashingThreads).mapError .pool)
  let executors : Executors := ⟨hashing, hasRuntime⟩
  let notifier ← orCrash (Notifier.create settings.notifierCapacity)
  let factory ← orRefuse
    ((Factory.new settings.verification executors.sessions Verifier.hashEcho).mapError .factory)
  return {
    settings, factory, notifier
    service := .ofType settings.verification.serviceType
    events := [.serviceReady settings.verification] }

/-- Start the logger of responses. -/
def startLogger (node : Node) : Node :=
  let (receiver, notifier) := node.notifier.subscribe
  { node with notifier, logger := some receiver }

/-- Take in one signal of the service. -/
def absorb (node : Node) : Signal → Node
  | .log event => { node with events := node.events ++ [event] }
  | .tally tally => { node with tallies := node.tallies ++ [tally] }
  | .respond response => { node with notifier := node.notifier.publish response }

/-- Let the logger read, at most `steps` times, until nothing is left for it. -/
def runLoggerWithin (receiver : Nat) : (steps : Nat) → Node → Node
  | 0, node => node
  | steps + 1, node =>
    let (received, notifier) := node.notifier.receive receiver
    match received.logged with
    | none => node
    | some event =>
      runLoggerWithin receiver steps { node with notifier, events := node.events ++ [event] }

/-- Let the logger have a turn. -/
def runLogger (node : Node) : Node :=
  match node.logger with
  | none => node
  | some receiver => node.runLoggerWithin receiver turnLength

/-- Let the logger read everything there is: one notice of loss and the values kept. -/
def finishLogger (node : Node) : Node :=
  match node.logger with
  | none => node
  | some receiver => node.runLoggerWithin receiver (node.notifier.channel.kept.length + 1)

/-- Hand a batch of a block to the service. -/
def receive (node : Node) (block : UInt64) (batch : Batch) : Except (Fault NodeError) Node :=
  let (answer, service, signals) := node.service.receive node.factory batch
  let node := signals.foldl absorb { node with service }
  match answer with
  | .ok () => .ok node
  | .error fault => .error (fault.mapCause (.rejected block))

/-- Run what waits: the tasks of sessions, then the logger. -/
def runTasks (node : Node) : Node :=
  let (service, signals) := node.service.drain node.factory
  (signals.foldl absorb { node with service }).runLogger

/-- Whether a receiver has to let others run before its next response, after it received `streak`
responses in this turn: there is no response yet, or the turn is over. -/
def mustWait (node : Node) (receiver streak : Nat) : Bool :=
  turnLength ≤ streak ||
    match (node.notifier.receive receiver).1 with
    | .empty => true
    | _ => false

/-- Wait for the next response, `streak` others having come in this turn. What waits is run first
if that has to be. The answer has the number of responses of the turn then under way. -/
def awaitResponse (node : Node) (receiver streak : Nat) (block : UInt64) :
    Except NodeError (Response × Nat × Node) :=
  let waits := node.mustWait receiver streak
  let node := if waits then node.runTasks else node
  let streak := if waits then 0 else streak
  match node.notifier.receive receiver with
  | (.value response, notifier) => .ok (response, streak + 1, { node with notifier })
  | (.empty, _) => .error (.noOutcome block)
  | (.lagged lost, _) => .error (.lagged lost)
  | (.closed, _) => .error .notifierClosed

/-- The counters of the node. -/
def metrics (node : Node) : Metrics := Metrics.ofTallies node.tallies

end Node

/-- What a demo reports. Its numbers are 64-bit integers: of blocks there are no more than were asked
for, and items are added with a check. -/
structure DemoReport where
  /-- Number of blocks. -/
  blocks : Nat
  /-- Number of items. -/
  items : Nat := 0
  /-- Blocks acknowledged. -/
  acknowledged : Nat := 0
  /-- Blocks failed. -/
  failed : Nat := 0

/-- A demo under way. -/
structure Demo where
  /-- The node. -/
  node : Node
  /-- The producer of the blocks. -/
  producer : Producer
  /-- The receiver of the responses. -/
  receiver : Nat
  /-- The number of responses received in this turn. -/
  streak : Nat := 0
  /-- The report so far. -/
  report : DemoReport

namespace Demo

/-- The beginning of the demo of a node. -/
def start (node : Node) : Demo :=
  let (receiver, notifier) := node.notifier.subscribe
  { node := { node with notifier }
    producer := .new node.settings.demo.eventsPerBlock node.settings.demo.itemsPerBatch
    receiver
    report := { blocks := node.settings.demo.blocks } }

/-- Count the response to a block. -/
def count (report : DemoReport) (block : ProducedBlock) : Response → Except NodeError DemoReport
  | .acknowledged ack =>
    if ack.root = block.hash then .ok { report with acknowledged := report.acknowledged + 1 }
    else .error (.unexpectedRoot ack.block ack.root)
  | .ended _ => .ok { report with failed := report.failed + 1 }

/-- Stream one block. A service that verifies nothing gives no response to wait for. -/
def step (demo : Demo) : Except (Fault NodeError) Demo := do
  let (block, producer) ← demo.producer.next.mapError (Fault.mapCause NodeError.production)
  let items ← orCrash (checkedSum demo.report.items block.itemCount)
  let report := { demo.report with items }
  let node ← block.batches.foldlM (fun node batch => node.receive block.number batch) demo.node
  let demo := { demo with node, producer, report }
  match node.settings.verification.serviceType with
  | .noOp => return demo
  | .production =>
    let (response, streak, node) ←
      orRefuse (node.awaitResponse demo.receiver demo.streak block.number)
    return { demo with node, streak, report := ← orRefuse (count report block response) }

/-- Stream `count` blocks. -/
def steps : (count : Nat) → Demo → Except (Fault NodeError) Demo
  | 0, demo => .ok demo
  | count + 1, demo => do steps count (← demo.step)

/-- Stream every block of the demo. At the end the demo leaves the notifier, what waits runs once
more, and the logger reads what is left for it. -/
def run (node : Node) : Except (Fault NodeError) (DemoReport × Node) := do
  let demo ← steps node.settings.demo.blocks (start node)
  let node := { demo.node with notifier := demo.node.notifier.unsubscribe demo.receiver }
  return (demo.report, node.runTasks.finishLogger)

end Demo

end BlockIntake
