import BlockIntake.Verification.Factory

/-!
# Routing batches to sessions

A batch whose first item is a block header opens the session of a new block, which replaces the one
before it; the batch itself and the batches after it go to that session. A header that cannot be
read is reported to the caller and changes nothing. The task of a replaced session still works off
what was queued for it.
-/

namespace BlockIntake

open Merkle

/-- The target of the log events of the service. -/
def serviceTarget : String := "bs_02_block_verification::service"

/-- A session is replaced that still runs. -/
def LogEvent.sessionReplaced (previous block : UInt64) : LogEvent where
  level := .warn
  target := serviceTarget
  message := "[bs-02] Previous verification session is still running, replacing it"
  fields := [("previous", .number previous.toNat), ("block_number", .number block.toNat)]

/-- A batch came while no session was open. -/
def LogEvent.noSession (items : Nat) : LogEvent where
  level := .warn
  target := serviceTarget
  message := "[bs-02] No verification session open, dropping items"
  fields := [("items", .number items)]

/-- The sessions of a service. -/
structure Service (σ : Type) where
  /-- The replaced sessions, oldest first. -/
  earlier : List (Session σ) := []
  /-- The session of the block being received. -/
  current : Option (Session σ) := none
  /-- Whether the runtime of the tasks still exists. -/
  runtimeLive : Bool := true

namespace Service

variable {σ : Type} [TreeHasher σ]

/-- Every session, oldest first. -/
def sessions (service : Service σ) : List (Session σ) := service.earlier ++ service.current.toList

/-- Make a session the current one. -/
def opened (service : Service σ) (session : Session σ) : Service σ :=
  { service with
    earlier := service.earlier ++ (service.current.map Session.release).toList
    current := some (if service.runtimeLive then session else session.stopTask) }

/-- Hand a batch to the current session. -/
def route (factory : Factory σ) (service : Service σ) (items : Batch) :
    Service σ × List Signal :=
  match service.current with
  | none => (service, [.log (.noSession items.length)])
  | some session =>
    let (session, signals) := session.append factory.verifier items
    ({ service with current := some session }, signals)

/-- The warning that a running session is replaced. -/
def replacementWarning (service : Service σ) (block : UInt64) : List Signal :=
  match service.current with
  | some previous =>
    if previous.verification.state = .running then
      [.log (.sessionReplaced previous.verification.block block)]
    else []
  | none => []

/-- Receive a batch. -/
def receive (factory : Factory σ) (service : Service σ) (items : Batch) :
    Except VerificationFault Unit × Service σ × List Signal :=
  match items with
  | [] => (.ok (), service, [])
  | first :: _ =>
    if first.kind ≠ .blockHeader then (.ok (), service.route factory items)
    else
      match first.header with
      | .error error =>
        let reason := error.message
        (.error (.refused (.parseFailure ItemKind.blockHeader.name reason)), service, [])
      | .ok header =>
        let signals := service.replacementWarning header.number ++ [.tally .received]
        match factory.create service.sessions.length header with
        | .error fault => (.error fault, service, signals)
        | .ok session =>
          let (service, more) := (service.opened session).route factory items
          (.ok (), service, signals ++ more)

/-- Run the tasks of sessions, one after the other. -/
def runTasks (factory : Factory σ) : List (Session σ) → List (Session σ) × List Signal
  | [] => ([], [])
  | session :: rest =>
    let (session, signals) := session.runTask factory.verifier
    let (rest, more) := runTasks factory rest
    (session :: rest, signals ++ more)

/-- Run every task until it ends or waits for a batch, the oldest session first. -/
def drain (factory : Factory σ) (service : Service σ) : Service σ × List Signal :=
  let (earlier, signals) := runTasks factory service.earlier
  match service.current with
  | none => ({ service with earlier }, signals)
  | some session =>
    let (session, more) := session.runTask factory.verifier
    ({ service with earlier, current := some session }, signals ++ more)

/-- Run the task of one session, counted from the oldest, for at most `count` batches. -/
def work (factory : Factory σ) (position count : Nat) (service : Service σ) :
    Service σ × List Signal :=
  match service.earlier[position]?, service.current with
  | some session, _ =>
    let (session, signals) := session.runTaskFor factory.verifier count
    ({ service with earlier := service.earlier.set position session }, signals)
  | none, some session =>
    if position = service.earlier.length then
      let (session, signals) := session.runTaskFor factory.verifier count
      ({ service with current := some session }, signals)
    else (service, [])
  | none, none => (service, [])

/-- Destroy the runtime with all its tasks. -/
def stopRuntime (service : Service σ) : Service σ where
  earlier := service.earlier.map Session.stopTask
  current := service.current.map Session.stopTask
  runtimeLive := false

/-- The block and the state of the current session. -/
def currentBlock (service : Service σ) : Option (UInt64 × SessionState) :=
  service.current.map fun session => (session.verification.block, session.verification.state)

end Service

/-- The service the settings select. -/
inductive SelectedService (σ : Type) where
  /-- Verifies blocks. -/
  | verifying (service : Service σ)
  /-- Accepts every batch and verifies nothing. -/
  | accepting

namespace SelectedService

variable {σ : Type} [TreeHasher σ]

/-- The service of a type. -/
def ofType (serviceType : ServiceType) : SelectedService σ :=
  match serviceType with
  | .production => .verifying {}
  | .noOp => .accepting

/-- Receive a batch. -/
def receive (factory : Factory σ) (selected : SelectedService σ) (items : Batch) :
    Except VerificationFault Unit × SelectedService σ × List Signal :=
  match selected with
  | .verifying service =>
    let (answer, service, signals) := service.receive factory items
    (answer, .verifying service, signals)
  | .accepting => (.ok (), .accepting, [])

/-- Run every task until it ends or waits for a batch. -/
def drain (factory : Factory σ) (selected : SelectedService σ) :
    SelectedService σ × List Signal :=
  match selected with
  | .verifying service =>
    let (service, signals) := service.drain factory
    (.verifying service, signals)
  | .accepting => (.accepting, [])

/-- Destroy the runtime with all its tasks. -/
def stopRuntime (selected : SelectedService σ) : SelectedService σ :=
  match selected with
  | .verifying service => .verifying service.stopRuntime
  | .accepting => .accepting

end SelectedService

end BlockIntake
