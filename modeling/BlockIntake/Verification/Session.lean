import BlockIntake.PowerOfTwo
import BlockIntake.Verification.BlockHash
import BlockIntake.Verification.Signal

/-!
# The verification of one block

A verification hashes the items of its block batch by batch. When a batch ends with the block's
proof, the roots of both trees and the two roots in the proof make the block hash, and the proof
has to carry a valid signature of it. A verification ends once, either completed or failed, and
says so once: with one count, one response and one result. A crash while a batch is processed is a
failure like any other.

A session hands batches to its verification. An inline session processes a batch when it is
appended. A queued session puts it into a bounded queue, which a task works off later; a batch that
finds the queue full is lost, and the next batch the task takes out fails the verification.
-/

namespace BlockIntake

open Merkle

/-- The state of a verification. -/
inductive SessionState where
  /-- More batches are expected. -/
  | running
  /-- The block was verified. -/
  | completed
  /-- The block failed. -/
  | failed
deriving DecidableEq

namespace SessionState

/-- Every state. -/
def all : List SessionState := [running, completed, failed]

/-- The name of a state. -/
def name : SessionState → String
  | running => "Running"
  | completed => "Completed"
  | failed => "Failed"

/-- The state of a name. -/
def ofName? (name : String) : Option SessionState := all.find? (·.name == name)

/-- Whether more batches are expected. -/
def isRunning (state : SessionState) : Bool := state == running

/-- Whether the state is final. -/
def isTerminal (state : SessionState) : Bool := state != running

end SessionState

/-- Whether a signature is valid for a block hash; the check itself may crash. -/
abbrev Verifier := Digest → Bytes → Except Crash Bool

/-- The target of the log events of sessions. -/
def sessionTarget : String := "bs_02_block_verification::session"

/-- Batches came for a session that has ended. -/
def LogEvent.sessionNotRunning (block : UInt64) (items : Nat) : LogEvent where
  level := .warn
  target := sessionTarget
  message := "[bs-02] Block verification session is not running"
  fields := [("block_number", .number block.toNat), ("items", .number items)]

/-- A batch was lost to a full queue. -/
def LogEvent.queueFull (block : UInt64) (items : Nat) : LogEvent where
  level := .warn
  target := sessionTarget
  message := "[bs-02] Session queue is full, dropping items"
  fields := [("block_number", .number block.toNat), ("items", .number items)]

/-- A batch was lost because the task is gone. -/
def LogEvent.taskStopped (block : UInt64) : LogEvent where
  level := .warn
  target := sessionTarget
  message := "[bs-02] Session task has stopped, dropping items"
  fields := [("block_number", .number block.toNat)]

/-- A block was verified. -/
def LogEvent.blockVerified (block : UInt64) (hash : Digest) : LogEvent where
  level := .info
  target := sessionTarget
  message := "[bs-02] Block verified"
  fields := [("block_number", .number block.toNat), ("root", .plain hash.short)]

/-- A block failed. -/
def LogEvent.blockFailed (block : UInt64) (error : VerificationError) : LogEvent where
  level := .error
  target := sessionTarget
  message := "[bs-02] Block verification failed"
  fields := [("block_number", .number block.toNat), ("code", .plain error.code.name),
    ("error", .plain error.message)]

/-- The verification of one block. -/
structure Verification (σ : Type) where
  /-- Number of the block. -/
  block : UInt64
  /-- The trees over the items so far. -/
  trees : BlockTrees σ
  /-- Whether it runs, was completed or has failed. -/
  state : SessionState := .running
  /-- The result, once it was given. -/
  result : Option VerificationResult := none

namespace Verification

variable {σ : Type} [TreeHasher σ]

/-- Check a proof against the block and the items hashed so far; the answer is the block hash. -/
def finalize (verifier : Verifier) (v : Verification σ) (proof : BlockProof) :
    Except VerificationFault Digest := do
  if proof.block ≠ v.block then throw (.refused (.blockMismatch v.block proof.block))
  let (inputRoot, outputRoot) ← v.trees.roots
  let hash := proof.blockHash inputRoot outputRoot
  if ← orCrash (verifier hash proof.signature) then return hash
  throw (.refused (.signatureMismatch v.block hash.short))

/-- Hash the items of a batch. If the last of them is a proof, the block hash comes back too. -/
def process (verifier : Verifier) (v : Verification σ) (items : Batch) :
    Except VerificationFault (Option Digest × Verification σ) := do
  let trees ← v.trees.addAll items
  let v := { v with trees }
  match items.getLast? with
  | none => return (none, v)
  | some last =>
    if last.kind ≠ .blockProof then return (none, v)
    let proof ← orRefuse <| last.proof.mapError fun error =>
      VerificationError.parseFailure ItemKind.blockProof.name error.message
    return (some (← v.finalize verifier proof), v)

/-- End with a verified block, unless a result was already given. -/
def complete (v : Verification σ) (hash : Digest) : Verification σ × List Signal :=
  if v.result.isSome then (v, [])
  else
    ({ v with state := .completed, result := some (.verified v.block hash) },
      [.tally .verified, .log (.blockVerified v.block hash),
        .respond (.acknowledged ⟨v.block, hash, false⟩)])

/-- End with a failure, unless a result was already given. -/
def fail (v : Verification σ) (error : VerificationError) : Verification σ × List Signal :=
  if v.result.isSome then (v, [])
  else
    ({ v with state := .failed, result := some (.failed v.block error) },
      [.tally (.failed error.code), .log (.blockFailed v.block error),
        .respond (.ended ⟨v.block, error.code⟩)])

/-- Process a batch and end if it ended the block, well or badly. A verification that has ended
ignores the batch. -/
def handle (verifier : Verifier) (v : Verification σ) (items : Batch) :
    Verification σ × List Signal :=
  if v.state ≠ .running then (v, [.log (.sessionNotRunning v.block items.length)])
  else
    match v.process verifier items with
    | .ok (some hash, v) => v.complete hash
    | .ok (none, v) => (v, [])
    | .error (.refused error) => v.fail error
    | .error (.crashed crash) => v.fail (.ofCrash crash)

end Verification

/-- The queue of a session and the task that works it off. -/
structure TaskQueue where
  /-- The number of batches that may wait. -/
  capacity : Nat
  /-- The batches that wait, oldest first. -/
  waiting : List Batch := []
  /-- Whether a batch was lost because the queue was full. -/
  overflowed : Bool := false
  /-- Whether the task still exists. -/
  live : Bool := true

/-- The largest number of batches a queue can be made for: three bits of a word are set apart for
the state of the queue itself. -/
def TaskQueue.mostWaiting : Nat := powerOfTwo 61 - 1

/-- Where a session processes its batches. -/
inductive Drive where
  /-- When they are appended. -/
  | inline
  /-- In a task, later. -/
  | queued (queue : TaskQueue)

/-- A session: a verification, the way it is driven, and what its owner did with it. -/
structure Session (σ : Type) where
  /-- The verification of the block. -/
  verification : Verification σ
  /-- How it is driven. -/
  drive : Drive
  /-- Whether the owner still holds the session. -/
  held : Bool := true
  /-- Whether the owner took the receiver of the result. -/
  taken : Bool := false
  /-- Whether the owner read the result. -/
  read : Bool := false

/-- What the owner sees when looking for the result. -/
inductive ResultView where
  /-- The receiver was not taken. -/
  | notTaken
  /-- There is no result yet. -/
  | empty
  /-- There will be no result, or it was read before. -/
  | closed
  /-- The result. -/
  | result (result : VerificationResult)

namespace Session

variable {σ : Type} [TreeHasher σ]

/-- A session that processes batches when they are appended. -/
def inline (header : BlockHeader) (trees : BlockTrees σ) : Session σ where
  verification := ⟨header.number, trees, .running, none⟩
  drive := .inline

/-- A session whose task works off a queue. At least one batch may wait. -/
def queued (header : BlockHeader) (trees : BlockTrees σ) (capacity : Nat) : Session σ where
  verification := ⟨header.number, trees, .running, none⟩
  drive := .queued { capacity := max capacity 1 }

/-- Make a session whose task works off a queue, if a queue can be that long. -/
def spawn (header : BlockHeader) (trees : BlockTrees σ) (capacity : Nat) :
    Except Crash (Session σ) :=
  if TaskQueue.mostWaiting < capacity then .error (.noRoom capacity)
  else .ok (queued header trees capacity)

/-- Append a batch. A session that has ended ignores it with a warning. -/
def append (verifier : Verifier) (s : Session σ) (items : Batch) : Session σ × List Signal :=
  let block := s.verification.block
  if s.verification.state ≠ .running then
    (s, [.log (.sessionNotRunning block items.length)])
  else
    match s.drive with
    | .inline =>
      let (verification, signals) := s.verification.handle verifier items
      ({ s with verification }, signals)
    | .queued queue =>
      if queue.live = false then (s, [.log (.taskStopped block)])
      else if queue.capacity ≤ queue.waiting.length then
        ({ s with drive := .queued { queue with overflowed := true } },
          [.log (.queueFull block items.length)])
      else
        ({ s with drive := .queued { queue with waiting := queue.waiting ++ [items] } }, [])

/-- Work off batches, oldest first, until the verification ends; the answer says whether it still
runs. After an overflow the next batch ends it. -/
def workOff (verifier : Verifier) (capacity : Nat) (overflowed : Bool) :
    List Batch → Verification σ → Bool × Verification σ × List Signal
  | [], v => (true, v, [])
  | items :: waiting, v =>
    if overflowed then
      let (v, signals) := v.fail (.overflow capacity)
      (false, v, signals)
    else
      let (v, signals) := v.handle verifier items
      if v.state ≠ .running then (false, v, signals)
      else
        let (live, v, more) := workOff verifier capacity overflowed waiting v
        (live, v, signals ++ more)

/-- The batches that wait for the task. -/
def waiting (s : Session σ) : List Batch :=
  match s.drive with
  | .inline => []
  | .queued queue => queue.waiting

/-- Run the task for at most `count` batches. It ends with the verification, and also when no batch
is left and nobody holds the session. -/
def runTaskFor (verifier : Verifier) (count : Nat) (s : Session σ) : Session σ × List Signal :=
  match s.drive with
  | .inline => (s, [])
  | .queued queue =>
    if queue.live = false then (s, [])
    else
      let (runs, verification, signals) :=
        workOff verifier queue.capacity queue.overflowed (queue.waiting.take count) s.verification
      let left := if runs then queue.waiting.drop count else []
      let live := runs && (!left.isEmpty || s.held)
      ({ s with verification, drive := .queued { queue with waiting := left, live } }, signals)

/-- Run the task until it ends or waits for a batch. -/
def runTask (verifier : Verifier) (s : Session σ) : Session σ × List Signal :=
  s.runTaskFor verifier s.waiting.length

/-- Destroy the task, if there is one, with everything that waits for it. -/
def stopTask (s : Session σ) : Session σ :=
  match s.drive with
  | .inline => s
  | .queued queue => { s with drive := .queued { queue with waiting := [], live := false } }

/-- The owner lets go of the session. -/
def release (s : Session σ) : Session σ := { s with held := false }

/-- The owner takes the receiver of the result, which works once. -/
def takeResult (s : Session σ) : Bool × Session σ := (!s.taken, { s with taken := true })

/-- Whether somebody is left who could give a result. -/
def canDeliver (s : Session σ) : Bool :=
  match s.drive with
  | .inline => s.held
  | .queued queue => queue.live

/-- The owner looks for the result, which can be read once. -/
def pollResult (s : Session σ) : ResultView × Session σ :=
  if s.taken = false then (.notTaken, s)
  else if s.read then (.closed, s)
  else
    match s.verification.result with
    | some result => (.result result, { s with read := true })
    | none => (if s.canDeliver then .empty else .closed, s)

end Session

end BlockIntake
