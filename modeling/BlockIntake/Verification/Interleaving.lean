import BlockIntake.Verification.Session

/-!
# Appending and working at the same time

Where the owner of a queued session and its task run on different threads, an append is not one
step: the owner first checks that the session runs, then tries to send the batch, and sets the
overflow flag only after it found the queue full. The task in turn receives a batch, reads the flag
and then processes the batch or fails. Each of these is one atomic step, and the steps of the two
threads mix in any order.
-/

namespace BlockIntake

open Merkle

/-- How far an append has come. -/
inductive AppendProgress where
  /-- No append is under way. -/
  | idle
  /-- The session was found running. -/
  | admitted (items : Batch)
  /-- The queue was found full. -/
  | refused (items : Batch)

/-- How far the task has come with a batch. -/
inductive TaskProgress where
  /-- It waits for a batch. -/
  | waiting
  /-- It has received a batch. -/
  | received (items : Batch)
  /-- It has read the overflow flag. -/
  | checked (items : Batch) (overflowed : Bool)
  /-- It has ended. -/
  | ended

/-- A queued session whose owner and task run on different threads. -/
structure SharedSession (σ : Type) where
  /-- The verification, which the task alone changes. -/
  verification : Verification σ
  /-- The queue and the overflow flag. -/
  queue : TaskQueue
  /-- How far the owner has come. -/
  owner : AppendProgress := .idle
  /-- How far the task has come. -/
  task : TaskProgress := .waiting
  /-- The number of appends that have returned after their batch was lost to a full queue. -/
  lost : Nat := 0

/-- An atomic step of one of the two threads. -/
inductive AtomicStep where
  /-- The owner begins to append a batch and checks that the session runs. -/
  | check (items : Batch)
  /-- The owner tries to send the batch. -/
  | send
  /-- The owner sets the overflow flag and returns. -/
  | flag
  /-- The task receives a batch. -/
  | receive
  /-- The task reads the overflow flag. -/
  | load
  /-- The task processes the batch, or fails if it was told of an overflow. -/
  | process

namespace SharedSession

variable {σ : Type} [TreeHasher σ]

/-- A session with an empty queue for at least one batch. -/
def new (header : BlockHeader) (trees : BlockTrees σ) (capacity : Nat) : SharedSession σ where
  verification := ⟨header.number, trees, .running, none⟩
  queue := { capacity := max capacity 1 }

/-- Go on with a verification: it is over for the task once it does not run any more. -/
def settle (s : SharedSession σ) (verification : Verification σ) : SharedSession σ :=
  if verification.state = .running then { s with verification, task := .waiting }
  else
    { s with
      verification, task := .ended
      queue := { s.queue with waiting := [], live := false } }

/-- Take a step, if the thread it belongs to can take it. -/
def step? (verifier : Verifier) (s : SharedSession σ) : AtomicStep → Option (SharedSession σ)
  | .check items =>
    match s.owner with
    | .idle => some (if s.verification.state = .running then { s with owner := .admitted items } else s)
    | _ => none
  | .send =>
    match s.owner with
    | .admitted items =>
      if s.queue.live = false then some { s with owner := .idle }
      else if s.queue.capacity ≤ s.queue.waiting.length then some { s with owner := .refused items }
      else
        let queue := { s.queue with waiting := s.queue.waiting ++ [items] }
        some { s with queue, owner := .idle }
    | _ => none
  | .flag =>
    match s.owner with
    | .refused _ =>
      let queue := { s.queue with overflowed := true }
      some { s with queue, owner := .idle, lost := s.lost + 1 }
    | _ => none
  | .receive =>
    match s.task, s.queue.waiting with
    | .waiting, items :: waiting =>
      some { s with task := .received items, queue := { s.queue with waiting } }
    | _, _ => none
  | .load =>
    match s.task with
    | .received items => some { s with task := .checked items s.queue.overflowed }
    | _ => none
  | .process =>
    match s.task with
    | .checked _ true => some (s.settle (s.verification.fail (.overflow s.queue.capacity)).1)
    | .checked items false => some (s.settle (s.verification.handle verifier items).1)
    | _ => none

/-- Take steps in order, if each can be taken. -/
def run? (verifier : Verifier) (s : SharedSession σ) :
    List AtomicStep → Option (SharedSession σ)
  | [] => some s
  | step :: steps => do (← s.step? verifier step).run? verifier steps

end SharedSession

end BlockIntake
