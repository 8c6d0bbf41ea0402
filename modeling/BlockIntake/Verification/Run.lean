import BlockIntake.Verification.Service

/-!
# Runs of sessions and services

What happens to a session is a sequence of steps: its owner appends batches, looks for the result
and lets go of it, and the runtime runs its task, for a while or until it waits, or is destroyed.
A service receives batches and has the tasks of its sessions run. A run takes steps in order and
collects the answers and the signals.
-/

namespace BlockIntake

open Merkle

/-- Something that happens to a session. -/
inductive SessionStep where
  /-- The owner appends a batch. -/
  | append (items : Batch)
  /-- The task runs for at most `count` batches. -/
  | work (count : Nat)
  /-- The task runs until it ends or waits for a batch. -/
  | drain
  /-- The owner takes the receiver of the result. -/
  | takeResult
  /-- The owner looks for the result. -/
  | pollResult
  /-- The owner lets go of the session. -/
  | release
  /-- The runtime is destroyed. -/
  | stopRuntime

/-- What a step answers. -/
inductive SessionAnswer where
  /-- Nothing. -/
  | done
  /-- The owner has let go of the session before. -/
  | noSession
  /-- Whether the receiver of the result was still there. -/
  | taken (first : Bool)
  /-- What there is of the result. -/
  | view (view : ResultView)

namespace Session

variable {σ : Type} [TreeHasher σ]

/-- Take a step. -/
def step (verifier : Verifier) (s : Session σ) :
    SessionStep → SessionAnswer × Session σ × List Signal
  | .append items => if s.held then (.done, s.append verifier items) else (.noSession, s, [])
  | .work count => (.done, s.runTaskFor verifier count)
  | .drain => (.done, s.runTask verifier)
  | .takeResult =>
    if s.held then
      let (first, s) := s.takeResult
      (.taken first, s, [])
    else (.noSession, s, [])
  | .pollResult =>
    let (view, s) := s.pollResult
    (.view view, s, [])
  | .release => (.done, s.release, [])
  | .stopRuntime => (.done, s.stopTask, [])

/-- Take steps in order. -/
def run (verifier : Verifier) (s : Session σ) :
    List SessionStep → List SessionAnswer × Session σ × List Signal
  | [] => ([], s, [])
  | step :: steps =>
    let (answer, s, signals) := s.step verifier step
    let (answers, s, more) := s.run verifier steps
    (answer :: answers, s, signals ++ more)

end Session

/-- Something that happens to a service. -/
inductive ServiceStep where
  /-- The service receives a batch. -/
  | receive (items : Batch)
  /-- The task of one session, counted from the oldest, runs for at most `count` batches. -/
  | work (position count : Nat)
  /-- Every task runs until it ends or waits for a batch, the oldest session first. -/
  | drain
  /-- The runtime is destroyed. -/
  | stopRuntime

namespace Service

variable {σ : Type} [TreeHasher σ]

/-- Take a step; receiving has an answer. -/
def step (factory : Factory σ) (service : Service σ) :
    ServiceStep → Option (Except VerificationFault Unit) × Service σ × List Signal
  | .receive items =>
    let (answer, service, signals) := service.receive factory items
    (some answer, service, signals)
  | .work position count => (none, service.work factory position count)
  | .drain => (none, service.drain factory)
  | .stopRuntime => (none, service.stopRuntime, [])

/-- Take steps in order. There is one answer for every batch received. -/
def run (factory : Factory σ) (service : Service σ) :
    List ServiceStep → List (Except VerificationFault Unit) × Service σ × List Signal
  | [] => ([], service, [])
  | step :: steps =>
    let (answer, service, signals) := service.step factory step
    let (answers, service, more) := service.run factory steps
    (answer.toList ++ answers, service, signals ++ more)

end Service

end BlockIntake
