import BlockIntake.Settings.Verification
import BlockIntake.Verification.Session

/-!
# Making sessions

A factory makes the session of a block as the settings have it. It is made only from settings that
are valid, and, for sessions with tasks, only where a runtime can run them; after that making a
session does not fail, unless its queue is to be longer than any can be. Hashes are combined by the
pool that everything shares, or by one with threads of its own, which may not be had.
-/

namespace BlockIntake

open Merkle

/-- The workers that combine hashes. -/
structure WorkerPool where
  /-- The number of threads. -/
  threads : Nat
  /-- Whether the threads belong to this pool alone. -/
  dedicated : Bool

/-- The description of a pool. -/
def WorkerPool.describe (pool : WorkerPool) : String :=
  let dedicated := (LogValue.flag pool.dedicated).text
  let threads := pool.threads
  s!"WorkerPool \x7b dedicated: {dedicated}, threads: {threads} \x7d"

/-- What starts the threads of pools. -/
structure ThreadSource where
  /-- Start so many threads for a pool. The answer is the number of threads the pool has, or why
  there is no pool. -/
  start : Nat → Except String Nat := .ok
  /-- The number of threads of the pool that everything shares. -/
  shared : Nat := 1

namespace WorkerPool

/-- The pool that everything shares. -/
def global (source : ThreadSource) : WorkerPool := ⟨source.shared, false⟩

/-- A pool with threads of its own. -/
def build (source : ThreadSource) (threads : Nat) : Except TreeError WorkerPool :=
  match source.start threads with
  | .ok started => .ok ⟨started, true⟩
  | .error reason => .error (.poolUnavailable reason)

/-- The pool for a number of threads of its own, or without one the pool that everything shares. -/
def ofThreads (source : ThreadSource) : Option Nat → Except TreeError WorkerPool
  | some threads => build source threads
  | none => .ok (global source)

/-- There is no pool exactly if its threads cannot be started. -/
theorem ofThreads_eq_error_iff (source : ThreadSource) (threads? : Option Nat)
    (error : TreeError) : ofThreads source threads? = .error error ↔
      ∃ threads reason, threads? = some threads ∧ source.start threads = .error reason ∧
        error = .poolUnavailable reason := by
  cases threads? with
  | none =>
    constructor
    · intro failed
      cases failed
    · rintro ⟨threads, reason, hsome, -⟩
      cases hsome
  | some threads =>
    rw [ofThreads, build]
    cases hstart : source.start threads with
    | ok started =>
      constructor
      · intro failed
        cases failed
      · rintro ⟨threads, reason, hsome, hfailed, -⟩
        obtain rfl := Option.some.inj hsome
        rw [hstart] at hfailed
        cases hfailed
    | error reason =>
      constructor
      · intro failed
        exact ⟨threads, reason, rfl, hstart, (Except.error.inj failed).symm⟩
      · rintro ⟨threads, reason, hsome, hfailed, rfl⟩
        obtain rfl := Option.some.inj hsome
        rw [hstart] at hfailed
        obtain rfl := Except.error.inj hfailed
        rfl

/-- There is a pool if its threads can be started. -/
theorem exists_ofThreads {source : ThreadSource} {threads? : Option Nat}
    (starts : ∀ threads ∈ threads?, ∃ started, source.start threads = .ok started) :
    ∃ pool, ofThreads source threads? = .ok pool := by
  cases threads? with
  | none => exact ⟨_, rfl⟩
  | some threads =>
    obtain ⟨started, hstart⟩ := starts threads rfl
    refine ⟨⟨started, true⟩, ?_⟩
    rw [ofThreads, build, hstart]

end WorkerPool

/-- What sessions run on. -/
structure Executors where
  /-- The workers that combine hashes. -/
  hashing : WorkerPool
  /-- Whether there is a runtime for tasks. -/
  sessions : Bool

/-- The description of executors. -/
def Executors.describe (executors : Executors) : String :=
  let hashing := executors.hashing.describe
  let sessions := (LogValue.flag executors.sessions).text
  s!"SessionExecutors \x7b hashing: {hashing}, sessions: {sessions} \x7d"

/-- Makes sessions. -/
structure Factory (σ : Type) where
  /-- Where sessions process their batches. -/
  sessionType : SessionType
  /-- The number of batches that may wait. -/
  queueCapacity : Nat
  /-- Whether there is a runtime for tasks. -/
  hasRuntime : Bool
  /-- The check of signatures. -/
  verifier : Verifier
  /-- The trees of the session made after the given number of others. -/
  trees : Nat → Except VerificationError (BlockTrees σ)

/-- The order in which the pool finishes the jobs of each tree: by the number of sessions made
before, and the side. -/
abbrev PoolSchedule := Nat → Side → LandingPlan

/-- An empty tree as the settings have it. -/
def VerificationSettings.newTree (settings : VerificationSettings) (plan : LandingPlan) :
    Except VerificationError StrategyTree :=
  match settings.hasher with
  | .naive => .ok (.leaves {})
  | .concurrent => do
    let tree ← (CombiningTree.new settings.batchSize).mapError .ofTree
    return .combining ⟨tree, plan⟩

namespace Factory

/-- The factory for settings. They have to be valid, and sessions with tasks need a runtime. -/
def new (settings : VerificationSettings) (hasRuntime : Bool) (verifier : Verifier)
    (schedule : PoolSchedule := fun _ _ => []) : Except VerificationError (Factory StrategyTree) := do
  settings.validate.mapError .ofSetting
  if settings.sessionType = .async ∧ hasRuntime = false then
    throw (.invalidInput "async verification sessions need a tokio runtime handle")
  return {
    sessionType := settings.sessionType
    queueCapacity := settings.queueCapacity
    hasRuntime, verifier
    trees := fun earlier => do
      let inputs ← settings.newTree (schedule earlier .input)
      let outputs ← settings.newTree (schedule earlier .output)
      return ⟨inputs, outputs⟩ }

variable {σ : Type} [TreeHasher σ]

/-- The session of the block a header opens, made after the given number of others. -/
def create (factory : Factory σ) (earlier : Nat) (header : BlockHeader) :
    Except VerificationFault (Session σ) := do
  let trees ← orRefuse (factory.trees earlier)
  match factory.sessionType, factory.hasRuntime with
  | .async, true => orCrash (Session.spawn header trees factory.queueCapacity)
  | .async, false =>
    throw (.refused (.illegalState "async session requested without a runtime handle"))
  | .sync, _ => return .inline header trees

end Factory

end BlockIntake
