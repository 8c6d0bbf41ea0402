import BlockIntake.Log.Event
import BlockIntake.Stream.Response

/-!
# What a verification tells the outside

Processing a batch is a function of the session and the batch. What it tells the outside comes back
as a list of signals in the order they are given: log events, counts for the metrics, and responses
to the producers.
-/

namespace BlockIntake

/-- One count for the metrics. -/
inductive Tally where
  /-- A block was opened. -/
  | received
  /-- A block was verified. -/
  | verified
  /-- A block failed with a code. -/
  | failed (code : EndCode)
deriving DecidableEq

/-- One thing a verification tells the outside. -/
inductive Signal where
  /-- An event to be logged. -/
  | log (event : LogEvent)
  /-- A count for the metrics. -/
  | tally (tally : Tally)
  /-- A response to be published. -/
  | respond (response : Response)
deriving DecidableEq

namespace Signal

/-- The log events among signals. -/
def logs (signals : List Signal) : List LogEvent :=
  signals.filterMap fun | .log e => some e | _ => none

/-- The counts among signals. -/
def tallies (signals : List Signal) : List Tally :=
  signals.filterMap fun | .tally t => some t | _ => none

/-- The responses among signals. -/
def responses (signals : List Signal) : List Response :=
  signals.filterMap fun | .respond r => some r | _ => none

end Signal

/-- Counters of a node, as exact numbers. -/
structure Metrics where
  /-- Blocks opened. -/
  received : Nat := 0
  /-- Blocks verified. -/
  verified : Nat := 0
  /-- Blocks failed. -/
  failed : Nat := 0
deriving DecidableEq

namespace Metrics

/-- Add a count. -/
def add (metrics : Metrics) : Tally → Metrics
  | .received => { metrics with received := metrics.received + 1 }
  | .verified => { metrics with verified := metrics.verified + 1 }
  | .failed _ => { metrics with failed := metrics.failed + 1 }

/-- The counters after the given counts. -/
def ofTallies (tallies : List Tally) : Metrics := tallies.foldl add {}

end Metrics

/-- Counters of a node as they are kept, in 64 bits. A counter that is full begins anew. -/
structure MetricsWords where
  /-- Blocks opened. -/
  received : UInt64 := 0
  /-- Blocks verified. -/
  verified : UInt64 := 0
  /-- Blocks failed. -/
  failed : UInt64 := 0
deriving DecidableEq

namespace MetricsWords

/-- Add a count. -/
def add (words : MetricsWords) : Tally → MetricsWords
  | .received => { words with received := words.received + 1 }
  | .verified => { words with verified := words.verified + 1 }
  | .failed _ => { words with failed := words.failed + 1 }

/-- The counters after the given counts. -/
def ofTallies (tallies : List Tally) : MetricsWords := tallies.foldl add {}

end MetricsWords

namespace Metrics

/-- Exact numbers as they are kept. -/
def words (metrics : Metrics) : MetricsWords :=
  ⟨.ofNat metrics.received, .ofNat metrics.verified, .ofNat metrics.failed⟩

/-- A count is added alike to exact numbers and to those that are kept. -/
theorem words_add (metrics : Metrics) (tally : Tally) :
    (metrics.add tally).words = metrics.words.add tally := by
  cases tally <;> simp [add, words, MetricsWords.add, UInt64.ofNat_add]

/-- The counters that are kept are the exact numbers, but for what does not fit into 64 bits. -/
theorem words_ofTallies (tallies : List Tally) :
    (ofTallies tallies).words = MetricsWords.ofTallies tallies := by
  suffices ∀ metrics : Metrics,
      (tallies.foldl add metrics).words = tallies.foldl MetricsWords.add metrics.words from this {}
  induction tallies with
  | nil => exact fun metrics => rfl
  | cons tally tallies ih =>
    intro metrics
    rw [List.foldl_cons, List.foldl_cons, ih, words_add]

end Metrics

/-- The number of failures with a code. -/
def failuresWith (code : EndCode) (tallies : List Tally) : Nat := tallies.count (.failed code)

/-- The exported counters that rose, with their names and by how much. Failures are counted for
each code apart. -/
def exportedCounters (tallies : List Tally) : List (String × Nat) :=
  let metrics := Metrics.ofTallies tallies
  let failures := EndCode.all.map fun code =>
    let name := code.name
    (s!"verification_blocks_failed_total\x7bcode={name}\x7d", failuresWith code tallies)
  (("verification_blocks_received_total", metrics.received) ::
    ("verification_blocks_verified_total", metrics.verified) :: failures).filter (·.2 != 0)

end BlockIntake
