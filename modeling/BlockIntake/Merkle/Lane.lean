import BlockIntake.Merkle.Pairing

/-!
# One height of a combining tree

A lane collects the hashes of one height until a batch of them is taken to be combined. Every batch
carries a ticket. Batches may finish in any order, but their results leave the lane in ticket
order: a result that is early waits until all earlier ones have landed.
-/

namespace BlockIntake.Merkle

/-- The hashes and tickets of one height. -/
structure Lane where
  /-- Hashes that wait to be taken, in order. -/
  pending : Array Digest := #[]
  /-- The ticket of the next batch. -/
  nextTicket : Nat := 0
  /-- The ticket whose result leaves next. -/
  nextToForward : Nat := 0
  /-- Results that landed before an earlier one. -/
  finished : List (Nat × List Digest) := []

namespace Lane

/-- Whether some batch was taken whose result has not left yet. -/
def inFlight (lane : Lane) : Bool := lane.nextToForward < lane.nextTicket

/-- The hashes in a lane: those that wait and those that landed early. -/
def held (lane : Lane) : List Digest := lane.pending.toList ++ lane.finished.flatMap (·.2)

/-- Put a hash at the end of the pending ones. -/
def push (lane : Lane) (hash : Digest) : Lane := { lane with pending := lane.pending.push hash }

/-- Take everything pending as a batch and the ticket for it. -/
def takeBatch (lane : Lane) : (Nat × List Digest) × Lane :=
  ((lane.nextTicket, lane.pending.toList),
    { lane with pending := #[], nextTicket := lane.nextTicket + 1 })

/-- Take an odd last pending hash away. -/
def holdOdd (lane : Lane) : Option Digest × Lane :=
  if lane.pending.size % 2 = 1 then
    (lane.pending.back?, { lane with pending := lane.pending.pop })
  else (none, lane)

/-- Record the result of a batch. -/
def file (lane : Lane) (ticket : Nat) (results : List Digest) : Lane :=
  { lane with finished := (ticket, results) :: lane.finished }

/-- Let up to `count` results leave, in ticket order, as long as the next one has landed. -/
def releaseUpTo : (count : Nat) → Lane → List Digest × Lane
  | 0, lane => ([], lane)
  | count + 1, lane =>
    match lane.finished.lookup lane.nextToForward with
    | none => ([], lane)
    | some results =>
      let rest := lane.finished.filter (·.1 != lane.nextToForward)
      let (more, lane) := releaseUpTo count
        { lane with finished := rest, nextToForward := lane.nextToForward + 1 }
      (results ++ more, lane)

/-- Let every result leave that is in order. -/
def release (lane : Lane) : List Digest × Lane := lane.releaseUpTo lane.finished.length

/-- Record the result of a batch and let every result leave that is now in order. -/
def land (lane : Lane) (ticket : Nat) (results : List Digest) : List Digest × Lane :=
  (lane.file ticket results).release

end Lane

end BlockIntake.Merkle
