import BlockIntake.Merkle.Lane
import BlockIntake.Merkle.LeafTree

/-!
# The tree that combines while leaves arrive

Hashes enter the lane of their height. A lane that has collected a full batch gives it away to be
combined; small batches are combined on the spot and larger ones become jobs for a pool of workers.
The combined hashes enter the next lane, in ticket order. Since only batches of even length are
taken before the root is requested, pairing never differs from the pairing of the complete tree.

Requesting the root flushes the lanes from the leaves upwards. The cursor of the flush stops at a
lane with batches in flight, and the job that lands last there moves it on. Every job is a value in
the state of the tree, and landing one is a step of its own, so a run of the tree is a sequence of
operations and landings in any order.
-/

namespace BlockIntake.Merkle

/-- A batch given to the pool. -/
structure Job where
  /-- The height of its hashes. -/
  height : Nat
  /-- Its ticket. -/
  ticket : Nat
  /-- The hashes to combine. -/
  batch : List Digest

/-- The lanes and the jobs that have not landed. -/
structure Combiner where
  /-- One lane for every height. -/
  lanes : Array Lane := Array.replicate maxDepth {}
  /-- The jobs in the pool, oldest first. -/
  jobs : List Job := []

namespace Combiner

/-- The lane of a height. -/
def lane (c : Combiner) (height : Nat) : Except Crash Lane :=
  match c.lanes[height]? with
  | some lane => .ok lane
  | none => .error (.pastTable c.lanes.size height)

/-- Replace the lane of a height. -/
def setLane (c : Combiner) (height : Nat) (lane : Lane) : Combiner :=
  { c with lanes := c.lanes.setIfInBounds height lane }

/-- Land the result of a batch, and hand the hashes that leave the lane to `raise`, which puts them
into the next one. -/
def landWith (raise : List Digest → Combiner → Except Crash Combiner) (height ticket : Nat)
    (results : List Digest) (c : Combiner) : Except Crash Combiner := do
  let lane ← c.lane height
  let (released, lane) := lane.land ticket results
  raise released (c.setLane height lane)

/-- Take everything pending at a height, if anything is. A small batch is combined on the spot, a
larger one becomes a job. -/
def dispatchWith (raise : List Digest → Combiner → Except Crash Combiner) (height : Nat)
    (c : Combiner) : Except Crash Combiner := do
  let lane ← c.lane height
  if lane.pending.isEmpty then return c
  let ((ticket, batch), lane) := lane.takeBatch
  let c := c.setLane height lane
  if batch.length < minToSchedule then
    landWith raise height ticket (← combinePairs height batch) c
  else
    return { c with jobs := c.jobs ++ [⟨height, ticket, batch⟩] }

/-- Put a hash into the lane with `room` lanes from it upwards, itself included, and take a batch
if the lane is full. -/
def pushInto (batchSize : Nat) : (room : Nat) → Combiner → Digest → Except Crash Combiner
  | 0, c, _ => .error (.pastTable c.lanes.size maxDepth)
  | room + 1, c, hash => do
    let height := maxDepth - (room + 1)
    let lane ← c.lane height
    let lane := lane.push hash
    let c := c.setLane height lane
    if lane.pending.size < batchSize then return c
    dispatchWith (fun hashes c => hashes.foldlM (pushInto batchSize room) c) height c

/-- Put a hash into the lane of a height. -/
def push (batchSize height : Nat) (c : Combiner) (hash : Digest) : Except Crash Combiner :=
  pushInto batchSize (maxDepth - height) c hash

/-- Put hashes into the lane above a height, in order. -/
def raise (batchSize height : Nat) (hashes : List Digest) (c : Combiner) :
    Except Crash Combiner :=
  hashes.foldlM (push batchSize (height + 1)) c

/-- Land the result of a batch of a height. -/
def land (batchSize height ticket : Nat) (results : List Digest) (c : Combiner) :
    Except Crash Combiner :=
  landWith (raise batchSize height) height ticket results c

/-- Take everything pending at a height. -/
def dispatch (batchSize height : Nat) (c : Combiner) : Except Crash Combiner :=
  dispatchWith (raise batchSize height) height c

/-- Whether some batch of a height is in flight. -/
def inFlight (c : Combiner) (height : Nat) : Except Crash Bool := return (← c.lane height).inFlight

end Combiner

/-- The flush that computes a requested root. -/
structure Flush where
  /-- The height of the root. -/
  rootHeight : Nat
  /-- The height reached so far. -/
  cursor : Nat
  /-- Whether the root is still to be delivered. -/
  awaited : Bool

/-- A frontier that is being taken: it stops at a height with batches in flight. -/
structure Scan where
  /-- The height reached so far. -/
  height : Nat
  /-- The number of heights left. -/
  left : Nat
  /-- The entries of the heights below. -/
  waiting : List (Option Digest)

/-- A tree that combines hashes while leaves arrive. -/
structure CombiningTree where
  /-- The number of hashes combined at a time, positive and even. -/
  batchSize : Nat
  /-- Lanes and jobs. -/
  combiner : Combiner := {}
  /-- Number of leaves. -/
  leafCount : Nat := 0
  /-- Whether the root was requested. -/
  closed : Bool := false
  /-- The flush, once the root was requested. -/
  flush : Option Flush := none
  /-- The roots delivered so far. -/
  roots : List Digest := []

namespace CombiningTree

/-- A tree without leaves that combines `batchSize` hashes at a time. -/
def new (batchSize : Nat) : Except TreeError CombiningTree :=
  if batchSize = 0 ∨ batchSize % 2 ≠ 0 then .error (.batchSize batchSize)
  else .ok { batchSize }

/-- Flush `left` lanes from `cursor` upwards, up to one with batches in flight. Past the last of
them stands the root: the hash pending there, or an empty leaf if there is none. -/
def flushUpTo (batchSize : Nat) :
    (left cursor : Nat) → Combiner → Except Crash (Nat × Option Digest × Combiner)
  | 0, cursor, c => do
    let lane ← c.lane cursor
    return (cursor, some (lane.pending[0]?.getD (emptyRoot 0)), c)
  | left + 1, cursor, c => do
    let c ← c.dispatch batchSize cursor
    if ← c.inFlight cursor then return (cursor, none, c)
    flushUpTo batchSize left (cursor + 1) c

/-- Move the flush on as far as it goes, and deliver the root when it is reached. Without a flush
that awaits its root nothing happens. -/
def advance (tree : CombiningTree) : Except Crash CombiningTree :=
  match tree.flush with
  | some ⟨height, cursor, true⟩ => do
    let (cursor, root, combiner) ←
      flushUpTo tree.batchSize (height - cursor) cursor tree.combiner
    return { tree with
      combiner
      flush := some ⟨height, cursor, root.isNone⟩
      roots := tree.roots ++ root.toList }
  | _ => .ok tree

/-- Land the job at a position of the pool; where there is none, nothing happens. -/
def landJob (tree : CombiningTree) (position : Nat) : Except Crash CombiningTree :=
  match tree.combiner.jobs[position]? with
  | none => .ok tree
  | some job => do
    let results ← combinePairs job.height job.batch
    let combiner := { tree.combiner with jobs := tree.combiner.jobs.eraseIdx position }
    let combiner ← combiner.land tree.batchSize job.height job.ticket results
    { tree with combiner }.advance

/-- The hash a leaf would be appended as: the tree has to be open, the leaf long enough, and there
has to be room, in this order. -/
def accept (tree : CombiningTree) (leaf : Bytes) : Except TreeFault Digest := do
  if tree.closed then throw (.refused .leafAfterRoot)
  let hash ← orRefuse (readLeaf leaf)
  if maxLeaves ≤ tree.leafCount then throw (.refused (.capacityExceeded maxLeaves))
  return hash

/-- Append a hash. -/
def push (tree : CombiningTree) (hash : Digest) : Except Crash CombiningTree := do
  let combiner ← tree.combiner.push tree.batchSize 0 hash
  return { tree with combiner, leafCount := tree.leafCount + 1 }

/-- Append a leaf. -/
def add (tree : CombiningTree) (leaf : Bytes) : Except TreeFault CombiningTree := do
  let hash ← tree.accept leaf
  orCrash (tree.push hash)

/-- Close the tree and start the flush. -/
def requestRoot (tree : CombiningTree) : Except TreeFault CombiningTree := do
  if tree.closed then throw (.refused .rootAlreadyRequested)
  let height ← orCrash (rootHeight tree.leafCount)
  orCrash (advance { tree with closed := true, flush := some ⟨height, 0, true⟩ })

/-- Begin to take the frontier of an open tree. -/
def beginScan (tree : CombiningTree) : Except TreeFault Scan := do
  if tree.closed then throw (.refused .frontierAfterRoot)
  if tree.leafCount = 0 then return ⟨0, 0, []⟩
  let stop ← orCrash (rootHeight (tree.leafCount + 1))
  return ⟨0, stop, []⟩

/-- Take one height into a scan: everything pending but an odd last hash is combined and raised,
and the odd hash is held back and put down again. -/
def scanHeight (batchSize height : Nat) (c : Combiner) :
    Except Crash (Option Digest × Combiner) := do
  let lane ← c.lane height
  let (held, lane) := lane.holdOdd
  let c := c.setLane height lane
  let c ←
    if lane.pending.isEmpty then pure c
    else do
      let ((ticket, batch), lane) := lane.takeBatch
      Combiner.land batchSize height ticket (← combinePairs height batch) (c.setLane height lane)
  match held with
  | none => return (none, c)
  | some hash =>
    let lane ← c.lane height
    return (some hash, c.setLane height (lane.push hash))

/-- Continue a scan through `left` heights, up to a height with batches in flight. -/
def scanUpTo (batchSize : Nat) :
    (left height : Nat) → List (Option Digest) → Combiner → Except Crash (Scan × Combiner)
  | 0, height, waiting, c => .ok (⟨height, 0, waiting⟩, c)
  | left + 1, height, waiting, c => do
    if ← c.inFlight height then return (⟨height, left + 1, waiting⟩, c)
    let (held, c) ← scanHeight batchSize height c
    scanUpTo batchSize left (height + 1) (waiting ++ [held]) c

/-- Continue a scan as far as it goes. -/
def continueScan (tree : CombiningTree) (scan : Scan) : Except Crash (Scan × CombiningTree) := do
  let (scan, combiner) ← scanUpTo tree.batchSize scan.left scan.height scan.waiting tree.combiner
  return (scan, { tree with combiner })

/-- The frontier a finished scan stands for. -/
def frontierOfScan (tree : CombiningTree) (scan : Scan) : Frontier :=
  ⟨UInt64.ofNat tree.leafCount, scan.waiting⟩

/-- The hashes held anywhere in the tree. Landing a job lowers their number, which thus bounds the
number of landings that can follow. -/
def heldHashes (c : Combiner) : List Digest :=
  c.lanes.toList.flatMap Lane.held ++ c.jobs.flatMap (·.batch)

/-- Land the oldest job over and over, at most `steps` times, until none is left. -/
def settleWithin : (steps : Nat) → CombiningTree → Except Crash CombiningTree
  | 0, tree => .ok tree
  | steps + 1, tree =>
    if tree.combiner.jobs.isEmpty then .ok tree
    else do settleWithin steps (← tree.landJob 0)

/-- Land jobs, oldest first, until none is left. -/
def settle (tree : CombiningTree) : Except Crash CombiningTree :=
  tree.settleWithin (heldHashes tree.combiner).length

/-- The frontier, taken once every job has landed. -/
def frontier (tree : CombiningTree) : Except TreeFault (Frontier × CombiningTree) := do
  let scan ← tree.beginScan
  let tree ← orCrash tree.settle
  go scan.left scan tree
where
  /-- Continue the scan and land the jobs it waits for, height by height. -/
  go : (left : Nat) → Scan → CombiningTree → Except TreeFault (Frontier × CombiningTree)
    | 0, scan, tree => return (tree.frontierOfScan scan, tree)
    | left + 1, scan, tree => do
      let (scan, tree) ← orCrash (tree.continueScan scan)
      if scan.left = 0 then return (tree.frontierOfScan scan, tree)
      go left scan (← orCrash tree.settle)

end CombiningTree

end BlockIntake.Merkle
