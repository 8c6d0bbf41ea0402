import BlockIntake.Verification.BlockHash

/-!
# A producer of synthetic blocks

The producer makes a chain of blocks with a fixed number of events each. Every block starts with
its header and ends with a proof whose signature is the block hash, and names the hash of the block
before it as its previous root. A block is handed out in batches of bounded size.
-/

namespace BlockIntake

/-- The number of events in a round. -/
def eventsPerRound : Nat := 8

/-- Why no block could be made. -/
inductive ProducerError where
  /-- The block could not be hashed. -/
  | hashing (error : VerificationError)
deriving DecidableEq

/-- The wording of an error. -/
def ProducerError.message : ProducerError → String
  | .hashing error =>
    let reason := error.message
    s!"Failed to hash block: {reason}"

/-- Cut a list into pieces of `size` elements; the last piece may be shorter. A size of zero counts
as one. -/
def chunksOf {α : Type} (size : Nat) : List α → List (List α)
  | [] => []
  | a :: rest => (a :: rest.take (size - 1)) :: chunksOf size (rest.drop (size - 1))
termination_by items => items.length
decreasing_by simp only [List.length_drop, List.length_cons]; omega

/-- Nothing is lost or reordered by cutting a list into pieces. -/
theorem flatten_chunksOf {α : Type} (size : Nat) (items : List α) :
    (chunksOf size items).flatten = items := by
  fun_induction chunksOf size items with
  | case1 => rfl
  | case2 a rest ih => simp [ih, List.take_append_drop]

/-- The chain so far and the shape of the blocks to come. -/
structure Producer where
  /-- Number of the next block. -/
  nextNumber : UInt64 := 0
  /-- Hash of the last block. -/
  previousRoot : Digest := Digest.zero
  /-- Number of events in a block. -/
  eventsPerBlock : Nat
  /-- Largest number of items in a batch. -/
  itemsPerBatch : Nat

/-- A block as it is handed out. -/
structure ProducedBlock where
  /-- Number of the block. -/
  number : UInt64
  /-- Hash of the block. -/
  hash : Digest
  /-- The items, in batches. -/
  batches : List Batch

/-- The number of items in a block. -/
def ProducedBlock.itemCount (block : ProducedBlock) : Nat := block.batches.flatten.length

namespace Producer

/-- A producer at the start of a chain. Batches hold at least one item. -/
def new (eventsPerBlock itemsPerBatch : Nat) : Producer :=
  { eventsPerBlock, itemsPerBatch := max itemsPerBatch 1 }

/-- The payload of an item: a tag, the number of its block, and its index there. -/
def payload (number : UInt64) (index : Nat) (tag : String) : Bytes :=
  tag.toUTF8.toList ++ Bytes.bigEndian 8 number.toNat ++ Bytes.bigEndian 8 index

/-- The items of an event. Every eighth event opens a round, and every third has an output. -/
def eventItems (number : UInt64) (event : Nat) : List Item :=
  (if event % eventsPerRound = 0 then [⟨.roundHeader, payload number event "round"⟩] else []) ++
    [⟨.eventHeader, payload number event "event"⟩, ⟨.eventTransaction, payload number event "tx"⟩,
      ⟨.transactionResult, payload number event "result"⟩] ++
    (if event % 3 = 0 then [⟨.transactionOutput, payload number event "output"⟩] else [])

/-- The time of a block: two seconds after the one before it. -/
def timestamp (number : UInt64) : Except Crash UInt64 :=
  let doubled := number.toNat * 2
  if UInt64.size ≤ doubled then .error .productOverflow
  else if UInt64.size ≤ 1700000000 + doubled then .error .sumOverflow
  else .ok (UInt64.ofNat (1700000000 + doubled))

/-- The items of a block before its proof. -/
def unprovenItems (producer : Producer) (header : BlockHeader) : List Item :=
  Item.ofHeader header ::
    ((List.range producer.eventsPerBlock).flatMap (eventItems header.number) ++
      [⟨.stateChanges, payload header.number 0 "state"⟩])

/-- Make the next block. If that fails, the producer stays as it is. -/
def next (producer : Producer) : Except (Fault ProducerError) (ProducedBlock × Producer) := do
  let number := producer.nextNumber
  let time ← orCrash (timestamp number)
  let items := producer.unprovenItems ⟨number, producer.previousRoot, time⟩
  let stateRoot := Digest.of (payload number 0 "state-root")
  let hash ← (blockHashOf items producer.previousRoot stateRoot).mapError
    (Fault.mapCause ProducerError.hashing)
  let proof : BlockProof := ⟨number, producer.previousRoot, stateRoot, hash.bytes⟩
  let block : ProducedBlock :=
    ⟨number, hash, chunksOf producer.itemsPerBatch (items ++ [Item.ofProof proof])⟩
  return (block, { producer with nextNumber := number + 1, previousRoot := hash })

/-- Make up to `count` blocks, one after the other. -/
def take : (count : Nat) → Producer → Except (Fault ProducerError) (List ProducedBlock × Producer)
  | 0, producer => .ok ([], producer)
  | count + 1, producer => do
    let (block, producer) ← producer.next
    let (blocks, producer) ← take count producer
    return (block :: blocks, producer)

end Producer

end BlockIntake
