import BlockIntake.Merkle.TreeHasher
import BlockIntake.Stream.Record
import BlockIntake.Verification.Error

/-!
# The hash of a block

The items of a block fall on two sides: what went into it and what came out of it. Each side has a
tree whose leaves are the hashes of the written items; items on neither side are not hashed. The
block hash joins the root of the previous block, the two tree roots and the root of the state at
the start of the block.
-/

namespace BlockIntake

open Merkle

/-- The side of a block an item is hashed on. -/
inductive Side where
  /-- What went into the block. -/
  | input
  /-- What came out of it. -/
  | output
deriving DecidableEq

/-- The name of a side. -/
def Side.name : Side → String
  | .input => "Input"
  | .output => "Output"

/-- The side of a kind of item, if it is hashed. -/
def ItemKind.side? : ItemKind → Option Side
  | .eventHeader | .eventTransaction | .roundHeader => some .input
  | .transactionOutput | .stateChanges | .transactionResult | .blockHeader => some .output
  | .filteredItemHash | .recordFile | .blockProof => none

/-- The hash an item is a leaf as. -/
def Item.leafHash (item : Item) : Digest := Digest.of (Record.encode item)

/-- The items of a batch on a side, in order. -/
def itemsOn (side : Side) (items : Batch) : Batch := items.filter (·.kind.side? == some side)

/-- Join the four roots of a block. -/
def composeBlockHash (previousRoot stateRoot inputRoot outputRoot : Digest) : Digest :=
  (previousRoot.combine inputRoot).combine (outputRoot.combine stateRoot)

/-- The block hash that belongs to a proof and two tree roots. -/
def BlockProof.blockHash (proof : BlockProof) (inputRoot outputRoot : Digest) : Digest :=
  composeBlockHash proof.previousRoot proof.stateRoot inputRoot outputRoot

/-- The refusal of a tree as a fault of the verification. -/
def ofTreeFault {α : Type} : Except TreeFault α → Except VerificationFault α :=
  Except.mapError (Fault.mapCause VerificationError.ofTree)

/-- The two trees of a block. -/
structure BlockTrees (σ : Type) where
  /-- The tree of the input side. -/
  inputs : σ
  /-- The tree of the output side. -/
  outputs : σ

namespace BlockTrees

variable {σ : Type} [TreeHasher σ]

/-- Append the leaf of an item to the tree of its side; an item on neither side changes nothing. -/
def add (trees : BlockTrees σ) (item : Item) : Except VerificationFault (BlockTrees σ) :=
  match item.kind.side? with
  | some .input => do
    let inputs ← ofTreeFault (TreeHasher.add trees.inputs item.leafHash.bytes)
    return { trees with inputs }
  | some .output => do
    let outputs ← ofTreeFault (TreeHasher.add trees.outputs item.leafHash.bytes)
    return { trees with outputs }
  | none => .ok trees

/-- Append the leaves of items, in order, up to the first that fails. -/
def addAll (trees : BlockTrees σ) (items : Batch) : Except VerificationFault (BlockTrees σ) :=
  items.foldlM add trees

/-- The roots of both trees. Both are requested before either is waited for. -/
def roots (trees : BlockTrees σ) : Except VerificationFault (Digest × Digest) := do
  let input ← ofTreeFault (TreeHasher.root trees.inputs)
  let output ← ofTreeFault (TreeHasher.root trees.outputs)
  return (← ofTreeFault input, ← ofTreeFault output)

end BlockTrees

/-- The hash of a complete block, computed in one go. This is what a producer signs. -/
def blockHashOf (items : Batch) (previousRoot stateRoot : Digest) :
    Except VerificationFault Digest := do
  let empty : BlockTrees LeafTree := ⟨{}, {}⟩
  let trees ← empty.addAll items
  let (inputRoot, outputRoot) ← trees.roots
  return composeBlockHash previousRoot stateRoot inputRoot outputRoot

end BlockIntake
