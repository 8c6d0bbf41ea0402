import BlockIntake.Wire

/-!
# Items of the block stream

A block arrives as a sequence of items, each a kind with a payload that stays unparsed. Two kinds
matter for the life of a block: its header opens it and its proof closes it.
-/

namespace BlockIntake

/-- What the payload of an item represents. -/
inductive ItemKind where
  /-- Opens a block. -/
  | blockHeader
  /-- Opens an event. -/
  | eventHeader
  /-- Opens a round. -/
  | roundHeader
  /-- A transaction of an event. -/
  | eventTransaction
  /-- The result of a transaction. -/
  | transactionResult
  /-- The output of a transaction. -/
  | transactionOutput
  /-- Changes to the state. -/
  | stateChanges
  /-- The hash standing in for an item left out. -/
  | filteredItemHash
  /-- A record file of the older format. -/
  | recordFile
  /-- Closes a block. -/
  | blockProof
deriving DecidableEq

namespace ItemKind

/-- Every kind, in the order of the written form. -/
def all : List ItemKind :=
  [blockHeader, eventHeader, roundHeader, eventTransaction, transactionResult, transactionOutput,
    stateChanges, filteredItemHash, recordFile, blockProof]

/-- The name of a kind. -/
def name : ItemKind → String
  | blockHeader => "BlockHeader"
  | eventHeader => "EventHeader"
  | roundHeader => "RoundHeader"
  | eventTransaction => "EventTransaction"
  | transactionResult => "TransactionResult"
  | transactionOutput => "TransactionOutput"
  | stateChanges => "StateChanges"
  | filteredItemHash => "FilteredItemHash"
  | recordFile => "RecordFile"
  | blockProof => "BlockProof"

/-- The kind of a name. -/
def ofName? (name : String) : Option ItemKind := all.find? (·.name == name)

/-- No kind is missing from the list of all kinds. -/
theorem mem_all (kind : ItemKind) : kind ∈ all := by cases kind <;> decide

end ItemKind

/-- One item of the block stream. -/
structure Item where
  /-- What the payload represents. -/
  kind : ItemKind
  /-- The unparsed payload. -/
  payload : Bytes
deriving DecidableEq

/-- The header that opens a block. -/
structure BlockHeader where
  /-- Block number. -/
  number : UInt64
  /-- Root of the previous block. -/
  previousRoot : Digest
  /-- Consensus time of the block, in seconds. -/
  timestamp : UInt64
deriving DecidableEq

/-- The proof that closes a block. -/
structure BlockProof where
  /-- Number of the block it closes. -/
  block : UInt64
  /-- Root of the previous block. -/
  previousRoot : Digest
  /-- Root of the state at the start of the block. -/
  stateRoot : Digest
  /-- Signature over the block hash. -/
  signature : Bytes
deriving DecidableEq

/-- A list of items handed over together. -/
abbrev Batch := List Item

end BlockIntake
