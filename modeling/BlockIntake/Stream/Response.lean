import BlockIntake.Wire

/-!
# Responses to producers

For every block a producer hears one of two things: an acknowledgement with the block's root, or
the end of its stream with a code.
-/

namespace BlockIntake

/-- Why a stream ended. -/
inductive EndCode where
  /-- No reason is known. -/
  | unknown
  /-- The stream ended as planned. -/
  | success
  /-- Items took too long to arrive. -/
  | timeout
  /-- Items arrived out of order. -/
  | outOfOrder
  /-- The proof did not fit the items. -/
  | badStateProof
  /-- The node is behind the producer. -/
  | behind
  /-- The node failed. -/
  | internalError
  /-- The block could not be stored. -/
  | persistenceFailed
deriving DecidableEq

namespace EndCode

/-- Every code, in the order of the written form. -/
def all : List EndCode :=
  [unknown, success, timeout, outOfOrder, badStateProof, behind, internalError, persistenceFailed]

/-- The name of a code. -/
def name : EndCode → String
  | unknown => "StreamItemsUnknown"
  | success => "StreamItemsSuccess"
  | timeout => "StreamItemsTimeout"
  | outOfOrder => "StreamItemsOutOfOrder"
  | badStateProof => "StreamItemsBadStateProof"
  | behind => "StreamItemsBehind"
  | internalError => "StreamItemsInternalError"
  | persistenceFailed => "StreamItemsPersistenceFailed"

/-- The code of a name. -/
def ofName? (name : String) : Option EndCode := all.find? (·.name == name)

/-- No code is missing from the list of all codes. -/
theorem mem_all (code : EndCode) : code ∈ all := by cases code <;> decide

end EndCode

/-- The acknowledgement of a verified block. -/
structure Acknowledgement where
  /-- Number of the block. -/
  block : UInt64
  /-- Root of the block. -/
  root : Digest
  /-- Whether the block had been stored before. -/
  alreadyExists : Bool
deriving DecidableEq

/-- The end of a stream. -/
structure EndOfStream where
  /-- Number of the block at which the stream ended. -/
  block : UInt64
  /-- Why it ended. -/
  code : EndCode
deriving DecidableEq

/-- What a producer hears about a block. -/
inductive Response where
  /-- The block was verified. -/
  | acknowledged (ack : Acknowledgement)
  /-- The stream ended. -/
  | ended (eos : EndOfStream)
deriving DecidableEq

/-- The block a response is about. -/
def Response.block : Response → UInt64
  | .acknowledged ack => ack.block
  | .ended eos => eos.block

end BlockIntake
