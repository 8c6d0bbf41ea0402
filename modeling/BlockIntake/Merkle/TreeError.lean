import BlockIntake.Digest
import BlockIntake.Fault
import BlockIntake.Merkle.Limits

/-!
# Refusals of a tree

A tree refuses a leaf that is too short, an operation after its root was requested, and a leaf
beyond its capacity. A root that is waited for can turn out to be cancelled.
-/

namespace BlockIntake.Merkle

/-- Why a tree refuses an operation. -/
inductive TreeError where
  /-- An argument is unusable. -/
  | invalidArgument (reason : String)
  /-- The operation does not fit the state of the tree. -/
  | illegalState (reason : String)
  /-- The tree is full. -/
  | capacityExceeded (max : Nat)
  /-- Nobody is left to deliver the root. -/
  | cancelled
  /-- The workers could not be started. -/
  | poolUnavailable (reason : String)
deriving DecidableEq

namespace TreeError

/-- The wording of a refusal. -/
def message : TreeError → String
  | .invalidArgument reason => s!"Invalid argument: {reason}"
  | .illegalState reason => s!"Illegal state: {reason}"
  | .capacityExceeded max => s!"Tree capacity exceeded: at most {max} leaves"
  | .cancelled => "Root hash computation was cancelled"
  | .poolUnavailable reason => s!"Worker pool initialization failed: {reason}"

/-- A leaf has fewer bytes than a digest. -/
def shortLeaf (length : Nat) : TreeError :=
  .invalidArgument s!"leaf must carry at least {digestSize} bytes, got {length}"

/-- A leaf came after the root was requested. -/
def leafAfterRoot : TreeError := .illegalState "cannot add leaves after requesting the root hash"

/-- The frontier was asked for after the root was requested. -/
def frontierAfterRoot : TreeError :=
  .illegalState "cannot take status after requesting the root hash"

/-- The root was requested twice. -/
def rootAlreadyRequested : TreeError := .illegalState "root hash already requested"

/-- The number of hashes combined at a time is zero or odd. -/
def batchSize (size : Nat) : TreeError :=
  .invalidArgument s!"hash combine batch size must be positive and even, got {size}"

/-- A frontier has fewer entries than the next root needs. -/
def shortFrontier (leaves present needed : Nat) : TreeError :=
  .invalidArgument s!"status of {leaves} leaves carries {present} frontier hashes, need {needed}"

end TreeError

/-- Why an operation on a tree gives no answer. -/
abbrev TreeFault := Fault TreeError

/-- The digest a leaf stands for: its first 48 bytes. -/
def readLeaf (leaf : Bytes) : Except TreeError Digest :=
  match Digest.ofBytes? (leaf.take digestSize) with
  | some d => .ok d
  | none => .error (.shortLeaf leaf.length)

end BlockIntake.Merkle
