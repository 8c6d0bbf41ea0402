import BlockIntake.Merkle.TreeError
import BlockIntake.Stream.Response

/-!
# Why a verification fails

Every failure of a verification maps to the code that ends the producer's stream: failures of the
proof end it as a bad proof, everything else as an error of the node.
-/

namespace BlockIntake

open Merkle

/-- Why a block was not verified. -/
inductive VerificationError where
  /-- Something handed in is unusable. -/
  | invalidInput (reason : String)
  /-- An operation does not fit the state it meets. -/
  | illegalState (reason : String)
  /-- The payload of an item cannot be read. -/
  | parseFailure (item reason : String)
  /-- The signature does not fit the block hash, given by its first digits. -/
  | signatureMismatch (block : UInt64) (hash : String)
  /-- The proof is for another block. -/
  | blockMismatch (session proof : UInt64)
  /-- Nothing can be done about it. -/
  | unrecoverable (reason : String)
deriving DecidableEq

namespace VerificationError

/-- The wording of a failure. -/
def message : VerificationError → String
  | .invalidInput reason => s!"Invalid input: {reason}"
  | .illegalState reason => s!"Illegal state: {reason}"
  | .parseFailure item reason => s!"Failed to parse {item}: {reason}"
  | .signatureMismatch block hash =>
    let number := block.toNat
    s!"Signature mismatch for block {number} (hash {hash})"
  | .blockMismatch session proof =>
    let received := proof.toNat
    let expected := session.toNat
    s!"Proof for block {received} received by session for block {expected}"
  | .unrecoverable reason => s!"Unrecoverable error: {reason}"

/-- The code a failure ends the stream with. -/
def code : VerificationError → EndCode
  | .parseFailure .. | .signatureMismatch .. | .blockMismatch .. => .badStateProof
  | .invalidInput _ | .illegalState _ | .unrecoverable _ => .internalError

/-- The refusal of a tree as a failure of the verification. -/
def ofTree : TreeError → VerificationError
  | .invalidArgument reason => .invalidInput reason
  | .illegalState reason => .illegalState reason
  | cause => .unrecoverable cause.message

/-- The failure a crash during the processing of a batch counts as. -/
def ofCrash (crash : Crash) : VerificationError :=
  .unrecoverable s!"panic while processing block items: {crash.report}"

/-- The failure a batch lost to a full queue counts as. -/
def overflow (capacity : Nat) : VerificationError :=
  .unrecoverable s!"session queue overflowed ({capacity} batches)"

/-- No refusal of a tree blames the proof. -/
theorem code_ofTree (cause : TreeError) : (ofTree cause).code = .internalError := by
  cases cause <;> rfl

end VerificationError

/-- Why a step of a verification gives no answer. -/
abbrev VerificationFault := Fault VerificationError

/-- How the verification of a block ended. -/
inductive Outcome where
  /-- The block has this hash and a valid signature. -/
  | verified (hash : Digest)
  /-- The verification failed, and the stream ended with the code. -/
  | failed (error : VerificationError) (code : EndCode)
deriving DecidableEq

/-- The final result of a session. -/
structure VerificationResult where
  /-- Number of the block. -/
  block : UInt64
  /-- How it ended. -/
  outcome : Outcome
deriving DecidableEq

namespace VerificationResult

/-- The result of a verified block. -/
def verified (block : UInt64) (hash : Digest) : VerificationResult := ⟨block, .verified hash⟩

/-- The result of a failed block. -/
def failed (block : UInt64) (error : VerificationError) : VerificationResult :=
  ⟨block, .failed error error.code⟩

/-- The hash of a verified block. -/
def hash? (result : VerificationResult) : Option Digest :=
  match result.outcome with
  | .verified hash => some hash
  | .failed .. => none

/-- Whether the block was verified. -/
def isVerified (result : VerificationResult) : Bool := result.hash?.isSome

end VerificationResult

end BlockIntake
