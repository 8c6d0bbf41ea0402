import BlockIntake.Ed25519.Signature
import BlockIntake.Verification.Session

/-!
# Checks of a block's signature

Two checks are used in earnest: the signature repeats the block hash, or it is a strict Ed25519
signature of it. The others always give the same answer or crash, to try how a session copes.
-/

namespace BlockIntake

namespace Verifier

/-- The signature has to be the block hash itself. -/
def hashEcho : Verifier := fun hash signature => .ok (signature == hash.bytes)

/-- The signature has to be a strict Ed25519 signature of the block hash. -/
def ed25519 (key : Ed25519.PublicKey) : Verifier := fun hash signature =>
  .ok (key.verify hash.bytes signature)

/-- The check for an Ed25519 key given by its bytes. -/
def ed25519OfBytes (bytes : Bytes) : Except VerificationError Verifier :=
  match Ed25519.PublicKey.ofBytes? bytes with
  | some key => .ok (ed25519 key)
  | none => .error (.invalidInput
      "invalid ed25519 public key: signature error: Cannot decompress Edwards point")

/-- Every signature is as good as the others. -/
def always (answer : Bool) : Verifier := fun _ _ => .ok answer

/-- Crash with a fixed text. -/
def crashing : Verifier := fun _ _ => .error (.collaborator (some "signature backend crashed"))

/-- Crash with a text that names the block hash. -/
def crashingOnHash : Verifier := fun hash _ =>
  let start := Bytes.hex (hash.bytes.take 2)
  .error (.collaborator (some s!"signature backend crashed on {start}"))

/-- Crash without a readable text. -/
def crashingSilently : Verifier := fun _ _ => .error (.collaborator none)

end Verifier

end BlockIntake
