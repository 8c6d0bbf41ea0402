import BlockIntake.Ed25519.Point
import BlockIntake.Sha2

/-!
# Strict verification of Ed25519 signatures

A signature is a point `R` and a number `S`. It is valid for a key `A` and a message if
`S B = R + k A`, where `B` is the base point and `k` comes from the SHA-512 hash of `R`, `A` and the
message. The strict check also refuses an `S` that is not reduced and points `R` and `A` of small
order, with which one signature could be valid for several messages or keys.
-/

namespace BlockIntake.Ed25519

/-- The prime order of the base point. -/
def groupOrder : Nat := powerOfTwo 252 + 27742317777372353535851937790883648493

/-- A public key: the bytes it was given as and the point they stand for. -/
structure PublicKey where
  /-- The 32 bytes of the key. -/
  bytes : Bytes
  /-- The point they stand for. -/
  point : Point

/-- The key written in 32 bytes, if they stand for a point. -/
def PublicKey.ofBytes? (bytes : Bytes) : Option PublicKey :=
  (Point.ofBytes? bytes).map fun point => ⟨bytes, point⟩

/-- The factor that ties a signature to the key and the message. -/
def challenge (r key message : Bytes) : Nat :=
  Bytes.littleEndianValue (Sha2.sha512 (r ++ key ++ message)) % groupOrder

/-- Whether a signature is valid for a key and a message, by the strict rules. -/
def PublicKey.verify (key : PublicKey) (message signature : Bytes) : Bool :=
  let r := signature.take 32
  let s := Bytes.littleEndianValue (signature.drop 32)
  if signature.length ≠ 64 ∨ groupOrder ≤ s then false
  else
    match Point.ofBytes? r with
    | none => false
    | some point =>
      if point.isWeak || key.point.isWeak then false
      else
        let k := challenge r key.bytes message
        ((Point.base.mul s).add (key.point.neg.mul k)).same point

end BlockIntake.Ed25519
