/-!
# Byte strings, fixed-width integers and hexadecimal text

A byte string is a list of bytes. An integer of a fixed width is written with its least
significant byte first (the order of the record format) or its most significant byte first (the
order of digests and payload counters). The two conversions are inverse to each other, so an
integer below `256 ^ width` survives the round trip and so does every byte string.
-/

namespace BlockIntake

/-- A byte string. -/
abbrev Bytes := List UInt8

namespace Bytes

/-- The `width` least significant bytes of `n`, least significant first. -/
def littleEndian : (width : Nat) → (n : Nat) → Bytes
  | 0, _ => []
  | width + 1, n => UInt8.ofNat n :: littleEndian width (n / 256)

/-- The number whose base-256 digits are the given bytes, least significant first. -/
def littleEndianValue : Bytes → Nat
  | [] => 0
  | b :: bs => b.toNat + 256 * littleEndianValue bs

/-- The `width` least significant bytes of `n`, most significant first. -/
def bigEndian (width n : Nat) : Bytes := (littleEndian width n).reverse

/-- An integer takes exactly the width it is written with. -/
@[simp] theorem length_littleEndian (width n : Nat) : (littleEndian width n).length = width := by
  induction width generalizing n with
  | zero => rfl
  | succ width ih => simp [littleEndian, ih]

/-- The big-endian form has the same width. -/
@[simp] theorem length_bigEndian (width n : Nat) : (bigEndian width n).length = width := by
  simp [bigEndian]

/-- Every byte string is the written form of the number it denotes. -/
theorem littleEndian_littleEndianValue (bs : Bytes) :
    littleEndian bs.length (littleEndianValue bs) = bs := by
  induction bs with
  | nil => rfl
  | cons b bs ih =>
    have hb : b.toNat < 256 := b.toNat_lt
    have hdiv : (b.toNat + 256 * littleEndianValue bs) / 256 = littleEndianValue bs := by omega
    have hhead : UInt8.ofNat (b.toNat + 256 * littleEndianValue bs) = b := by
      apply UInt8.toNat_inj.mp
      simp only [UInt8.toNat_ofNat']
      omega
    simp only [List.length_cons, littleEndianValue, littleEndian, hdiv, hhead, ih]

/-- The two lower-case hexadecimal digits of a byte. -/
def hexDigits (b : UInt8) : List Char :=
  [Nat.digitChar (b.toNat / 16), Nat.digitChar (b.toNat % 16)]

/-- The lower-case hexadecimal text of a byte string. -/
def hex (bs : Bytes) : String := String.ofList (bs.flatMap hexDigits)

/-- The hexadecimal text of at most the first eight bytes, used to name a hash in messages. -/
def shortHex (bs : Bytes) : String := hex (bs.take 8)

end Bytes

end BlockIntake
