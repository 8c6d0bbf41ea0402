import BlockIntake.Bytes
import Mathlib.Algebra.Ring.Nat

/-!
# The range of fixed-width integers

An integer of a given width in bytes lies below the power of 256 with that exponent, and writing an
integer at a width keeps its residue modulo that power.
-/

namespace BlockIntake.Bytes

/-- A byte string of length `k` denotes a number below `256 ^ k`. -/
theorem littleEndianValue_lt (bs : Bytes) : littleEndianValue bs < 256 ^ bs.length := by
  induction bs with
  | nil => simp [littleEndianValue]
  | cons b bs ih =>
    have hb : b.toNat < 256 := b.toNat_lt
    simp only [littleEndianValue, List.length_cons, pow_succ]
    omega

/-- Reading back a written integer gives its residue at that width. -/
theorem littleEndianValue_littleEndian (width n : Nat) :
    littleEndianValue (littleEndian width n) = n % 256 ^ width := by
  induction width generalizing n with
  | zero => simp [littleEndian, littleEndianValue, Nat.mod_one]
  | succ width ih =>
    have hsplit : n % 256 ^ (width + 1) = n % 256 + 256 * (n / 256 % 256 ^ width) := by
      rw [pow_succ', Nat.mod_mul]
    simp [littleEndian, littleEndianValue, ih, hsplit]

end BlockIntake.Bytes
