/-!
# Powers of two

Powers of two as shifted ones, and the least of them that bounds a number.
-/

namespace BlockIntake

/-- The power of two with a given exponent. -/
def powerOfTwo (exponent : Nat) : Nat := 1 <<< exponent

theorem powerOfTwo_zero : powerOfTwo 0 = 1 := rfl

theorem powerOfTwo_succ (exponent : Nat) : powerOfTwo (exponent + 1) = 2 * powerOfTwo exponent :=
  Nat.shiftLeft_succ 1 exponent

/-- A higher power of two is at least as large. -/
theorem powerOfTwo_le {height other : Nat} (h : height ≤ other) :
    powerOfTwo height ≤ powerOfTwo other := by
  rw [powerOfTwo, powerOfTwo, Nat.one_shiftLeft, Nat.one_shiftLeft]
  exact Nat.pow_le_pow_right (by decide) h

/-- The least `height` whose power of two bounds `n`. -/
def ceilLog2 (n : Nat) : Nat := if n ≤ 1 then 0 else (n - 1).log2 + 1

/-- The power of two at that height bounds the number. -/
theorem le_powerOfTwo_ceilLog2 (n : Nat) : n ≤ powerOfTwo (ceilLog2 n) := by
  unfold ceilLog2 powerOfTwo
  rw [Nat.one_shiftLeft]
  split
  · rename_i h
    exact h
  · have h := Nat.lt_log2_self (n := n - 1)
    omega

/-- No power of two at a smaller height bounds the number. -/
theorem ceilLog2_le_of_le_powerOfTwo {n height : Nat} (h : n ≤ powerOfTwo height) :
    ceilLog2 n ≤ height := by
  unfold powerOfTwo at h
  rw [Nat.one_shiftLeft] at h
  unfold ceilLog2
  split
  · exact Nat.zero_le height
  · have hlog : (n - 1).log2 < height := (Nat.log2_lt (by omega)).mpr (by omega)
    omega

end BlockIntake
