import BlockIntake.PowerOfTwo

/-!
# The field of Curve25519

Arithmetic modulo the prime `2 ^ 255 - 19`. Square roots of quotients exist for half of the
quotients; of the two roots the even one is taken.
-/

namespace BlockIntake.Ed25519

/-- The order of the field. -/
def prime : Nat := powerOfTwo 255 - 19

instance : @NeZero Nat Zero.ofOfNat0 prime := ⟨by decide⟩

/-- An element of the field. -/
abbrev Field := Fin prime

namespace Field

/-- The residue of a number. -/
def ofNat (n : Nat) : Field := Fin.ofNat prime n

/-- A power of an element, for an exponent below `2 ^ 256`. -/
def pow (x : Field) (exponent : Nat) : Field :=
  (List.range 256).foldr
    (fun bit acc => if exponent.testBit bit then acc * acc * x else acc * acc) 1

/-- The inverse of an element; zero is sent to itself. -/
def inverse (x : Field) : Field := pow x (prime - 2)

/-- A square root of minus one. -/
def sqrtMinusOne : Field := pow 2 ((prime - 1) / 4)

/-- Whether the residue of an element is odd, which tells an element from its negative. -/
def isOdd (x : Field) : Bool := x.val % 2 == 1

/-- The even one of an element and its negative. -/
def even (x : Field) : Field := if isOdd x then -x else x

/-- The even square root of `u / v`, if there is one. -/
def sqrtRatio (u v : Field) : Option Field :=
  let v3 := v * v * v
  let v7 := v3 * v3 * v
  let root := u * v3 * pow (u * v7) ((prime - 5) / 8)
  let check := v * root * root
  if check = u then some (even root)
  else if check = -u then some (even (root * sqrtMinusOne))
  else none

end Field

end BlockIntake.Ed25519
