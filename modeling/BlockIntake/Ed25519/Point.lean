import BlockIntake.Bytes
import BlockIntake.Ed25519.Field

/-!
# Points of the twisted Edwards curve

The curve is `-x² + y² = 1 + d x² y²`. A point is kept in four coordinates `(X : Y : Z : T)` with
`x = X / Z`, `y = Y / Z` and `X Y = Z T`, in which one formula adds any two points. Written down, a
point is its `y` in 32 bytes with the parity of `x` in the top bit.
-/

namespace BlockIntake.Ed25519

/-- The constant `d = -121665 / 121666` of the curve. -/
def curveConstant : Field := -(Field.ofNat 121665) * Field.inverse (Field.ofNat 121666)

/-- A point in extended coordinates. -/
structure Point where
  /-- The numerator of the first coordinate. -/
  x : Field
  /-- The numerator of the second coordinate. -/
  y : Field
  /-- The common denominator. -/
  z : Field
  /-- The product of the numerators over the denominator. -/
  t : Field

namespace Point

/-- The neutral element. -/
def identity : Point := ⟨0, 1, 1, 0⟩

/-- The sum of two points. -/
def add (p q : Point) : Point :=
  let a := (p.y - p.x) * (q.y - q.x)
  let b := (p.y + p.x) * (q.y + q.x)
  let c := (curveConstant + curveConstant) * p.t * q.t
  let d := (p.z + p.z) * q.z
  let e := b - a
  let f := d - c
  let g := d + c
  let h := b + a
  ⟨e * f, g * h, f * g, e * h⟩

/-- The negative of a point. -/
def neg (p : Point) : Point := ⟨-p.x, p.y, p.z, -p.t⟩

/-- A multiple of a point, for a factor below `2 ^ 256`. -/
def mul (factor : Nat) (p : Point) : Point :=
  (List.range 256).foldr
    (fun bit acc =>
      let double := acc.add acc
      if factor.testBit bit then double.add p else double)
    identity

/-- Whether two points have the same coordinates. -/
def same (p q : Point) : Bool := p.x * q.z = q.x * p.z ∧ p.y * q.z = q.y * p.z

/-- Whether a point has one of the orders 1, 2, 4 and 8. -/
def isWeak (p : Point) : Bool := (mul 8 p).same identity

/-- The point written in 32 bytes, if there is one. A second coordinate beyond the prime stands for
its residue, and the parity bit may be set even where the first coordinate is zero. -/
def ofBytes? (bytes : Bytes) : Option Point :=
  let n := Bytes.littleEndianValue bytes
  let y := Field.ofNat (n % powerOfTwo 255)
  let y2 := y * y
  match Field.sqrtRatio (y2 - 1) (curveConstant * y2 + 1) with
  | none => none
  | some root =>
    let x := if n.testBit 255 then -root else root
    some ⟨x, y, 1, x * y⟩

/-- The base point, with second coordinate `4 / 5` and an even first coordinate. -/
def base : Point := (ofBytes? (0x58 :: List.replicate 31 0x66)).getD identity

end Point

end BlockIntake.Ed25519
