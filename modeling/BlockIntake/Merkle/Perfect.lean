import BlockIntake.Merkle.Frontier

/-!
# Perfect trees

In a perfect tree every leaf stands at the same depth, so a tree of height `h` has `2 ^ h` leaves
and every node above them joins two perfect trees of one size. A list of leaves is filled up with
empty leaves to a perfect tree.
-/

namespace BlockIntake.Merkle

/-- The root of the perfect tree of a height over the leaves from an index on. -/
def subtreeRoot (leaf : Nat → Digest) : (height start : Nat) → Digest
  | 0, start => leaf start
  | height + 1, start =>
    (subtreeRoot leaf height start).combine (subtreeRoot leaf height (start + powerOfTwo height))

/-- The leaf at an index. Past the end of the list every leaf is empty. -/
def leafAt (leaves : List Digest) (index : Nat) : Digest := leaves.getD index (emptyRoot 0)

/-- The root of the perfect tree of a height over a list of leaves. -/
def perfectRoot (height : Nat) (leaves : List Digest) : Digest :=
  subtreeRoot (leafAt leaves) height 0

end BlockIntake.Merkle
