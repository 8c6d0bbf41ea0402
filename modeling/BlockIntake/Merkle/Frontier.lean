import BlockIntake.Merkle.Pairing
import BlockIntake.PowerOfTwo

/-!
# The right frontier of a tree

The frontier of a growing tree holds, for every height, the hash that still waits for a right
sibling, if there is one. Together with one more leaf it determines the root of the tree that ends
with that leaf: walking up from the leaf, a waiting hash is the left sibling, and where none waits
the new subtree is a left child whose sibling is empty.
-/

namespace BlockIntake.Merkle

/-- The frontier of a tree with a given number of leaves. -/
structure Frontier where
  /-- Number of leaves. -/
  leafCount : UInt64
  /-- The hash waiting at each height, from the leaves upwards. -/
  waiting : List (Option Digest)
deriving DecidableEq

/-- The frontier of a tree without leaves. -/
def Frontier.empty : Frontier := ⟨0, []⟩

/-- The height of the root over the given number of leaves. The power of two that bounds the leaves
is a 64-bit integer, so more than `2 ^ 63` leaves overflow. -/
def rootHeight (leaves : Nat) : Except Crash Nat :=
  if leaves ≤ powerOfTwo 63 then .ok (ceilLog2 leaves) else .error .sumOverflow

/-- The successor of a number of leaves, as a 64-bit integer. -/
def countSucc (leaves : UInt64) : Except Crash Nat :=
  if leaves.toNat + 1 < UInt64.size then .ok (leaves.toNat + 1) else .error .sumOverflow

/-- Join a hash with the frontier entries from a height upwards. -/
def joinFrontier : (height : Nat) → List (Option Digest) → Digest → Except Crash Digest
  | _, [], hash => .ok hash
  | height, some left :: rest, hash => joinFrontier (height + 1) rest (left.combine hash)
  | height, none :: rest, hash => do
    let pad ← emptyRootAt height
    joinFrontier (height + 1) rest (hash.combine pad)

/-- The root of the tree described by the frontier after one more leaf. -/
def Frontier.rootWith (frontier : Frontier) (leaf : Digest) : Except TreeFault Digest := do
  let leaves ← orCrash (countSucc frontier.leafCount)
  let height ← orCrash (rootHeight leaves)
  if frontier.waiting.length < height then
    throw (.refused (.shortFrontier frontier.leafCount.toNat frontier.waiting.length height))
  orCrash (joinFrontier 0 (frontier.waiting.take height) leaf)

end BlockIntake.Merkle
