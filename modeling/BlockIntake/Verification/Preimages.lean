import BlockIntake.Verification.BlockHash

/-!
# What is hashed for a block hash

The byte strings that the computation of a block hash hands to the hash function: the written
items, the strings behind the table of empty roots, the pairs in the two trees, and the three pairs
at the end.
-/

namespace BlockIntake

open Merkle

/-- The bytes that are hashed to join two digests. -/
def joinedBytes (left right : Digest) : Bytes := left.bytes ++ right.bytes

/-- What is hashed to pair the hashes of one height. -/
def pairPreimages (pad : Digest) : List Digest → List Bytes
  | left :: right :: rest => joinedBytes left right :: pairPreimages pad rest
  | [left] => [joinedBytes left pad]
  | [] => []

/-- What is hashed to combine the hashes of a height until one is left. -/
def climbPreimages (height : Nat) : List Digest → List Bytes
  | [] => []
  | [_] => []
  | left :: right :: rest =>
    let pad := emptyRoot height
    pairPreimages pad (left :: right :: rest) ++
      climbPreimages (height + 1) (pairUp pad (left :: right :: rest))
termination_by hashes => hashes.length
decreasing_by simp only [length_pairUp, List.length_cons]; omega

/-- What is hashed for the table of empty roots. -/
def emptyPreimages : List Bytes :=
  [] :: (List.range (maxDepth - 1)).map fun height =>
    joinedBytes (emptyRoot height) (emptyRoot height)

/-- The leaves of a side of a block. -/
def leavesOn (side : Side) (items : Batch) : List Digest := (itemsOn side items).map Item.leafHash

/-- What is hashed on a side of a block: the written items and the pairs in the tree. -/
def sidePreimages (side : Side) (items : Batch) : List Bytes :=
  (itemsOn side items).map Record.encode ++ climbPreimages 0 (leavesOn side items)

/-- What is hashed to join four roots. -/
def composePreimages (previousRoot stateRoot inputRoot outputRoot : Digest) : List Bytes :=
  let front := joinedBytes previousRoot inputRoot
  let back := joinedBytes outputRoot stateRoot
  [front, back, joinedBytes (Digest.of front) (Digest.of back)]

/-- Everything that is hashed for a block hash. -/
def blockPreimages (items : Batch) (previousRoot stateRoot : Digest) : List Bytes :=
  let last := match LeafTree.rootOf (leavesOn .input items),
      LeafTree.rootOf (leavesOn .output items) with
    | .ok inputRoot, .ok outputRoot => composePreimages previousRoot stateRoot inputRoot outputRoot
    | _, _ => []
  emptyPreimages ++ sidePreimages .input items ++ sidePreimages .output items ++ last

/-- Whether the hash function tells the given byte strings apart. -/
def NoCollision (strings : List Bytes) : Prop :=
  ∀ first ∈ strings, ∀ second ∈ strings, Digest.of first = Digest.of second → first = second

end BlockIntake
