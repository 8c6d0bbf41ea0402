import BlockIntake.Merkle.Frontier

/-!
# The tree that keeps its leaves

This tree stores every leaf and hashes level by level when its root or its frontier is asked for.
Requesting the root closes the tree.
-/

namespace BlockIntake.Merkle

/-- An operation on a tree. -/
inductive TreeOp where
  /-- Append a leaf. -/
  | add (leaf : Bytes)
  /-- Take the frontier. -/
  | frontier
  /-- Count the leaves. -/
  | count
  /-- Close the tree and request its root. -/
  | root

/-- The immediate answer to an operation. A requested root is delivered separately. -/
inductive TreeAnswer where
  /-- The leaf was appended, or the root was requested. -/
  | accepted
  /-- The frontier. -/
  | frontier (frontier : Frontier)
  /-- The number of leaves. -/
  | count (leaves : Nat)
  /-- No answer. -/
  | fault (fault : TreeFault)
deriving DecidableEq

/-- A tree that keeps its leaves. -/
structure LeafTree where
  /-- The leaves, in order. -/
  leaves : Array Digest := #[]
  /-- Whether the root was requested. -/
  closed : Bool := false
  /-- The roots delivered so far. -/
  roots : List Digest := []

namespace LeafTree

/-- Combine the hashes of a height until one is left; the result is its height and the hash. No
hashes at all count as one empty leaf. -/
def climb (height : Nat) : List Digest → Except Crash (Nat × Digest)
  | [] => .ok (height, emptyRoot 0)
  | [root] => .ok (height, root)
  | left :: right :: rest => do
    let pad ← padFor height (left :: right :: rest)
    climb (height + 1) (pairUp pad (left :: right :: rest))
termination_by hashes => hashes.length
decreasing_by simp only [length_pairUp, List.length_cons]; omega

/-- The root over the given leaves. -/
def rootOf (leaves : List Digest) : Except Crash Digest := return (← climb 0 leaves).2

/-- Take an odd last hash away from the hashes of a height. -/
def splitOdd (hashes : List Digest) : Option Digest × List Digest :=
  if hashes.length % 2 = 1 then (hashes.getLast?, hashes.dropLast) else (none, hashes)

/-- The frontier entries of `count` heights, from the given height upwards. A hash without a
sibling stays at its height. -/
def frontierUp : (count height : Nat) → List Digest → Except Crash (List (Option Digest))
  | 0, _, _ => .ok []
  | count + 1, height, hashes => do
    let (waiting, paired) := splitOdd hashes
    let next ← combinePairs height paired
    return waiting :: (← frontierUp count (height + 1) next)

/-- The frontier over the given leaves. -/
def frontierOf (leaves : List Digest) : Except Crash Frontier :=
  if leaves.isEmpty then .ok Frontier.empty
  else do
    let stop ← rootHeight (leaves.length + 1)
    return ⟨UInt64.ofNat leaves.length, ← frontierUp stop 0 leaves⟩

/-- The hash a leaf would be appended as: the tree has to be open, the leaf long enough, and there
has to be room, in this order. -/
def accept (tree : LeafTree) (leaf : Bytes) : Except TreeFault Digest := do
  if tree.closed then throw (.refused .leafAfterRoot)
  let hash ← orRefuse (readLeaf leaf)
  if maxLeaves ≤ tree.leaves.size then throw (.refused (.capacityExceeded maxLeaves))
  return hash

/-- Append a hash. -/
def push (tree : LeafTree) (hash : Digest) : LeafTree :=
  { tree with leaves := tree.leaves.push hash }

/-- Append a leaf. -/
def add (tree : LeafTree) (leaf : Bytes) : Except TreeFault LeafTree :=
  return tree.push (← tree.accept leaf)

/-- The frontier of an open tree. -/
def frontier (tree : LeafTree) : Except TreeFault Frontier := do
  if tree.closed then throw (.refused .frontierAfterRoot)
  orCrash (frontierOf tree.leaves.toList)

/-- Close the tree and deliver its root. -/
def requestRoot (tree : LeafTree) : Except TreeFault LeafTree := do
  if tree.closed then throw (.refused .rootAlreadyRequested)
  let root ← orCrash (rootOf tree.leaves.toList)
  return { tree with closed := true, roots := tree.roots ++ [root] }

/-- Perform an operation. -/
def perform (tree : LeafTree) : TreeOp → TreeAnswer × LeafTree
  | .add leaf =>
    match tree.accept leaf with
    | .ok hash => (.accepted, tree.push hash)
    | .error fault => (.fault fault, tree)
  | .frontier =>
    match tree.frontier with
    | .ok frontier => (.frontier frontier, tree)
    | .error fault => (.fault fault, tree)
  | .count => (.count tree.leaves.size, tree)
  | .root =>
    match tree.requestRoot with
    | .ok tree => (.accepted, tree)
    | .error fault => (.fault fault, tree)

/-- Perform operations in order and collect the answers. -/
def play (tree : LeafTree) : List TreeOp → List TreeAnswer × LeafTree
  | [] => ([], tree)
  | op :: ops =>
    let (answer, tree) := tree.perform op
    let (answers, tree) := tree.play ops
    (answer :: answers, tree)

end LeafTree

end BlockIntake.Merkle
