import BlockIntake.Merkle.Schedule

/-!
# Trees a session can use

A session appends leaves to a tree and at the end asks for its root. Requesting the root and
waiting for it can both fail. Any type with these operations serves: the tree that keeps its
leaves, the tree that combines them on the way, either of the two as the configuration has it, and
a tree that refuses on purpose.
-/

namespace BlockIntake.Merkle

/-- The operations of a tree that a session uses. -/
class TreeHasher (σ : Type) where
  /-- Append a leaf. -/
  add : σ → Bytes → Except TreeFault σ
  /-- Request the root; the inner result is that of waiting for it. -/
  root : σ → Except TreeFault (Except TreeFault Digest)

instance : TreeHasher LeafTree where
  add := LeafTree.add
  root tree := do
    let tree ← tree.requestRoot
    return match tree.roots.head? with
      | some root => .ok root
      | none => .error (.refused .cancelled)

instance : TreeHasher PlannedTree where
  add := PlannedTree.add
  root tree := do
    let tree ← tree.requestRoot
    return tree.awaitRoot

/-- One of the two kinds of tree. -/
inductive StrategyTree where
  /-- Keeps its leaves. -/
  | leaves (tree : LeafTree)
  /-- Combines while leaves arrive. -/
  | combining (tree : PlannedTree)

instance : TreeHasher StrategyTree where
  add
    | .leaves tree, leaf => return .leaves (← TreeHasher.add tree leaf)
    | .combining tree, leaf => return .combining (← TreeHasher.add tree leaf)
  root
    | .leaves tree => TreeHasher.root tree
    | .combining tree => TreeHasher.root tree

/-- When a tree that refuses on purpose does so. -/
inductive RefusalPoint where
  /-- When a leaf comes and this many are in. -/
  | leaf (after : Nat)
  /-- When the root is requested. -/
  | root

/-- A tree that keeps its leaves and may refuse an operation on purpose. -/
structure RefusingTree where
  /-- The tree behind it. -/
  tree : LeafTree := {}
  /-- The refusal and its point. -/
  refusal : Option (TreeError × RefusalPoint) := none

instance : TreeHasher RefusingTree where
  add refusing leaf := do
    if let some (cause, .leaf after) := refusing.refusal then
      if after ≤ refusing.tree.leaves.size then throw (.refused cause)
    return { refusing with tree := ← refusing.tree.add leaf }
  root refusing := do
    if let some (cause, .root) := refusing.refusal then throw (.refused cause)
    TreeHasher.root refusing.tree

end BlockIntake.Merkle
