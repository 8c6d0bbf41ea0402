import BlockIntake.Merkle.TreeError

/-!
# Pairing hashes level by level

The hashes of one height are joined in pairs into the hashes of the next height. An odd hash at the
end is paired with the root of the empty tree of its own height, so the tree behaves as if it were
filled up with empty leaves to the next power of two.
-/

namespace BlockIntake.Merkle

/-- The root of the tree of the given height in which every leaf is empty. An empty leaf is the
hash of the empty byte string. -/
def emptyRoot : (height : Nat) → Digest
  | 0 => Digest.of []
  | height + 1 =>
    let below := emptyRoot height
    below.combine below

/-- The empty roots of every height a tree can have. -/
def emptyRoots : Array Digest := (Array.range maxDepth).map emptyRoot

/-- The empty root of a height, read from the table. -/
def emptyRootAt (height : Nat) : Except Crash Digest :=
  match emptyRoots[height]? with
  | some root => .ok root
  | none => .error (.pastTable maxDepth height)

/-- The table holds the empty root of every height below its size, and reading past it crashes. -/
theorem emptyRootAt_eq (height : Nat) : emptyRootAt height =
    if height < maxDepth then .ok (emptyRoot height) else .error (.pastTable maxDepth height) := by
  by_cases h : height < maxDepth <;> simp [emptyRootAt, emptyRoots, h]

/-- Join hashes in pairs; an odd last one is joined with `pad`. -/
def pairUp (pad : Digest) : List Digest → List Digest
  | left :: right :: rest => left.combine right :: pairUp pad rest
  | [left] => [left.combine pad]
  | [] => []

/-- The hash that pads the hashes of a height. The table is read as soon as there is any hash to
pair, so no hashes at all can be paired at every height. -/
def padFor (height : Nat) (hashes : List Digest) : Except Crash Digest :=
  if hashes.isEmpty then .ok Digest.zero else emptyRootAt height

/-- The hashes of the next height. -/
def combinePairs (height : Nat) (hashes : List Digest) : Except Crash (List Digest) := do
  let pad ← padFor height hashes
  return pairUp pad hashes

/-- Pairing halves the number of hashes, rounding up. -/
@[simp] theorem length_pairUp (pad : Digest) (hashes : List Digest) :
    (pairUp pad hashes).length = (hashes.length + 1) / 2 := by
  fun_induction pairUp pad hashes with
  | case1 left right rest ih => simp only [List.length_cons, ih]; omega
  | case2 left => simp
  | case3 => rfl

/-- Hashes put after an even number of hashes are paired among themselves. -/
theorem pairUp_append (pad : Digest) (front back : List Digest) (even : front.length % 2 = 0) :
    pairUp pad (front ++ back) = pairUp pad front ++ pairUp pad back := by
  fun_induction pairUp pad front with
  | case1 left right rest ih =>
    simp only [List.length_cons] at even
    simp only [List.cons_append, pairUp, ih (by omega)]
  | case2 left => simp at even
  | case3 => rfl

/-- Hashes of a height that a tree can have are paired with the empty root of that height. -/
theorem combinePairs_of_lt {height : Nat} (h : height < maxDepth) (hashes : List Digest) :
    combinePairs height hashes = .ok (pairUp (emptyRoot height) hashes) := by
  cases hashes with
  | nil => rfl
  | cons hash rest => simp [combinePairs, padFor, emptyRootAt_eq, h, bind, Except.bind, pure,
      Except.pure]

end BlockIntake.Merkle
