import BlockIntake.Merkle.LeafTree
import Mathlib

/-!
# The hashes of every height

Pairing a list of leaves again and again gives the hashes of every height of its tree. If an odd
last hash is padded on the way, the topmost height holds the root. If it stays behind, what stays
behind at each height is the frontier. Both lists shrink by half from height to height, so a tree
with at most `maxLeaves` leaves never needs a height past the last one.
-/

namespace BlockIntake.Merkle

/-- The number of hashes a height can hold in a tree with at most `maxLeaves` leaves. -/
def room (height : Nat) : Nat := maxLeaves / powerOfTwo height

/-- Every height has half the room of the one below. -/
theorem room_succ (height : Nat) : room (height + 1) = room height / 2 := by
  simp only [room, powerOfTwo_succ, Nat.mul_comm 2, Nat.div_div_eq_div_mul]

/-- The room of a height of the tree is a power of two. -/
theorem room_eq {height : Nat} (h : height < maxDepth) :
    room height = powerOfTwo (maxDepth - 1 - height) := by
  have hsplit : maxDepth - 1 = height + (maxDepth - 1 - height) := by omega
  simp only [room, maxLeaves, powerOfTwo, Nat.one_shiftLeft]
  rw [hsplit, Nat.pow_add, Nat.add_sub_cancel_left,
    Nat.mul_div_cancel_left _ (Nat.two_pow_pos height)]

/-- There is no room past the last height. -/
theorem room_maxDepth : room maxDepth = 0 := by decide

/-- The hashes of a height when an odd last hash is padded. -/
def level (leaves : List Digest) : (height : Nat) → List Digest
  | 0 => leaves
  | height + 1 => pairUp (emptyRoot height) (level leaves height)

/-- The hashes of a height when an odd last hash stays behind. -/
def wholeLevel (leaves : List Digest) : (height : Nat) → List Digest
  | 0 => leaves
  | height + 1 => pairUp (emptyRoot height) (LeafTree.splitOdd (wholeLevel leaves height)).2

/-- The hash at the top of the padded tree. -/
def topHash (leaves : List Digest) : Digest :=
  (level leaves (ceilLog2 leaves.length)).headD (emptyRoot 0)

/-- The hashes that stay behind at the first `count` heights. -/
def leftBehind (leaves : List Digest) (count : Nat) : List (Option Digest) :=
  (List.range count).map fun height => (LeafTree.splitOdd (wholeLevel leaves height)).1

/-- A height holds few hashes exactly if there are few leaves. -/
theorem length_level_le_iff (leaves : List Digest) (height bound : Nat) :
    (level leaves height).length ≤ bound ↔ leaves.length ≤ bound * powerOfTwo height := by
  induction height generalizing bound with
  | zero => simp [level, powerOfTwo_zero]
  | succ height ih =>
    have halved : ((level leaves height).length + 1) / 2 ≤ bound ↔
        (level leaves height).length ≤ bound * 2 := by omega
    rw [level, length_pairUp, halved, ih, powerOfTwo_succ, Nat.mul_assoc]

/-- Every height has room for its hashes. -/
theorem length_level_le_room {leaves : List Digest} (few : leaves.length ≤ maxLeaves)
    {height : Nat} (h : height < maxDepth) : (level leaves height).length ≤ room height := by
  rw [length_level_le_iff, room_eq h, powerOfTwo, powerOfTwo, Nat.one_shiftLeft, Nat.one_shiftLeft,
    ← Nat.pow_add, Nat.sub_add_cancel (by omega), ← Nat.one_shiftLeft]
  exact few

/-- A tree that is not too large has its root at a height it can have. -/
theorem ceilLog2_lt_maxDepth {leaves : Nat} (few : leaves ≤ maxLeaves) :
    ceilLog2 leaves < maxDepth := by
  have h : ceilLog2 leaves ≤ maxDepth - 1 := ceilLog2_le_of_le_powerOfTwo few
  have hpos : 0 < maxDepth := by decide
  omega

/-- At the height of the root at most one hash is left. -/
theorem length_level_top (leaves : List Digest) :
    (level leaves (ceilLog2 leaves.length)).length ≤ 1 := by
  rw [length_level_le_iff, Nat.one_mul]
  exact le_powerOfTwo_ceilLog2 leaves.length

/-- Below the height of the root more than one hash is left. -/
theorem one_lt_length_level {leaves : List Digest} {height : Nat}
    (h : height < ceilLog2 leaves.length) : 1 < (level leaves height).length := by
  by_contra few
  have bounded : leaves.length ≤ powerOfTwo height := by
    have hle : (level leaves height).length ≤ 1 := by omega
    rwa [length_level_le_iff, Nat.one_mul] at hle
  have htop := ceilLog2_le_of_le_powerOfTwo bounded
  omega

/-- From any height up to that of the root, combining until one hash is left yields the root. -/
theorem climb_level {leaves : List Digest} (few : leaves.length ≤ maxLeaves) (height : Nat)
    (h : height ≤ ceilLog2 leaves.length) :
    LeafTree.climb height (level leaves height) =
      .ok (ceilLog2 leaves.length, topHash leaves) := by
  have hdepth := ceilLog2_lt_maxDepth few
  -- The induction runs down from the height of the root.
  induction hgap : ceilLog2 leaves.length - height generalizing height with
  | zero =>
    have htop : height = ceilLog2 leaves.length := by omega
    have single := length_level_top leaves
    rw [← htop] at single
    rw [topHash, ← htop]
    cases hlevel : level leaves height with
    | nil => simp [LeafTree.climb]
    | cons root rest =>
      rw [hlevel, List.length_cons] at single
      obtain rfl : rest = [] := List.length_eq_zero_iff.mp (by omega)
      simp [LeafTree.climb]
  | succ gap ih =>
    have many : 1 < (level leaves height).length := one_lt_length_level (by omega)
    have next := ih (height + 1) (by omega) (by omega)
    rw [level] at next
    cases hlevel : level leaves height with
    | nil => simp [hlevel] at many
    | cons left tail =>
      cases tail with
      | nil => simp [hlevel] at many
      | cons right rest =>
        rw [hlevel] at next
        rw [LeafTree.climb, padFor, if_neg (by simp), emptyRootAt_eq, if_pos (by omega)]
        exact next

/-- The root over at most `maxLeaves` leaves is the hash at the top of the padded tree. -/
theorem rootOf_eq {leaves : List Digest} (few : leaves.length ≤ maxLeaves) :
    LeafTree.rootOf leaves = .ok (topHash leaves) := by
  have h := climb_level few 0 (Nat.zero_le _)
  rw [level] at h
  simp [LeafTree.rootOf, h]

/-- The height of the root of a tree that is not too large, and of the tree with one leaf more. -/
theorem rootHeight_eq {leaves : Nat} (few : leaves ≤ maxLeaves + 1) :
    rootHeight leaves = .ok (ceilLog2 leaves) := by
  have hlarge : maxLeaves + 1 ≤ powerOfTwo 63 := by decide
  rw [rootHeight, if_pos (few.trans hlarge)]

/-- The frontier has an entry for a height exactly if a hash stays behind there. -/
theorem frontierUp_wholeLevel (leaves : List Digest) (count height : Nat)
    (h : height + count ≤ maxDepth) :
    LeafTree.frontierUp count height (wholeLevel leaves height) =
      .ok ((List.range' height count).map fun height =>
        (LeafTree.splitOdd (wholeLevel leaves height)).1) := by
  induction count generalizing height with
  | zero => rfl
  | succ count ih =>
    have next := ih (height + 1) (by omega)
    rw [wholeLevel] at next
    simp only [LeafTree.frontierUp]
    rw [combinePairs_of_lt (by omega), List.range'_succ, ok_bind, next]
    rfl

/-- The frontier over at most `maxLeaves` leaves. -/
theorem frontierOf_eq {leaves : List Digest} (few : leaves.length ≤ maxLeaves) :
    LeafTree.frontierOf leaves =
      .ok ⟨UInt64.ofNat leaves.length, leftBehind leaves (ceilLog2 (leaves.length + 1))⟩ := by
  cases hleaves : leaves with
  | nil => rfl
  | cons leaf rest =>
    rw [← hleaves]
    have hdepth : ceilLog2 (leaves.length + 1) ≤ maxDepth :=
      ceilLog2_le_of_le_powerOfTwo ((Nat.succ_le_succ few).trans (by decide))
    have entries := frontierUp_wholeLevel leaves (ceilLog2 (leaves.length + 1)) 0 (by omega)
    rw [wholeLevel] at entries
    rw [LeafTree.frontierOf, if_neg (by simp [hleaves]), rootHeight_eq (by omega)]
    simp [entries, leftBehind, List.range_eq_range']

end BlockIntake.Merkle
