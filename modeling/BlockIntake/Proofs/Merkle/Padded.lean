import BlockIntake.Proofs.Merkle.Level
import BlockIntake.Verification.Preimages

/-!
# Positions in a padded tree

Every height of a tree has a hash at every position: those of its leaves, and beyond them empty
roots. A hash above the leaves is the hash of the two hashes below it, joined. The joined string is
among those hashed for the root or for the table of empty roots. So if no two of these collide, the
same root over trees of the same height has the same hashes at every position below it.
-/

namespace BlockIntake

open Merkle

/-- Joined digests can be taken apart. -/
theorem joinedBytes_inj {left right left' right' : Digest}
    (h : joinedBytes left right = joinedBytes left' right') : left = left' ∧ right = right' := by
  have hlength : left.bytes.length = left'.bytes.length := by
    rw [left.length_bytes, left'.length_bytes]
  obtain ⟨hleft, hright⟩ := List.append_inj h hlength
  exact ⟨Digest.ext_bytes hleft, Digest.ext_bytes hright⟩

/-- Fewer strings are told apart if more are. -/
theorem NoCollision.mono {strings more : List Bytes} (apart : NoCollision more)
    (h : strings ⊆ more) : NoCollision strings :=
  fun first hfirst second hsecond => apart first (h hfirst) second (h hsecond)

/-- Parts of what is told apart are told apart. -/
theorem NoCollision.parts {xs ys front back : List Bytes} (apart : NoCollision (xs ++ ys))
    (h : front ⊆ xs) (h' : back ⊆ ys) : NoCollision (front ++ back) :=
  apart.mono (List.append_subset.mpr
    ⟨List.subset_append_of_subset_left ys h, List.subset_append_of_subset_right xs h'⟩)

namespace Merkle

/-- The hash at a position of a height, where an empty root stands at every free position. -/
def hashAt (leaves : List Digest) (height position : Nat) : Digest :=
  (level leaves height).getD position (emptyRoot height)

/-- Pairing joins the hashes at two neighbouring positions, free or not. -/
theorem getD_pairUp (pad : Digest) (hashes : List Digest) (position : Nat) :
    (pairUp pad hashes).getD position (pad.combine pad) =
      (hashes.getD (2 * position) pad).combine (hashes.getD (2 * position + 1) pad) := by
  fun_induction pairUp pad hashes generalizing position with
  | case1 left right rest ih =>
    cases position with
    | zero => rfl
    | succ position =>
      rw [Nat.mul_succ]
      exact ih position
  | case2 left =>
    cases position with
    | zero => rfl
    | succ position => rfl
  | case3 => rfl

/-- What is hashed for two neighbouring positions is hashed for the height or for the table. -/
theorem mem_pairPreimages (pad : Digest) (hashes : List Digest) (position : Nat) :
    joinedBytes (hashes.getD (2 * position) pad) (hashes.getD (2 * position + 1) pad) ∈
      joinedBytes pad pad :: pairPreimages pad hashes := by
  fun_induction pairPreimages pad hashes generalizing position with
  | case1 left right rest ih =>
    cases position with
    | zero => exact List.mem_cons_of_mem _ List.mem_cons_self
    | succ position =>
      rw [Nat.mul_succ]
      rcases List.mem_cons.mp (ih position) with hempty | hlater
      · exact List.mem_cons.mpr (Or.inl hempty)
      · exact List.mem_cons_of_mem _ (List.mem_cons_of_mem _ hlater)
  | case2 left =>
    cases position with
    | zero => exact List.mem_cons_of_mem _ List.mem_cons_self
    | succ position => exact List.mem_cons_self
  | case3 => exact List.mem_cons_self

variable {leaves others : List Digest} {height : Nat}

/-- A hash above the leaves joins the two below it. -/
theorem hashAt_succ (leaves : List Digest) (height position : Nat) :
    hashAt leaves (height + 1) position =
      Digest.of (joinedBytes (hashAt leaves height (2 * position))
        (hashAt leaves height (2 * position + 1))) :=
  getD_pairUp (emptyRoot height) (level leaves height) position

/-- Below the root the strings hashed for the next height come first. -/
theorem climbPreimages_level (h : height < ceilLog2 leaves.length) :
    climbPreimages height (level leaves height) =
      pairPreimages (emptyRoot height) (level leaves height) ++
        climbPreimages (height + 1) (level leaves (height + 1)) := by
  have hmany : 1 < (level leaves height).length := one_lt_length_level h
  rw [level]
  cases hlevel : level leaves height with
  | nil => simp [hlevel] at hmany
  | cons left tail =>
    cases tail with
    | nil => simp [hlevel] at hmany
    | cons right rest => rw [climbPreimages]

/-- What is hashed from a height up to the root is hashed for the root. -/
theorem climbPreimages_subset (h : height ≤ ceilLog2 leaves.length) :
    climbPreimages height (level leaves height) ⊆ climbPreimages 0 leaves := by
  induction height with
  | zero => exact List.Subset.refl _
  | succ height ih =>
    refine List.Subset.trans ?_ (ih (Nat.le_of_succ_le h))
    rw [climbPreimages_level h]
    exact List.subset_append_right _ _

/-- A string that is hashed twice over for the table. -/
theorem joined_emptyRoot_mem (h : height < maxDepth - 1) :
    joinedBytes (emptyRoot height) (emptyRoot height) ∈ emptyPreimages :=
  List.mem_cons_of_mem _ (List.mem_map.mpr ⟨height, List.mem_range.mpr h, rfl⟩)

/-- What is hashed for a hash below the root is hashed for the tree or for the table. -/
theorem joined_hashAt_mem (few : leaves.length ≤ maxLeaves) (h : height < ceilLog2 leaves.length)
    (position : Nat) :
    joinedBytes (hashAt leaves height (2 * position)) (hashAt leaves height (2 * position + 1)) ∈
      emptyPreimages ++ climbPreimages 0 leaves := by
  rcases List.mem_cons.mp (mem_pairPreimages (emptyRoot height) (level leaves height) position) with
    hempty | hpair
  · have hdepth := ceilLog2_lt_maxDepth few
    rw [hashAt, hashAt, hempty]
    exact List.mem_append_left _ (joined_emptyRoot_mem (by omega))
  · refine List.mem_append_right _ (climbPreimages_subset (Nat.le_of_lt h) ?_)
    rw [climbPreimages_level h]
    exact List.mem_append_left _ hpair

/-- The root is the first hash at its height, and beyond it every position is free. -/
theorem hashAt_top (leaves : List Digest) (position : Nat) :
    hashAt leaves (ceilLog2 leaves.length) position =
      if position = 0 then topHash leaves else emptyRoot (ceilLog2 leaves.length) := by
  have hfew := length_level_top leaves
  rw [hashAt, topHash]
  cases hlevel : level leaves (ceilLog2 leaves.length) with
  | nil =>
    have hnone : leaves.length ≤ 0 * powerOfTwo (ceilLog2 leaves.length) := by
      rw [← length_level_le_iff, hlevel]
      exact Nat.le_refl 0
    have hzero : leaves.length = 0 := by omega
    rw [hzero]
    exact (ite_self (emptyRoot 0)).symm
  | cons root rest =>
    rw [hlevel, List.length_cons] at hfew
    obtain rfl : rest = [] := List.length_eq_zero_iff.mp (by omega)
    cases position with
    | zero => rfl
    | succ position => rfl

/-- The same hashes at one height come from the same hashes at the height below, if what is hashed
for both trees is told apart. -/
theorem hashAt_below (few : leaves.length ≤ maxLeaves) (few' : others.length ≤ maxLeaves)
    (h : height < ceilLog2 leaves.length) (h' : height < ceilLog2 others.length)
    (apart : NoCollision (emptyPreimages ++ climbPreimages 0 leaves ++ climbPreimages 0 others))
    (above : ∀ position, hashAt leaves (height + 1) position = hashAt others (height + 1) position)
    (position : Nat) : hashAt leaves height position = hashAt others height position := by
  have hjoined := above (position / 2)
  rw [hashAt_succ, hashAt_succ] at hjoined
  have hmem := joined_hashAt_mem few h (position / 2)
  have hmem' := joined_hashAt_mem few' h' (position / 2)
  have hsame := apart _ (List.mem_append_left _ hmem) _ (by
    rcases List.mem_append.mp hmem' with htable | htree
    · exact List.mem_append_left _ (List.mem_append_left _ htable)
    · exact List.mem_append_right _ htree) hjoined
  obtain ⟨hleft, hright⟩ := joinedBytes_inj hsame
  rcases Nat.mod_two_eq_zero_or_one position with heven | hodd
  · rwa [show 2 * (position / 2) = position by omega] at hleft
  · rwa [show 2 * (position / 2) + 1 = position by omega] at hright

/-- The same root over trees of the same height comes from the same leaves, free positions counted
as empty leaves, if what is hashed for both trees is told apart. -/
theorem leaf_eq_of_topHash_eq (few : leaves.length ≤ maxLeaves) (few' : others.length ≤ maxLeaves)
    (heights : ceilLog2 leaves.length = ceilLog2 others.length)
    (apart : NoCollision (emptyPreimages ++ climbPreimages 0 leaves ++ climbPreimages 0 others))
    (same : topHash leaves = topHash others) (position : Nat) :
    hashAt leaves 0 position = hashAt others 0 position := by
  have htop : ∀ position, hashAt leaves (ceilLog2 leaves.length) position =
      hashAt others (ceilLog2 leaves.length) position := by
    intro position
    rw [hashAt_top, same, heights, hashAt_top]
  -- The induction runs down from the height of the roots.
  have hbelow : ∀ height < ceilLog2 leaves.length, 0 ≤ height →
      (∀ position, hashAt leaves (height + 1) position = hashAt others (height + 1) position) →
      ∀ position, hashAt leaves height position = hashAt others height position :=
    fun height h _ above => hashAt_below few few' h (heights ▸ h) apart above
  exact Nat.decreasingInduction' hbelow (Nat.zero_le _) htop position

end Merkle

end BlockIntake
