import BlockIntake.Merkle.Perfect
import BlockIntake.Proofs.Merkle.NextRoot
import BlockIntake.Proofs.Merkle.Padded

/-!
# The root as that of a perfect tree

Pairing level by level, with an odd last hash padded at its own height, gives at every position the
root of a perfect tree whose free positions are empty leaves. So the root over any leaves is that of
the perfect tree of the least height with room for them, and empty leaves put at the end do not
change it as long as they fit below the same root.
-/

namespace BlockIntake.Merkle

/-- The leaves that operations append. A byte string that is too short is no leaf. -/
def leavesIn (ops : List TreeOp) : List Digest :=
  ops.filterMap fun
    | .add leaf => (readLeaf leaf).toOption
    | .frontier | .count | .root => none

/-- What one more operation appends comes last. -/
theorem leavesIn_concat (ops : List TreeOp) (op : TreeOp) :
    leavesIn (ops ++ [op]) = leavesIn ops ++ leavesIn [op] :=
  List.filterMap_append

/-- As long as there is room and the root is not requested, a tree holds the leaves that were
appended. The induction runs over the operations, the last one first. -/
theorem play_leaves {ops : List TreeOp} (noRoot : .root ∉ ops)
    (few : (leavesIn ops).length ≤ maxLeaves) :
    (LeafTree.play {} ops).2 = { leaves := (leavesIn ops).toArray } := by
  induction ops using List.reverseRecOn with
  | nil => rfl
  | append_singleton ops op ih =>
    have hsplit := leavesIn_concat ops op
    have hbefore : TreeOp.root ∉ ops := fun h => noRoot (List.mem_append_left _ h)
    have hfew : (leavesIn ops).length + (leavesIn [op]).length ≤ maxLeaves := by
      rwa [hsplit, List.length_append] at few
    have hfront := ih hbefore (by omega)
    rw [play_append, hfront, hsplit]
    change (LeafTree.perform _ op).2 = _
    cases op with
    | add leaf =>
      rw [LeafTree.perform, LeafTree.accept]
      cases hread : readLeaf leaf with
      | error cause =>
        have hnone : leavesIn [.add leaf] = [] := by simp [leavesIn, hread, Except.toOption]
        simp [hnone, orRefuse]
      | ok hash =>
        have hone : leavesIn [.add leaf] = [hash] := by simp [leavesIn, hread, Except.toOption]
        have hroom : ¬ maxLeaves ≤ (leavesIn ops).length := by
          rw [hone, List.length_singleton] at hfew
          omega
        simp [hone, orRefuse, hroom, LeafTree.push]
    | frontier =>
      have hnone : leavesIn [.frontier] = [] := rfl
      rw [perform_frontier_snd, hnone, List.append_nil]
    | count =>
      have hnone : leavesIn [.count] = [] := rfl
      rw [hnone, List.append_nil]
      rfl
    | root => exact absurd (List.mem_append_right _ (List.mem_singleton_self _)) noRoot

/-- At every position of every height stands the root of a perfect tree over the leaves below it,
where every free position is an empty leaf. -/
theorem hashAt_eq_subtreeRoot (leaves : List Digest) (height position : Nat) :
    hashAt leaves height position =
      subtreeRoot (leafAt leaves) height (position * powerOfTwo height) := by
  induction height generalizing position with
  | zero =>
    rw [powerOfTwo_zero, Nat.mul_one]
    rfl
  | succ height ih =>
    have hleft : 2 * position * powerOfTwo height = position * powerOfTwo (height + 1) := by
      rw [powerOfTwo_succ]
      ring
    have hright : (2 * position + 1) * powerOfTwo height =
        position * powerOfTwo (height + 1) + powerOfTwo height := by
      rw [powerOfTwo_succ]
      ring
    have hbelow := hashAt_succ leaves height position
    rw [ih, ih, hleft, hright] at hbelow
    exact hbelow

/-- The hash at the top of the padded tree is the root of the perfect tree of its height. -/
theorem topHash_eq_perfectRoot (leaves : List Digest) :
    topHash leaves = perfectRoot (ceilLog2 leaves.length) leaves := by
  have htop := hashAt_top leaves 0
  have hperfect := hashAt_eq_subtreeRoot leaves (ceilLog2 leaves.length) 0
  rw [htop, if_pos rfl, Nat.zero_mul] at hperfect
  exact hperfect

/-- Empty leaves at the end stand where every position was free. -/
theorem leafAt_append_empty (leaves : List Digest) (more : Nat) :
    leafAt (leaves ++ List.replicate more (Digest.of [])) = leafAt leaves := by
  funext index
  by_cases hindex : index < leaves.length
  · exact List.getD_append _ _ _ _ hindex
  · have hle : leaves.length ≤ index := Nat.le_of_not_lt hindex
    have hfree : leafAt leaves index = emptyRoot 0 := List.getD_eq_default _ _ hle
    rw [hfree, leafAt, List.getD_append_right _ _ _ _ hle]
    exact List.getElem?_getD_replicate_default_eq _ _ _

/-- The least height with room for a number of leaves is the least for more of them, if they fit at
that height. -/
theorem ceilLog2_eq_of_le {leaves more : Nat} (h : leaves ≤ more)
    (fits : more ≤ powerOfTwo (ceilLog2 leaves)) : ceilLog2 more = ceilLog2 leaves := by
  have hupper : ceilLog2 more ≤ ceilLog2 leaves := ceilLog2_le_of_le_powerOfTwo fits
  have hlower : ceilLog2 leaves ≤ ceilLog2 more :=
    ceilLog2_le_of_le_powerOfTwo (h.trans (le_powerOfTwo_ceilLog2 more))
  omega

/-- Up to the root, the hashes over at most `maxLeaves` leaves are paired as often as the root of
their tree is high. What stands there is the root of the perfect tree of that height over the leaves
and as many empty ones as are left. It is the root a tree delivers after whatever operations have
appended the leaves. Empty leaves appended as well change neither the height nor the root, up to the
next power of two. -/
theorem root_is_perfect {leaves : List Digest} (few : leaves.length ≤ maxLeaves) :
    ∃ height, rootHeight leaves.length = .ok height ∧
      LeafTree.climb 0 leaves = .ok (height, perfectRoot height leaves) ∧
      (∀ ops : List TreeOp, .root ∉ ops → leavesIn ops = leaves →
        (LeafTree.play {} (ops ++ [.root])).1[ops.length]? = some .accepted ∧
        (LeafTree.play {} (ops ++ [.root])).2.roots = [perfectRoot height leaves]) ∧
      ∀ more, leaves.length + more ≤ powerOfTwo height →
        LeafTree.climb 0 (leaves ++ List.replicate more (Digest.of [])) =
          .ok (height, perfectRoot height leaves) := by
  have hheight : rootHeight leaves.length = .ok (ceilLog2 leaves.length) :=
    rootHeight_eq (Nat.le_succ_of_le few)
  have htop := topHash_eq_perfectRoot leaves
  refine ⟨ceilLog2 leaves.length, hheight, ?_, ?_, ?_⟩
  · rw [← htop]
    exact climb_level few 0 (Nat.zero_le _)
  · rintro ops noRoot rfl
    have htree := play_leaves noRoot few
    have hlength := length_play {} ops
    have hroot : LeafTree.requestRoot { leaves := (leavesIn ops).toArray } =
        .ok { leaves := (leavesIn ops).toArray, closed := true, roots := [topHash (leavesIn ops)] } :=
      requestRoot_eq rfl rfl few
    rw [play_append, htree, ← htop]
    simp only [LeafTree.play, LeafTree.perform, hroot]
    exact ⟨by rw [← hlength]; simp, trivial⟩
  · intro more hmore
    have hlength : (leaves ++ List.replicate more (Digest.of [])).length = leaves.length + more := by
      rw [List.length_append, List.length_replicate]
    have hsame := ceilLog2_eq_of_le (Nat.le_add_right leaves.length more) hmore
    have hdepth := ceilLog2_lt_maxDepth few
    have hroom : powerOfTwo (ceilLog2 leaves.length) ≤ maxLeaves := powerOfTwo_le (by omega)
    have hfew : (leaves ++ List.replicate more (Digest.of [])).length ≤ maxLeaves := by omega
    have hclimb := climb_level hfew 0 (Nat.zero_le _)
    rw [topHash_eq_perfectRoot, perfectRoot, leafAt_append_empty, hlength, hsame] at hclimb
    exact hclimb

/-- Three leaves have the root of the perfect tree with four, also if the frontier is asked for on
the way, and a fourth leaf that is empty changes nothing. -/
theorem root_is_perfect_three :
    [Digest.zero, .zero, .zero].length ≤ maxLeaves ∧
    LeafTree.climb 0 [.zero, .zero, .zero] = .ok (2, perfectRoot 2 [.zero, .zero, .zero]) ∧
    .root ∉ twoLeaves ++ [.add Digest.zero.bytes] ∧
    leavesIn (twoLeaves ++ [.add Digest.zero.bytes]) = [.zero, .zero, .zero] ∧
    (LeafTree.play {} (twoLeaves ++ [.add Digest.zero.bytes] ++ [.root])).2.roots =
      [perfectRoot 2 [.zero, .zero, .zero]] ∧
    LeafTree.climb 0 [.zero, .zero, .zero, Digest.of []] =
      .ok (2, perfectRoot 2 [.zero, .zero, .zero]) := by
  have few : [Digest.zero, .zero, .zero].length ≤ maxLeaves := by decide
  have noRoot : TreeOp.root ∉ twoLeaves ++ [.add Digest.zero.bytes] := by simp [twoLeaves]
  have hleaves : leavesIn (twoLeaves ++ [.add Digest.zero.bytes]) = [.zero, .zero, .zero] := by
    simp [leavesIn, twoLeaves, readLeaf_bytes, Except.toOption]
  obtain ⟨height, hheight, hclimb, hplay, hpadded⟩ := root_is_perfect few
  have htwo : rootHeight 3 = .ok 2 := rfl
  obtain rfl : height = 2 := Except.ok.inj (hheight.symm.trans htwo)
  exact ⟨few, hclimb, noRoot, hleaves, (hplay _ noRoot hleaves).2, hpadded 1 (by decide)⟩

end BlockIntake.Merkle
