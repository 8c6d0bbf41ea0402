import BlockIntake.Proofs.Merkle.PerfectRoot

/-!
# The frontier as a binary numeral

If an odd last hash stays behind at every height, each height holds the roots of the complete groups
of leaves below it, as many as fit. So a hash stays behind at a height exactly if the number of
leaves, written in binary, has a one there, and it is the root of the perfect tree over the leaves
this digit stands for. Either tree shows this frontier, and can be asked for it at any time.
-/

namespace BlockIntake.Merkle

/-- Pairing an even number of numbered hashes. -/
theorem pairUp_map_range (pad : Digest) (hash : Nat → Digest) (pairs : Nat) :
    pairUp pad ((List.range (2 * pairs)).map hash) =
      (List.range pairs).map fun i => (hash (2 * i)).combine (hash (2 * i + 1)) := by
  induction pairs with
  | zero => rfl
  | succ pairs ih =>
    have heven : ((List.range (2 * pairs)).map hash).length % 2 = 0 := by
      rw [List.length_map, List.length_range]
      omega
    have hsplit : (List.range (2 * (pairs + 1))).map hash =
        (List.range (2 * pairs)).map hash ++ [hash (2 * pairs), hash (2 * pairs + 1)] := by
      rw [Nat.mul_succ, List.range_succ, List.range_succ]
      simp
    rw [hsplit, pairUp_append _ _ _ heven, ih, List.range_succ, List.map_append]
    rfl

/-- Taking an odd last hash away from numbered hashes. -/
theorem splitOdd_map_range (hash : Nat → Digest) (count : Nat) :
    LeafTree.splitOdd ((List.range count).map hash) =
      (if count % 2 = 1 then some (hash (count - 1)) else none,
        (List.range (2 * (count / 2))).map hash) := by
  rw [LeafTree.splitOdd, List.length_map, List.length_range]
  by_cases hodd : count % 2 = 1
  · have hcount : count = 2 * (count / 2) + 1 := by omega
    have hlast : count - 1 = 2 * (count / 2) := by omega
    rw [if_pos hodd, if_pos hodd, hlast]
    conv_lhs => rw [hcount, List.range_succ, List.map_append]
    simp
  · have hcount : 2 * (count / 2) = count := by omega
    rw [if_neg hodd, if_neg hodd, hcount]

/-- Pairing the roots of groups of leaves gives the roots of groups twice as large. -/
theorem pairUp_subtreeRoots (pad : Digest) (leaf : Nat → Digest) (height pairs : Nat) :
    pairUp pad ((List.range (2 * pairs)).map fun i =>
        subtreeRoot leaf height (i * powerOfTwo height)) =
      (List.range pairs).map fun i =>
        subtreeRoot leaf (height + 1) (i * powerOfTwo (height + 1)) := by
  rw [pairUp_map_range]
  refine List.map_congr_left fun i _ => ?_
  have hleft : 2 * i * powerOfTwo height = i * powerOfTwo (height + 1) := by
    rw [powerOfTwo_succ]
    ring
  have hright : (2 * i + 1) * powerOfTwo height =
      i * powerOfTwo (height + 1) + powerOfTwo height := by
    rw [powerOfTwo_succ]
    ring
  rw [hleft, hright, subtreeRoot]

/-- A group of leaves twice as large fits half as often. -/
theorem div_powerOfTwo_succ (leaves height : Nat) :
    leaves / powerOfTwo (height + 1) = leaves / powerOfTwo height / 2 := by
  rw [powerOfTwo_succ, Nat.mul_comm, Nat.div_div_eq_div_mul]

/-- Every height holds the roots of the complete groups of leaves below it, in order. -/
theorem wholeLevel_eq (leaves : List Digest) (height : Nat) :
    wholeLevel leaves height = (List.range (leaves.length / powerOfTwo height)).map fun i =>
      subtreeRoot (leafAt leaves) height (i * powerOfTwo height) := by
  induction height with
  | zero =>
    rw [powerOfTwo_zero, Nat.div_one, wholeLevel]
    refine List.ext_getElem (by simp) fun i hi _ => ?_
    have hleaf : leafAt leaves i = leaves[i] := List.getD_eq_getElem leaves _ hi
    simp [subtreeRoot, hleaf]
  | succ height ih =>
    rw [wholeLevel, ih, splitOdd_map_range, pairUp_subtreeRoots, div_powerOfTwo_succ]

/-- The frontier entry that the binary digit of a height stands for: nothing for a zero, and for a
one the root over the leaves from where the higher digits end. -/
def digitRoot (leaves : List Digest) (height : Nat) : Option Digest :=
  if leaves.length.testBit height then
    some (subtreeRoot (leafAt leaves) height ((leaves.length >>> (height + 1)) <<< (height + 1)))
  else none

/-- What stays behind at a height is what its binary digit stands for. -/
theorem splitOdd_wholeLevel (leaves : List Digest) (height : Nat) :
    (LeafTree.splitOdd (wholeLevel leaves height)).1 = digitRoot leaves height := by
  have hpower : powerOfTwo height = 2 ^ height := Nat.one_shiftLeft height
  rw [wholeLevel_eq, splitOdd_map_range, digitRoot, Nat.testBit_eq_decide_div_mod_eq, hpower]
  simp only [decide_eq_true_eq]
  by_cases hodd : leaves.length / 2 ^ height % 2 = 1
  · have hstart : (leaves.length / 2 ^ height - 1) * 2 ^ height =
        (leaves.length >>> (height + 1)) <<< (height + 1) := by
      have heven : leaves.length / 2 ^ height - 1 = leaves.length / 2 ^ height / 2 * 2 := by omega
      rw [Nat.shiftLeft_eq, Nat.shiftRight_eq_div_pow, Nat.pow_succ, ← Nat.div_div_eq_div_mul, heven,
        Nat.mul_assoc, Nat.mul_comm 2]
    rw [if_pos hodd, if_pos hodd, hstart]
  · rw [if_neg hodd, if_neg hodd]

/-- Ask any tree for its frontier, after whatever operations that leave it open, with no more leaves
than it has room for. The frontier counts the leaves, and it has as many entries as the root with
one more leaf is high. There is an entry at a height exactly if the number of leaves has a one there
in binary, and it is the root of the perfect tree over the leaves this digit stands for. A tree
that combines while leaves arrive gives the same answer, whatever its batch size and in whatever
order its jobs land, and whenever it has not answered yet it can be brought to do so. -/
theorem frontier_is_binary {ops : List TreeOp} (noRoot : .root ∉ ops)
    (few : (leavesIn ops).length ≤ maxLeaves) :
    ∃ frontier : Frontier, frontier.leafCount.toNat = (leavesIn ops).length ∧
      rootHeight ((leavesIn ops).length + 1) = .ok frontier.waiting.length ∧
      (∀ height < frontier.waiting.length,
        frontier.waiting[height]? = some (digitRoot (leavesIn ops) height)) ∧
      (LeafTree.play {} (ops ++ [.frontier])).1[ops.length]? = some (.frontier frontier) ∧
      ∀ batchSize start, CombiningTree.new batchSize = .ok start →
        (∃ moves, TreeRun.performed ⟨start, none⟩ moves = ops ++ [.frontier]) ∧
        ∀ moves, TreeRun.performed ⟨start, none⟩ moves = ops ++ [.frontier] →
          ((TreeRun.play ⟨start, none⟩ moves).2.scan = none →
            (TreeRun.play ⟨start, none⟩ moves).1[ops.length]? = some (.frontier frontier)) ∧
          ∃ waits, TreeRun.performed ⟨start, none⟩ (moves ++ waits) = ops ++ [.frontier] ∧
            (TreeRun.play ⟨start, none⟩ (moves ++ waits)).2.scan = none := by
  have htree := play_leaves noRoot few
  have hlength := length_play {} ops
  have hasked : (LeafTree.perform { leaves := (leavesIn ops).toArray } .frontier).1 = _ :=
    perform_frontier rfl (frontierOf_eq few)
  have hanswer : (LeafTree.play {} (ops ++ [.frontier])).1[ops.length]? =
      some (.frontier ⟨UInt64.ofNat (leavesIn ops).length,
        leftBehind (leavesIn ops) (ceilLog2 ((leavesIn ops).length + 1))⟩) := by
    rw [play_append, htree, ← hlength]
    simp [LeafTree.play, hasked]
  have hentries : (leftBehind (leavesIn ops) (ceilLog2 ((leavesIn ops).length + 1))).length =
      ceilLog2 ((leavesIn ops).length + 1) := by simp [leftBehind]
  refine ⟨_, ?_, ?_, ?_, hanswer, ?_⟩
  · have hsmall : maxLeaves < UInt64.size := by decide
    exact UInt64.toNat_ofNat_of_lt' (by omega)
  · rw [hentries]
    exact rootHeight_eq (Nat.succ_le_succ few)
  · intro height hheight
    rw [hentries] at hheight
    rw [leftBehind, List.getElem?_map, List.getElem?_range hheight, Option.map_some,
      splitOdd_wholeLevel]
  · intro batchSize start hnew
    obtain ⟨positive, evenSize, rfl⟩ := new_ok hnew
    have hmirrors := mirrors_new positive evenSize
    constructor
    · obtain ⟨moves, hperformed, -⟩ := hmirrors.exists_moves rfl (ops ++ [.frontier])
      exact ⟨moves, hperformed⟩
    · intro moves hperformed
      constructor
      · intro hfree
        rw [hmirrors.answers_eq hfree, hperformed]
        exact hanswer
      · obtain ⟨hlast, -⟩ := hmirrors.play moves
        obtain ⟨waits, hnothing, hfree⟩ := hlast.exists_wait
        obtain ⟨hplay, hboth⟩ := play_moves_append ⟨{ batchSize }, none⟩ moves waits
        refine ⟨waits, ?_, ?_⟩
        · rw [hboth, hperformed, hnothing, List.append_nil]
        · rw [hplay]
          exact hfree

/-- Three leaves, in binary two ones, leave the last leaf behind and above it the root of the first
two, also if the frontier was asked for before. A tree with batches of two says the same, if need be
after a wait. -/
theorem frontier_is_binary_three :
    .root ∉ twoLeaves ++ [.add Digest.zero.bytes] ∧
    (leavesIn (twoLeaves ++ [.add Digest.zero.bytes])).length ≤ maxLeaves ∧
    ∃ frontier : Frontier, frontier.leafCount.toNat = 3 ∧
      frontier.waiting = [some Digest.zero, some (Digest.zero.combine .zero)] ∧
      (LeafTree.play {} (twoLeaves ++ [.add Digest.zero.bytes] ++ [.frontier])).1[4]? =
        some (.frontier frontier) ∧
      ∃ start moves, CombiningTree.new 2 = .ok start ∧
        (TreeRun.play ⟨start, none⟩ moves).1[4]? = some (.frontier frontier) := by
  have hleaves : leavesIn (twoLeaves ++ [.add Digest.zero.bytes]) = [.zero, .zero, .zero] := by
    simp [leavesIn, twoLeaves, readLeaf_bytes, Except.toOption]
  have noRoot : TreeOp.root ∉ twoLeaves ++ [.add Digest.zero.bytes] := by simp [twoLeaves]
  have few : (leavesIn (twoLeaves ++ [.add Digest.zero.bytes])).length ≤ maxLeaves := by
    rw [hleaves]
    decide
  obtain ⟨frontier, hcount, hheight, hentry, hanswer, hcombining⟩ := frontier_is_binary noRoot few
  rw [hleaves] at hcount hheight hentry
  have htwo : rootHeight 4 = .ok 2 := rfl
  have hlength : frontier.waiting.length = 2 := Except.ok.inj (hheight.symm.trans htwo)
  have hwaiting : frontier.waiting = [some Digest.zero, some (Digest.zero.combine .zero)] := by
    refine List.ext_getElem? fun height => ?_
    by_cases hsmall : height < 2
    · rw [hentry height (by omega)]
      interval_cases height <;> rfl
    · rw [List.getElem?_eq_none (by omega), List.getElem?_eq_none (not_lt.mp hsmall)]
  obtain ⟨start, hnew⟩ : ∃ start, CombiningTree.new 2 = .ok start := ⟨_, rfl⟩
  obtain ⟨⟨moves, hperformed⟩, htakes⟩ := hcombining 2 start hnew
  obtain ⟨-, waits, hsame, hfree⟩ := htakes moves hperformed
  obtain ⟨htold, -⟩ := htakes (moves ++ waits) hsame
  exact ⟨noRoot, few, frontier, hcount, hwaiting, hanswer, start, moves ++ waits, hnew, htold hfree⟩

end BlockIntake.Merkle
