import BlockIntake.Proofs.Merkle.Flush

/-!
# An open tree

While leaves arrive, the lanes feed each other from the leaves upwards. Appending a leaf, landing a
job and requesting the root all succeed, in any order, for as many leaves as the tree can hold.
-/

namespace BlockIntake.Merkle.CombiningTree

open Combiner

variable {tree : CombiningTree} {leaves : List Digest} {position : Nat} {job : Job}

/-- An open tree over the given leaves. -/
structure Growing (tree : CombiningTree) (leaves : List Digest) : Prop
    extends tree.Counts leaves where
  /-- The root was not requested. -/
  closed : tree.closed = false
  /-- No flush is under way. -/
  flush : tree.flush = none
  /-- No root was delivered. -/
  roots : tree.roots = []
  /-- The shape of the tree. -/
  shaped : tree.combiner.Shaped
  /-- All leaves have come to the lowest lane. -/
  feeds : Feeds tree.batchSize tree.combiner 0 leaves

/-- There is room for all leaves. -/
theorem Counts.fits (counts : tree.Counts leaves) : leaves.length ≤ room 0 := by
  have hroom : room 0 = maxLeaves := by decide
  rw [hroom]
  exact counts.few

/-- The lane of a tree to which nothing has come is empty. -/
theorem laneAt_empty (height : Nat) : ({} : Combiner).laneAt height = {} := by
  have hlane : (Array.replicate maxDepth ({} : Lane))[height]? = none ∨
      (Array.replicate maxDepth ({} : Lane))[height]? = some {} := by
    rw [Array.getElem?_replicate]
    split
    · exact Or.inr rfl
    · exact Or.inl rfl
  rcases hlane with h | h <;> rw [laneAt, h] <;> rfl

/-- An empty tree has the shape. -/
theorem shaped_empty : ({} : Combiner).Shaped :=
  ⟨by simp, fun _ h => absurd h List.not_mem_nil, fun _ h => absurd h List.not_mem_nil⟩

/-- To the lanes of an empty tree nothing has come. -/
theorem feeds_empty {batchSize : Nat} (positive : 0 < batchSize) {height : Nat}
    (h : height ≤ maxDepth) : Feeds batchSize {} height [] := by
  induction hgap : maxDepth - height generalizing height with
  | zero =>
    have htop : height = maxDepth := by omega
    rw [htop]
    exact .top
  | succ gap ih =>
    have habove : Feeds batchSize {} (height + 1) [] := ih (by omega) (by omega)
    have hlane := laneAt_empty height
    have hkeeps : ({} : Combiner).Keeps height [] [] := by
      refine ⟨?_, ?_, fun job hjob => absurd hjob List.not_mem_nil⟩
      · rw [hlane]
        exact Lane.tracks_empty _
      · rw [hlane]
        exact fun entry hentry => absurd hentry List.not_mem_nil
    have hfeeds := Feeds.lane hkeeps (fun batch hbatch => absurd hbatch List.not_mem_nil)
      (by rw [hlane]; exact positive) (by rwa [raisedAt, hlane])
    rwa [hlane] at hfeeds

/-- A new tree is open and has no leaves. -/
theorem growing_new {batchSize : Nat} (positive : 0 < batchSize) (evenSize : batchSize % 2 = 0) :
    Growing { batchSize } [] where
  positive := positive
  evenSize := evenSize
  leafCount := rfl
  few := Nat.zero_le _
  closed := rfl
  flush := rfl
  roots := rfl
  shaped := shaped_empty
  feeds := feeds_empty positive (Nat.zero_le _)

/-- There is room for a hash until the tree is full. -/
theorem Growing.push (growing : tree.Growing leaves) (hash : Digest)
    (notFull : leaves.length < maxLeaves) :
    ∃ next, tree.push hash = .ok next ∧ next.Growing (leaves ++ [hash]) ∧
      next.combiner.heldCount ≤ tree.combiner.heldCount + 1 := by
  have hroom : room 0 = maxLeaves := by decide
  obtain ⟨combiner, heq, hfeeds, hgrows⟩ := push_ok growing.positive growing.evenSize
    (Nat.zero_le _) growing.shaped growing.feeds hash (by rw [hroom]; simpa using notFull)
  refine ⟨{ tree with combiner, leafCount := tree.leafCount + 1 }, ?_, ?_, hgrows.held⟩
  · rw [CombiningTree.push, heq]
    rfl
  · exact { growing with
      leafCount := by simp [growing.leafCount]
      few := by simpa using notFull
      shaped := hgrows.shaped
      feeds := hfeeds }

/-- Without a flush there is nothing to move on. -/
theorem advance_of_flush_none (h : tree.flush = none) : tree.advance = .ok tree := by
  rw [advance, h]

/-- Landing a job of an open tree touches nothing below its height. -/
theorem Growing.landJob (growing : tree.Growing leaves)
    (h : tree.combiner.jobs[position]? = some job) :
    ∃ next, tree.landJob position = .ok next ∧ next.Growing leaves ∧
      Grows job.height 0 tree.combiner next.combiner ∧
      next.combiner.heldCount < tree.combiner.heldCount := by
  obtain ⟨combiner, heq, hfeeds, hgrows, hless⟩ := growing.feeds.landJob growing.positive
    growing.evenSize growing.shaped growing.fits h (Nat.zero_le _)
  refine ⟨{ tree with combiner }, ?_, ?_, hgrows, hless⟩
  · rw [landJob_eq growing.shaped h, heq, ok_bind]
    exact advance_of_flush_none growing.flush
  · exact { growing with
      shaped := hgrows.shaped
      feeds := hfeeds }

/-- The root of an open tree can be requested. -/
theorem Growing.requestRoot (growing : tree.Growing leaves) :
    ∃ next, tree.requestRoot = .ok next ∧ next.Closing leaves ∧
      next.combiner.heldCount ≤ tree.combiner.heldCount := by
  have hcounts : Counts { tree with
      closed := true, flush := some ⟨ceilLog2 leaves.length, 0, true⟩ } leaves :=
    { growing.toCounts with }
  have hflushed : FlushedTo tree.batchSize leaves tree.combiner 0 :=
    ⟨growing.shaped, fun _ _ => Nat.zero_le _, fun below hlow => absurd hlow (Nat.not_lt_zero _),
      fun _ => growing.feeds.drains (by decide), fun _ => growing.feeds⟩
  obtain ⟨next, heq, hclosing, hheld⟩ :=
    hcounts.advance rfl rfl growing.roots (Nat.zero_le _) hflushed
  refine ⟨next, ?_, hclosing, hheld⟩
  have hheight : rootHeight tree.leafCount = .ok (ceilLog2 leaves.length) := by
    rw [growing.leafCount]
    exact rootHeight_eq (Nat.le_succ_of_le growing.few)
  simp only [CombiningTree.requestRoot, growing.closed]
  rw [hheight]
  simp [heq]

/-- A leaf is accepted by an open tree exactly as by a tree that keeps its leaves. -/
theorem Counts.accept_eq (counts : tree.Counts leaves) (leaf : Bytes) {naive : LeafTree}
    (closed : naive.closed = tree.closed) (same : naive.leaves.toList = leaves) :
    tree.accept leaf = naive.accept leaf := by
  have hcount : tree.leafCount = naive.leaves.size := by
    rw [counts.leafCount, ← same, Array.length_toList]
  rw [CombiningTree.accept, LeafTree.accept, closed, hcount]

end BlockIntake.Merkle.CombiningTree
