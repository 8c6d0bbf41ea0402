import BlockIntake.Proofs.Merkle.NextRoot

/-!
# The next root of any frontier

A frontier need not come from a tree: any number of leaves can be put together with any entries.
The root with one more leaf is then computed, or refused because there are too few entries, as long
as the number of leaves stays below the largest power of two of 64 bits and no entry is missing
where the table of empty roots has ended. Otherwise the computation crashes.
-/

namespace BlockIntake.Merkle

variable {height position : Nat} {entries : List (Option Digest)} {frontier : Frontier}

/-- The height of the root once a leaf was appended. -/
def Frontier.nextHeight (frontier : Frontier) : Nat := ceilLog2 (frontier.leafCount.toNat + 1)

/-- A frontier for which the next root does not leave any table. -/
structure Frontier.Bounded (frontier : Frontier) : Prop where
  /-- The number of leaves is below the largest power of two of 64 bits. -/
  few : frontier.leafCount.toNat < powerOfTwo 63
  /-- If there are enough entries, none is missing at a height without an empty root. -/
  present : frontier.nextHeight ≤ frontier.waiting.length →
    ∀ height, maxDepth ≤ height → height < frontier.nextHeight →
      frontier.waiting[height]? ≠ some none

/-- A hash can be joined with entries of which none is missing past the empty roots. -/
theorem joinFrontier_ok
    (present : ∀ position, entries[position]? = some none → height + position < maxDepth)
    (hash : Digest) : ∃ root, joinFrontier height entries hash = .ok root := by
  induction entries generalizing height hash with
  | nil => exact ⟨hash, rfl⟩
  | cons entry entries ih =>
    have hrest : ∀ position, entries[position]? = some none → height + 1 + position < maxDepth := by
      intro position hmissing
      have hposition := present (position + 1) hmissing
      omega
    cases entry with
    | some left => exact ih hrest _
    | none =>
      have hbelow : height < maxDepth := present 0 rfl
      rw [joinFrontier_cons hbelow]
      exact ih hrest _

/-- An entry that is missing past the empty roots cannot be joined. -/
theorem joinFrontier_crashed (missing : entries[position]? = some none)
    (past : maxDepth ≤ height + position) (hash : Digest) :
    ∃ crash, joinFrontier height entries hash = .error crash := by
  induction entries generalizing height position hash with
  | nil => cases missing
  | cons entry entries ih =>
    cases position with
    | zero =>
      obtain rfl : entry = none := Option.some.inj missing
      rw [joinFrontier, emptyRootAt_eq, if_neg (by omega)]
      exact ⟨_, rfl⟩
    | succ position =>
      have hrest : ∀ hash, ∃ crash, joinFrontier (height + 1) entries hash = .error crash :=
        ih missing (by omega)
      cases entry with
      | some left => exact hrest _
      | none =>
        rw [joinFrontier]
        cases emptyRootAt height with
        | ok pad => exact hrest _
        | error crash => exact ⟨crash, rfl⟩

/-- From the largest power of two on, the number of leaves is too large. -/
theorem rootWith_of_many (many : powerOfTwo 63 ≤ frontier.leafCount.toNat) (leaf : Digest) :
    frontier.rootWith leaf = .error (.crashed .sumOverflow) := by
  rw [Frontier.rootWith, countSucc]
  split
  · have hheight : rootHeight (frontier.leafCount.toNat + 1) = .error .sumOverflow := by
      rw [rootHeight, if_neg (by omega)]
    simp only [orCrash_ok, ok_bind, hheight, orCrash_error, error_bind]
  · rfl

/-- Below it the root is joined from the entries, if there are enough. -/
theorem rootWith_of_few (few : frontier.leafCount.toNat < powerOfTwo 63) (leaf : Digest) :
    frontier.rootWith leaf =
      if frontier.waiting.length < frontier.nextHeight then
        .error (.refused (.shortFrontier frontier.leafCount.toNat frontier.waiting.length
          frontier.nextHeight))
      else orCrash (joinFrontier 0 (frontier.waiting.take frontier.nextHeight) leaf) := by
  have hlarge : powerOfTwo 63 < UInt64.size := by decide
  have hcount : countSucc frontier.leafCount = .ok (frontier.leafCount.toNat + 1) := by
    rw [countSucc, if_pos (by omega)]
  have hheight : rootHeight (frontier.leafCount.toNat + 1) = .ok frontier.nextHeight := by
    rw [rootHeight, if_pos (by omega), Frontier.nextHeight]
  simp only [Frontier.rootWith, hcount, hheight, orCrash_ok, ok_bind]
  split <;> rfl

/-- With enough entries the next root of a bounded frontier is computed. -/
theorem Frontier.Bounded.rootWith_ok (bounded : frontier.Bounded)
    (enough : frontier.nextHeight ≤ frontier.waiting.length) (leaf : Digest) :
    ∃ root, frontier.rootWith leaf = .ok root := by
  have hpresent : ∀ position, (frontier.waiting.take frontier.nextHeight)[position]? = some none →
      0 + position < maxDepth := by
    intro position hmissing
    rw [List.getElem?_take] at hmissing
    split at hmissing
    · next hbelow =>
      by_contra hpast
      exact bounded.present enough position (by omega) hbelow hmissing
    · cases hmissing
  obtain ⟨root, hroot⟩ := joinFrontier_ok hpresent leaf
  refine ⟨root, ?_⟩
  rw [rootWith_of_few bounded.few, if_neg (by omega), hroot, orCrash_ok]

/-- Without enough entries the next root of a bounded frontier is refused. -/
theorem Frontier.Bounded.rootWith_short (bounded : frontier.Bounded)
    (short : frontier.waiting.length < frontier.nextHeight) (leaf : Digest) :
    frontier.rootWith leaf = .error (.refused (.shortFrontier frontier.leafCount.toNat
      frontier.waiting.length frontier.nextHeight)) := by
  rw [rootWith_of_few bounded.few, if_pos short]

/-- The computation of the next root of any other frontier crashes. -/
theorem rootWith_crashed (unbounded : ¬ frontier.Bounded) (leaf : Digest) :
    ∃ crash, frontier.rootWith leaf = .error (.crashed crash) := by
  by_cases few : frontier.leafCount.toNat < powerOfTwo 63
  · have hmissing : ¬ (frontier.nextHeight ≤ frontier.waiting.length →
        ∀ height, maxDepth ≤ height → height < frontier.nextHeight →
          frontier.waiting[height]? ≠ some none) := fun present => unbounded ⟨few, present⟩
    push Not at hmissing
    obtain ⟨enough, height, hpast, hbelow, hentry⟩ := hmissing
    have htake : (frontier.waiting.take frontier.nextHeight)[height]? = some none := by
      rw [List.getElem?_take, if_pos hbelow, hentry]
    have hjoin : ∃ crash, joinFrontier 0 (frontier.waiting.take frontier.nextHeight) leaf =
        .error crash := joinFrontier_crashed htake (by omega) leaf
    obtain ⟨crash, heq⟩ := hjoin
    refine ⟨crash, ?_⟩
    rw [rootWith_of_few few, if_neg (by omega), heq, orCrash_error]
  · exact ⟨_, rootWith_of_many (by omega) leaf⟩

/-- With no more leaves than the table of empty roots can pad, the frontier is bounded. -/
theorem bounded_of_few (few : frontier.leafCount.toNat < powerOfTwo maxDepth) :
    frontier.Bounded := by
  have hheight : frontier.nextHeight ≤ maxDepth := ceilLog2_le_of_le_powerOfTwo few
  constructor
  · exact Nat.lt_of_lt_of_le few (by decide)
  · intro _ height hpast hbelow
    omega

/-- Whatever a frontier is made from, its root with one more leaf is computed or refused exactly if
the frontier is bounded, as it is with fewer than `2 ^ 24` leaves; otherwise the computation
crashes. A bounded frontier is refused exactly if it has too few entries. -/
theorem rootWith_outcome (frontier : Frontier) (leaf : Digest) :
    (((∃ root, frontier.rootWith leaf = .ok root) ∨
        ∃ reason, frontier.rootWith leaf = .error (.refused (.invalidArgument reason))) ↔
      frontier.Bounded) ∧
    (¬ frontier.Bounded → ∃ crash, frontier.rootWith leaf = .error (.crashed crash)) ∧
    (frontier.Bounded → ((∃ reason,
        frontier.rootWith leaf = .error (.refused (.invalidArgument reason))) ↔
      frontier.waiting.length < frontier.nextHeight)) ∧
    (frontier.leafCount.toNat < powerOfTwo maxDepth → frontier.Bounded) := by
  refine ⟨⟨?_, ?_⟩, fun unbounded => rootWith_crashed unbounded leaf, ?_, bounded_of_few⟩
  · intro answered
    by_contra unbounded
    obtain ⟨crash, hcrash⟩ := rootWith_crashed unbounded leaf
    rw [hcrash] at answered
    rcases answered with ⟨root, hroot⟩ | ⟨reason, hreason⟩
    · cases hroot
    · cases hreason
  · intro bounded
    by_cases short : frontier.waiting.length < frontier.nextHeight
    · exact Or.inr ⟨_, bounded.rootWith_short short leaf⟩
    · exact Or.inl (bounded.rootWith_ok (by omega) leaf)
  · intro bounded
    constructor
    · rintro ⟨reason, hreason⟩
      by_contra enough
      obtain ⟨root, hroot⟩ := bounded.rootWith_ok (by omega) leaf
      rw [hroot] at hreason
      cases hreason
    · exact fun short => ⟨_, bounded.rootWith_short short leaf⟩

/-- The largest number of leaves that can be written has no successor, so even without any entries
its next root is neither computed nor refused. -/
theorem rootWith_not_always_answered :
    ¬ ∀ (frontier : Frontier) (leaf : Digest), (∃ root, frontier.rootWith leaf = .ok root) ∨
      ∃ reason, frontier.rootWith leaf = .error (.refused (.invalidArgument reason)) := by
  intro answered
  have hcrash : Frontier.rootWith ⟨18446744073709551615, []⟩ Digest.zero =
      .error (.crashed .sumOverflow) := rfl
  rcases answered ⟨18446744073709551615, []⟩ Digest.zero with ⟨root, hroot⟩ | ⟨reason, hreason⟩
  · cases hcrash.symm.trans hroot
  · cases hcrash.symm.trans hreason

end BlockIntake.Merkle
