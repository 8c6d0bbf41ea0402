import BlockIntake.Proofs.Merkle.Landing

/-!
# The flush

Once the root was requested, no leaf comes any more, and everything pending is taken height by
height, an odd last hash included. The cursor of the flush stands at the first height that is not
done: all lanes below are empty and without jobs, and its own lane has got every hash of its level.
It waits there only while some job of that height is out. When it reaches the height of the root,
nothing is left but the root.
-/

namespace BlockIntake.Merkle

namespace Combiner

variable {c : Combiner} {height batchSize position : Nat} {taken : List (List Digest)}
  {input leaves : List Digest} {job : Job}

/-- A lane has got all hashes of `input`: its batches and what is pending are paired as these are,
and the lanes above are in order. Only the batch taken last may have odd length. -/
def Drains (batchSize : Nat) (c : Combiner) (height : Nat) (input : List Digest) : Prop :=
  ∃ taken, c.Keeps height [] taken ∧
    taken.flatMap (pairUp (emptyRoot height)) ++
        pairUp (emptyRoot height) (c.laneAt height).pending.toList =
      pairUp (emptyRoot height) input ∧
    Feeds batchSize c (height + 1) (c.raisedAt height taken)

/-- Lanes in order can be drained. -/
theorem Feeds.drains (feeds : Feeds batchSize c height input) (h : height < maxDepth) :
    Drains batchSize c height input := by
  obtain ⟨taken, keeps, even, -, above, rfl⟩ := feeds.inv h
  exact ⟨taken, keeps, (pairUp_flatten_append _ even _).symm, above⟩

/-- Everything pending can be taken from a lane that drains. -/
theorem Drains.dispatch (positive : 0 < batchSize) (evenSize : batchSize % 2 = 0)
    (h : height < maxDepth) (shaped : c.Shaped) (drains : Drains batchSize c height input)
    (fits : (pairUp (emptyRoot height) input).length ≤ room (height + 1)) :
    ∃ next, c.dispatch batchSize height = .ok next ∧ Drains batchSize next height input ∧
      (next.laneAt height).pending = #[] ∧ Grows height 0 c next := by
  obtain ⟨taken, keeps, hpairs, above⟩ := drains
  have hall : (c.takenAll height taken).flatMap (pairUp (emptyRoot height)) =
      pairUp (emptyRoot height) input := by
    rw [← hpairs]
    unfold takenAll
    split
    · next hempty => simp [Array.isEmpty_iff.mp hempty, pairUp]
    · simp
  obtain ⟨next, heq, hkeeps, hempty, habove, hgrows⟩ :=
    dispatchWith_ok (raisesTo_raise positive evenSize h) h shaped keeps above
      (hall ▸ fits)
  refine ⟨next, heq, ⟨c.takenAll height taken, hkeeps, ?_, habove⟩, hempty, hgrows⟩
  rw [hempty, hall]
  simp [pairUp]

/-- A lane that drains, with nothing pending or in flight, has passed on its whole level. -/
theorem Drains.feeds (drains : Drains batchSize c height input)
    (empty : (c.laneAt height).pending = #[]) (still : (c.laneAt height).inFlight = false) :
    c.jobsAt height = [] ∧ Feeds batchSize c (height + 1) (pairUp (emptyRoot height) input) := by
  obtain ⟨taken, keeps, hpairs, above⟩ := drains
  refine ⟨keeps.jobsAt_eq_nil still, ?_⟩
  have hraised : c.raisedAt height taken = pairUp (emptyRoot height) input := by
    rw [raisedAt, (keeps.tracks.idle still).2.2, ← hpairs, empty]
    simp [pairUp]
  rwa [hraised] at above

/-- Landing a job of the lane that drains, or of one above, keeps it draining. -/
theorem Drains.landJob (positive : 0 < batchSize) (evenSize : batchSize % 2 = 0)
    (shaped : c.Shaped) (drains : Drains batchSize c height input)
    (fits : (pairUp (emptyRoot height) input).length ≤ room (height + 1))
    (h : c.jobs[position]? = some job) (hheight : height ≤ job.height) :
    ∃ next, (c.withoutJob position).land batchSize job.height job.ticket
        (pairUp (emptyRoot job.height) job.batch) = .ok next ∧
      Drains batchSize next height input ∧ Grows height 0 c next ∧
      next.heldCount < c.heldCount := by
  obtain ⟨taken, keeps, hpairs, above⟩ := drains
  have hroom : (taken.flatMap (pairUp (emptyRoot height))).length ≤ room (height + 1) := by
    rw [← hpairs, List.length_append] at fits
    omega
  rcases Nat.eq_or_lt_of_le hheight with rfl | hlt
  · obtain ⟨next, heq, hkeeps, hpending, habove, hgrows, hless⟩ :=
      keeps.landJob positive evenSize shaped h above hroom
    exact ⟨next, heq, ⟨taken, hkeeps, by rw [hpending, hpairs], habove⟩, hgrows, hless⟩
  · obtain ⟨next, heq, habove, hgrows, hless⟩ :=
      above.landJob positive evenSize shaped ((Lane.length_raised_le _ _ _).trans hroom) h hlt
    have hlane := hgrows.lanes height hlt
    have hkeeps := keeps.congr hlane (hgrows.jobs height hlt)
    refine ⟨next, heq, ⟨taken, hkeeps, by rw [hlane, hpairs], ?_⟩,
      hgrows.weaken hlt.le hgrows.held, hless⟩
    rwa [raisedAt, hlane]

/-- Where the cursor of a flush over `leaves` can stand: below the root the lane at the cursor
drains, at the root everything else is done, and below the cursor nothing is in flight. -/
structure FlushedTo (batchSize : Nat) (leaves : List Digest) (c : Combiner) (cursor : Nat) :
    Prop where
  /-- The shape of the tree. -/
  shaped : c.Shaped
  /-- No job stands below. -/
  jobs_above : ∀ job ∈ c.jobs, cursor ≤ job.height
  /-- Nothing below waits for a job. -/
  still_below : ∀ below < cursor, (c.laneAt below).inFlight = false
  /-- Below the root the lane drains. -/
  drains : cursor < ceilLog2 leaves.length → Drains batchSize c cursor (level leaves cursor)
  /-- At the root a single hash has come. -/
  feeds : cursor = ceilLog2 leaves.length → Feeds batchSize c cursor (level leaves cursor)

/-- Where a flush stops: it waits at a height in flight, or has found the root. -/
inductive FlushStop (batchSize : Nat) (leaves : List Digest) (c : Combiner) :
    (cursor : Nat) → (root : Option Digest) → Prop where
  /-- It waits for a job. -/
  | parked {cursor : Nat} (below : cursor < ceilLog2 leaves.length)
      (flushed : FlushedTo batchSize leaves c cursor)
      (flying : (c.laneAt cursor).inFlight = true) : FlushStop batchSize leaves c cursor none
  /-- It has found the root, and no job is left. -/
  | found (flushed : FlushedTo batchSize leaves c (ceilLog2 leaves.length)) (idle : c.jobs = []) :
      FlushStop batchSize leaves c (ceilLog2 leaves.length) (some (topHash leaves))

/-- No job stands below a height below which nothing changed. -/
theorem Grows.jobs_above {next : Combiner} {extra : Nat} (grows : Grows height extra c next)
    (above : ∀ job ∈ c.jobs, height ≤ job.height) : ∀ job ∈ next.jobs, height ≤ job.height := by
  intro job hjob
  by_contra hlt
  have hat := mem_jobsAt hjob
  rw [grows.jobs job.height (by omega)] at hat
  exact hlt (above job (List.mem_filter.mp hat).1)

/-- Nothing is in flight below a height below which nothing changed. -/
theorem Grows.still_below {next : Combiner} {extra : Nat} (grows : Grows height extra c next)
    (still : ∀ below < height, (c.laneAt below).inFlight = false) :
    ∀ below < height, (next.laneAt below).inFlight = false := by
  intro below h
  rw [grows.lanes below h]
  exact still below h

/-- The flush goes on to where it stops. The induction runs over the heights left to the root. -/
theorem flushUpTo_ok (positive : 0 < batchSize) (evenSize : batchSize % 2 = 0)
    (few : leaves.length ≤ maxLeaves) (left cursor : Nat) (c : Combiner)
    (hleft : cursor + left = ceilLog2 leaves.length)
    (flushed : FlushedTo batchSize leaves c cursor) :
    ∃ stop root next,
      CombiningTree.flushUpTo batchSize left cursor c = .ok (stop, root, next) ∧
      FlushStop batchSize leaves next stop root ∧ next.heldCount ≤ c.heldCount := by
  have hdepth := ceilLog2_lt_maxDepth few
  induction left generalizing cursor c with
  | zero =>
    have htop : cursor = ceilLog2 leaves.length := by omega
    have single := length_level_top leaves
    have feeds := flushed.feeds htop
    rw [← htop] at single
    have hpending := feeds.pending_of_single (by omega) single
    have hidle : c.jobs = [] := List.eq_nil_iff_forall_not_mem.mpr fun job hjob => by
      have hlow := feeds.job_height_lt single flushed.shaped hjob
      have hhigh := flushed.jobs_above job hjob
      omega
    have hroot : (c.laneAt cursor).pending[0]?.getD (emptyRoot 0) = topHash leaves := by
      rw [← Array.getElem?_toList, hpending, topHash, ← htop]
      cases level leaves cursor <;> rfl
    refine ⟨cursor, some (topHash leaves), c, ?_, ?_, Nat.le_refl _⟩
    · rw [CombiningTree.flushUpTo, flushed.shaped.lane_eq (by omega), ok_bind, hroot]
      rfl
    · rw [htop] at flushed ⊢
      exact .found flushed hidle
  | succ left ih =>
    have hbelow : cursor < ceilLog2 leaves.length := by omega
    have hlt : cursor < maxDepth := by omega
    have hroom := length_level_le_room few (show cursor + 1 < maxDepth by omega)
    obtain ⟨next, heq, hdrains, hempty, hgrows⟩ :=
      (flushed.drains hbelow).dispatch positive evenSize hlt flushed.shaped hroom
    have hheld := hgrows.held
    have hjobs := hgrows.jobs_above flushed.jobs_above
    have hstill := hgrows.still_below flushed.still_below
    rw [CombiningTree.flushUpTo, heq, ok_bind, inFlight, hgrows.shaped.lane_eq hlt, ok_bind,
      pure_eq_ok, ok_bind]
    cases hflying : (next.laneAt cursor).inFlight with
    | true =>
      refine ⟨cursor, none, next, rfl, .parked hbelow ⟨hgrows.shaped, hjobs, hstill,
        fun _ => hdrains, fun htop => ?_⟩ hflying, by omega⟩
      omega
    | false =>
      obtain ⟨hnone, hfeeds⟩ := hdrains.feeds hempty hflying
      have hnext : FlushedTo batchSize leaves next (cursor + 1) := by
        refine ⟨hgrows.shaped, ?_, ?_, fun _ => hfeeds.drains (by omega), fun _ => hfeeds⟩
        · intro job hjob
          have hle := hjobs job hjob
          have hne : job.height ≠ cursor := by
            intro hsame
            have hat := mem_jobsAt hjob
            rw [hsame, hnone] at hat
            exact absurd hat List.not_mem_nil
          omega
        · intro below hlow
          rcases Nat.lt_succ_iff_lt_or_eq.mp hlow with hlt | rfl
          · exact hstill below hlt
          · exact hflying
      obtain ⟨stop, root, last, hflush, hstop, hless⟩ := ih (cursor + 1) next (by omega) hnext
      exact ⟨stop, root, last, hflush, hstop, by omega⟩

end Combiner

namespace CombiningTree

open Combiner

variable {tree : CombiningTree} {leaves : List Digest} {position : Nat} {job : Job}

/-- The tree combines batches of a positive even size and has counted these leaves. -/
structure Counts (tree : CombiningTree) (leaves : List Digest) : Prop where
  /-- Batches have a positive size. -/
  positive : 0 < tree.batchSize
  /-- Batches have an even size. -/
  evenSize : tree.batchSize % 2 = 0
  /-- All leaves are counted. -/
  leafCount : tree.leafCount = leaves.length
  /-- There are not too many of them. -/
  few : leaves.length ≤ maxLeaves

/-- A closed tree: its flush stands where it stopped, and the root was delivered exactly if it was
found. -/
structure Closing (tree : CombiningTree) (leaves : List Digest) : Prop
    extends tree.Counts leaves where
  /-- The tree is closed. -/
  closed : tree.closed = true
  /-- The flush and what it has delivered. -/
  flush : ∃ cursor root, tree.flush = some ⟨ceilLog2 leaves.length, cursor, root.isNone⟩ ∧
    tree.roots = root.toList ∧ FlushStop tree.batchSize leaves tree.combiner cursor root

/-- A flush that still awaits its root goes on to where it stops. -/
theorem Counts.advance {cursor : Nat} (counts : tree.Counts leaves) (closed : tree.closed = true)
    (hflush : tree.flush = some ⟨ceilLog2 leaves.length, cursor, true⟩) (hroots : tree.roots = [])
    (hcursor : cursor ≤ ceilLog2 leaves.length)
    (flushed : FlushedTo tree.batchSize leaves tree.combiner cursor) :
    ∃ next, tree.advance = .ok next ∧ next.Closing leaves ∧
      next.combiner.heldCount ≤ tree.combiner.heldCount := by
  obtain ⟨stop, root, combiner, heq, hstop, hheld⟩ := flushUpTo_ok counts.positive counts.evenSize
    counts.few (ceilLog2 leaves.length - cursor) cursor tree.combiner (by omega) flushed
  refine ⟨{ tree with
    combiner
    flush := some ⟨ceilLog2 leaves.length, stop, root.isNone⟩
    roots := tree.roots ++ root.toList }, ?_, ?_, hheld⟩
  · rw [CombiningTree.advance, hflush]
    simp only [heq, ok_bind]
    rfl
  · exact ⟨{ counts with }, closed, stop, root, rfl, by simp [hroots], hstop⟩

/-- A job is combined, its result landed, and the flush moved on. -/
theorem landJob_eq (shaped : tree.combiner.Shaped) (h : tree.combiner.jobs[position]? = some job) :
    tree.landJob position = ((tree.combiner.withoutJob position).land tree.batchSize job.height
      job.ticket (pairUp (emptyRoot job.height) job.batch) >>= fun combiner =>
        advance { tree with combiner }) := by
  rw [landJob, h]
  simp only [combinePairs_of_lt (shaped.job_height job (List.mem_of_getElem? h)), ok_bind]
  rfl

/-- Landing a job of a closed tree moves the flush on to where it stops next. -/
theorem Closing.landJob (closing : tree.Closing leaves)
    (h : tree.combiner.jobs[position]? = some job) :
    ∃ next, tree.landJob position = .ok next ∧ next.Closing leaves ∧
      next.combiner.heldCount < tree.combiner.heldCount := by
  obtain ⟨counts, hclosed, cursor, root, hflush, hroots, hstop⟩ := closing
  have hdepth := ceilLog2_lt_maxDepth counts.few
  have hmem := List.mem_of_getElem? h
  cases hstop with
  | found _ idle => simp [idle] at hmem
  | parked below flushed flying =>
    have hroom := length_level_le_room counts.few (show cursor + 1 < maxDepth by omega)
    obtain ⟨combiner, heq, hdrains, hgrows, hless⟩ := (flushed.drains below).landJob
      counts.positive counts.evenSize flushed.shaped hroom h (flushed.jobs_above job hmem)
    have hnext : FlushedTo tree.batchSize leaves combiner cursor :=
      ⟨hgrows.shaped, hgrows.jobs_above flushed.jobs_above,
        hgrows.still_below flushed.still_below, fun _ => hdrains, fun htop => by omega⟩
    have hcounts : Counts { tree with combiner } leaves := { counts with }
    obtain ⟨next, hadvance, hclosing, hheld⟩ := hcounts.advance hclosed hflush hroots below.le hnext
    rw [landJob_eq flushed.shaped h, heq, ok_bind]
    exact ⟨next, hadvance, hclosing, lt_of_le_of_lt hheld hless⟩

end CombiningTree

end BlockIntake.Merkle
