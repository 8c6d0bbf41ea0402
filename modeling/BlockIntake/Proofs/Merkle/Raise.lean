import BlockIntake.Proofs.Merkle.Feed

/-!
# Raising hashes

Appending, taking a batch and landing a result all end by raising hashes to the next height, where
the same happens again. Each of them succeeds while there is room above, and afterwards the lanes
feed each other as before. The induction over the heights stands in one place, `pushInto_ok`; taking
and landing are proved for any way of raising that keeps the lanes above in order.
-/

namespace BlockIntake.Merkle

namespace Combiner

/-- A way to bring hashes to a height that keeps the lanes from there upwards in order. -/
def RaisesTo (batchSize height : Nat)
    (raise : List Digest → Combiner → Except Crash Combiner) : Prop :=
  ∀ hashes c input, c.Shaped → Feeds batchSize c height input →
    (input ++ hashes).length ≤ room height →
    ∃ next, raise hashes c = .ok next ∧ Feeds batchSize next height (input ++ hashes) ∧
      Grows height hashes.length c next

variable {c : Combiner} {height batchSize : Nat} {taken : List (List Digest)}
  {input : List Digest} {raise : List Digest → Combiner → Except Crash Combiner}

/-- Landing the result of a batch keeps the account of the lane and raises what is due. -/
theorem landWith_ok (raises : RaisesTo batchSize (height + 1) raise) (h : height < maxDepth)
    (shaped : c.Shaped) {ticket : Nat} {batch : List Digest}
    (keeps : c.Keeps height [ticket] taken) (hbatch : taken[ticket]? = some batch)
    (above : Feeds batchSize c (height + 1) (c.raisedAt height taken))
    (fits : (taken.flatMap (pairUp (emptyRoot height))).length ≤ room (height + 1)) :
    ∃ next, landWith raise height ticket (pairUp (emptyRoot height) batch) c = .ok next ∧
      next.Keeps height [] taken ∧ (next.laneAt height).pending = (c.laneAt height).pending ∧
      next.jobsAt height = c.jobsAt height ∧
      Feeds batchSize next (height + 1) (next.raisedAt height taken) ∧
      Grows height (pairUp (emptyRoot height) batch).length c next := by
  obtain ⟨tracks, settled, pending, hraised⟩ := keeps.tracks.land hbatch
  have hheld := Lane.length_held_land (c.laneAt height) ticket (pairUp (emptyRoot height) batch)
  simp only [landWith]
  rw [shaped.lane_eq h, ok_bind]
  generalize hland : (c.laneAt height).land ticket (pairUp (emptyRoot height) batch) = landed at *
  obtain ⟨released, lane⟩ := landed
  have hlane : (c.setLane height lane).laneAt height = lane := shaped.laneAt_setLane h lane
  have hfeeds : Feeds batchSize (c.setLane height lane) (height + 1) (c.raisedAt height taken) :=
    above.setLane lane
  have hroom : (c.raisedAt height taken ++ released).length ≤ room (height + 1) := by
    rw [raisedAt, ← hraised]
    exact (Lane.length_raised_le _ _ _).trans fits
  obtain ⟨next, heq, hnext, hgrows⟩ := raises released _ _ (shaped.setLane lane) hfeeds hroom
  have hsame : next.laneAt height = lane :=
    (hgrows.lanes height (Nat.lt_succ_self _)).trans hlane
  have hjobs : next.jobsAt height = c.jobsAt height := hgrows.jobs height (Nat.lt_succ_self _)
  refine ⟨next, heq, ⟨?_, ?_, ?_⟩, ?_, hjobs, ?_, ?_⟩
  · rw [hsame, ticketsOut, hjobs]
    exact tracks
  · rw [hsame]
    exact settled
  · rw [hjobs]
    exact keeps.batches
  · rw [hsame]
    exact pending
  · rw [raisedAt, hsame, hraised]
    exact hnext
  · have hset := heldCount_setLane (shaped.lanes_size ▸ h) lane
    have hraise := hgrows.held
    simp only at hheld
    refine ⟨?_, ?_, hgrows.shaped, by omega⟩
    · intro below hbelow
      rw [hgrows.lanes below (by omega), laneAt_setLane_of_ne (by omega)]
    · intro below hbelow
      rw [hgrows.jobs below (by omega), jobsAt_setLane]

/-- A job that is added stands at its height alone. -/
theorem jobsAt_addJob (c : Combiner) (job : Job) (other : Nat) :
    (c.addJob job).jobsAt other = c.jobsAt other ++ if job.height = other then [job] else [] := by
  by_cases h : job.height = other <;> simp [jobsAt, addJob, h]

/-- A job that is added leaves the jobs of other heights alone. -/
theorem jobsAt_addJob_of_ne (c : Combiner) {job : Job} {other : Nat} (hne : job.height ≠ other) :
    (c.addJob job).jobsAt other = c.jobsAt other := by
  rw [jobsAt_addJob, if_neg hne, List.append_nil]

/-- A large batch can become a job. -/
theorem Shaped.addJob (shaped : c.Shaped) {job : Job} (h : job.height < maxDepth)
    (large : minToSchedule ≤ job.batch.length) : (c.addJob job).Shaped where
  lanes_size := shaped.lanes_size
  job_height other hother := by
    rcases List.mem_append.mp hother with hold | hnew
    · exact shaped.job_height other hold
    · rw [List.mem_singleton.mp hnew]
      exact h
  job_large other hother := by
    rcases List.mem_append.mp hother with hold | hnew
    · exact shaped.job_large other hold
    · rw [List.mem_singleton.mp hnew]
      exact large

/-- The ticket of a batch is not loose any more once a job has the batch. -/
theorem Keeps.addJob {job : Job} (keeps : c.Keeps job.height [job.ticket] taken)
    (hbatch : taken[job.ticket]? = some job.batch) : (c.addJob job).Keeps job.height [] taken where
  tracks := by
    rw [List.nil_append, ticketsOut, jobsAt_addJob, if_pos rfl, List.map_append]
    exact keeps.tracks.perm List.perm_append_comm
  settled := keeps.settled
  batches other hother := by
    rw [jobsAt_addJob, if_pos rfl] at hother
    rcases List.mem_append.mp hother with hold | hnew
    · exact keeps.batches other hold
    · rw [List.mem_singleton.mp hnew]
      exact hbatch

/-- The tree after everything pending at a height was taken. -/
def takePending (c : Combiner) (height : Nat) : Combiner :=
  c.setLane height (c.laneAt height).takeBatch.2

/-- The batch that takes everything pending at a height. -/
def pendingJob (c : Combiner) (height : Nat) : Job :=
  ⟨height, (c.laneAt height).nextTicket, (c.laneAt height).pending.toList⟩

/-- What a lane has taken once everything pending is taken too. -/
def takenAll (c : Combiner) (height : Nat) (taken : List (List Digest)) : List (List Digest) :=
  if (c.laneAt height).pending.isEmpty then taken
  else taken ++ [(c.laneAt height).pending.toList]

/-- Taking everything pending loses none of it. -/
theorem flatten_takenAll (c : Combiner) (height : Nat) (taken : List (List Digest)) :
    (c.takenAll height taken).flatten = taken.flatten ++ (c.laneAt height).pending.toList := by
  unfold takenAll
  split
  · next hempty => simp [Array.isEmpty_iff.mp hempty]
  · simp

/-- A batch that was just taken is in the account of its lane, and its ticket is still loose. -/
theorem Keeps.takePending (keeps : c.Keeps height [] taken) (h : height < maxDepth)
    (shaped : c.Shaped) : (c.takePending height).Keeps height [(c.pendingJob height).ticket]
      (taken ++ [(c.pendingJob height).batch]) := by
  have hlane := shaped.laneAt_setLane h (c.laneAt height).takeBatch.2
  constructor
  · rw [Combiner.takePending, hlane]
    exact keeps.tracks.takeBatch.perm List.perm_append_comm
  · rw [Combiner.takePending, hlane]
    exact keeps.settled
  · intro job hjob
    have hbatch := keeps.batches job hjob
    rw [List.getElem?_append_left (List.getElem?_eq_some_iff.mp hbatch).1, hbatch]

/-- The batch that was just taken is found at its ticket. -/
theorem Keeps.getElem?_pendingJob {loose : List Nat} (keeps : c.Keeps height loose taken) :
    (taken ++ [(c.pendingJob height).batch])[(c.pendingJob height).ticket]? =
      some (c.pendingJob height).batch := by
  have hlength : (c.pendingJob height).ticket = taken.length := keeps.tracks.length_taken.symm
  rw [hlength, List.getElem?_concat_length]

/-- Taking a batch raises nothing. -/
theorem Keeps.raisedAt_takePending {loose : List Nat} (keeps : c.Keeps height loose taken)
    (h : height < maxDepth) (shaped : c.Shaped) :
    (c.takePending height).raisedAt height (taken ++ [(c.pendingJob height).batch]) =
      c.raisedAt height taken := by
  rw [raisedAt, Combiner.takePending, shaped.laneAt_setLane h]
  exact keeps.tracks.raised_takeBatch

/-- Taking a batch leaves the lanes above in order. -/
theorem Keeps.feeds_takePending {loose : List Nat} (keeps : c.Keeps height loose taken)
    (h : height < maxDepth) (shaped : c.Shaped)
    (above : Feeds batchSize c (height + 1) (c.raisedAt height taken)) :
    Feeds batchSize (c.takePending height) (height + 1)
      ((c.takePending height).raisedAt height (taken ++ [(c.pendingJob height).batch])) := by
  rw [keeps.raisedAt_takePending h shaped]
  exact above.setLane _

/-- Nothing is left pending where everything was taken. -/
theorem Shaped.pending_takePending (shaped : c.Shaped) (h : height < maxDepth) :
    ((c.takePending height).laneAt height).pending = #[] := by
  rw [takePending, shaped.laneAt_setLane h]
  rfl

/-- A batch that was taken is held by nobody until it is combined or becomes a job. -/
theorem Shaped.heldCount_takePending (shaped : c.Shaped) (h : height < maxDepth) :
    (c.takePending height).heldCount + (c.pendingJob height).batch.length = c.heldCount := by
  have hset := heldCount_setLane (shaped.lanes_size ▸ h) (c.laneAt height).takeBatch.2
  have htake := Lane.length_held_takeBatch (c.laneAt height)
  simp only [takePending, pendingJob]
  simp only [Lane.takeBatch] at hset htake ⊢
  omega

/-- A batch that is taken from a lane is not empty. -/
theorem length_pendingJob_pos (waiting : ¬(c.laneAt height).pending.isEmpty = true) :
    0 < (c.pendingJob height).batch.length := by
  rw [pendingJob, Array.length_toList]
  exact Nat.pos_of_ne_zero fun hzero => waiting (by simp [Array.isEmpty, hzero])

/-- A batch that was just taken can be combined on the spot: its result lands at once. -/
theorem Keeps.landPending (raises : RaisesTo batchSize (height + 1) raise) (h : height < maxDepth)
    (shaped : c.Shaped) (keeps : c.Keeps height [] taken)
    (waiting : ¬(c.laneAt height).pending.isEmpty = true)
    (above : Feeds batchSize c (height + 1) (c.raisedAt height taken))
    (fits : ((taken ++ [(c.pendingJob height).batch]).flatMap
      (pairUp (emptyRoot height))).length ≤ room (height + 1)) :
    ∃ next, landWith raise height (c.pendingJob height).ticket
        (pairUp (emptyRoot height) (c.pendingJob height).batch) (c.takePending height) = .ok next ∧
      next.Keeps height [] (taken ++ [(c.pendingJob height).batch]) ∧
      (next.laneAt height).pending = #[] ∧ next.jobsAt height = c.jobsAt height ∧
      Feeds batchSize next (height + 1)
        (next.raisedAt height (taken ++ [(c.pendingJob height).batch])) ∧
      Grows height 0 c next := by
  have hshape : (c.takePending height).Shaped := shaped.setLane _
  obtain ⟨next, heq, hkeeps, hsame, hjobs, hnext, hgrows⟩ :=
    landWith_ok raises h hshape (keeps.takePending h shaped) keeps.getElem?_pendingJob
      (keeps.feeds_takePending h shaped above) fits
  have hcount := shaped.heldCount_takePending h
  have hless := hgrows.held
  have hpos := length_pendingJob_pos waiting
  rw [length_pairUp] at hless
  refine ⟨next, heq, hkeeps, hsame.trans (shaped.pending_takePending h), hjobs, hnext,
    ?_, hgrows.jobs, hgrows.shaped, by omega⟩
  intro below hlt
  rw [hgrows.lanes below hlt, Combiner.takePending, laneAt_setLane_of_ne (Nat.ne_of_lt hlt)]

/-- Everything pending is combined on the spot if it is little, and becomes a job otherwise. -/
theorem Shaped.dispatchWith_eq (shaped : c.Shaped) (h : height < maxDepth) :
    dispatchWith raise height c =
      if (c.laneAt height).pending.isEmpty then .ok c
      else if (c.pendingJob height).batch.length < minToSchedule then
        landWith raise height (c.pendingJob height).ticket
          (pairUp (emptyRoot height) (c.pendingJob height).batch) (c.takePending height)
      else .ok ((c.takePending height).addJob (c.pendingJob height)) := by
  simp only [dispatchWith]
  rw [shaped.lane_eq h, ok_bind]
  simp only [combinePairs_of_lt h]
  rfl

/-- Taking everything pending keeps the account of the lane, whether the batch is combined on the
spot or becomes a job. -/
theorem dispatchWith_ok (raises : RaisesTo batchSize (height + 1) raise) (h : height < maxDepth)
    (shaped : c.Shaped) (keeps : c.Keeps height [] taken)
    (above : Feeds batchSize c (height + 1) (c.raisedAt height taken))
    (fits : ((c.takenAll height taken).flatMap (pairUp (emptyRoot height))).length ≤
      room (height + 1)) :
    ∃ next, dispatchWith raise height c = .ok next ∧
      next.Keeps height [] (c.takenAll height taken) ∧ (next.laneAt height).pending = #[] ∧
      Feeds batchSize next (height + 1) (next.raisedAt height (c.takenAll height taken)) ∧
      Grows height 0 c next := by
  rw [shaped.dispatchWith_eq h]
  unfold takenAll at fits ⊢
  by_cases hempty : (c.laneAt height).pending.isEmpty = true
  · rw [if_pos hempty, if_pos hempty]
    exact ⟨c, rfl, keeps, Array.isEmpty_iff.mp hempty, above, Grows.refl height shaped⟩
  · rw [if_neg hempty] at fits
    rw [if_neg hempty, if_neg hempty]
    by_cases hsmall : (c.pendingJob height).batch.length < minToSchedule
    · rw [if_pos hsmall]
      obtain ⟨next, heq, hkeeps, hpending, -, hnext, hgrows⟩ :=
        keeps.landPending raises h shaped hempty above fits
      exact ⟨next, heq, hkeeps, hpending, hnext, hgrows⟩
    · rw [if_neg hsmall]
      have hshape : (c.takePending height).Shaped := shaped.setLane _
      have htaken := keeps.takePending h shaped
      have hcount := shaped.heldCount_takePending h
      have hadd := heldCount_addJob (c.takePending height) (c.pendingJob height)
      refine ⟨_, rfl, htaken.addJob keeps.getElem?_pendingJob, shaped.pending_takePending h, ?_,
        ?_, ?_, ?_, ?_⟩
      · exact (keeps.feeds_takePending h shaped above).congr (fun _ _ => rfl)
          fun other hother => jobsAt_addJob_of_ne _ (Nat.ne_of_lt hother)
      · intro below hlt
        exact laneAt_setLane_of_ne (Nat.ne_of_lt hlt) _
      · intro below hlt
        exact jobsAt_addJob_of_ne _ (Nat.ne_of_gt hlt)
      · exact hshape.addJob h (Nat.le_of_not_lt hsmall)
      · omega

/-- If an even number of hashes is pending, taking them leaves batches of even length only. -/
theorem even_takenAll (even : ∀ batch ∈ taken, batch.length % 2 = 0 ∧ batch ≠ [])
    (evenPending : (c.laneAt height).pending.size % 2 = 0) :
    ∀ batch ∈ c.takenAll height taken, batch.length % 2 = 0 ∧ batch ≠ [] := by
  unfold takenAll
  split
  · exact even
  · next hsome =>
    intro batch hbatch
    rcases List.mem_append.mp hbatch with hold | hnew
    · exact even batch hold
    · rw [List.mem_singleton.mp hnew]
      refine ⟨by rwa [Array.length_toList], fun hnil => hsome ?_⟩
      rw [Array.isEmpty_iff, ← Array.toList_eq_nil_iff]
      exact hnil

/-- Taking an even number of pending hashes keeps the lanes in order. -/
theorem dispatchWith_feeds (raises : RaisesTo batchSize (height + 1) raise) (h : height < maxDepth)
    (shaped : c.Shaped) (positive : 0 < batchSize) (keeps : c.Keeps height [] taken)
    (even : ∀ batch ∈ taken, batch.length % 2 = 0 ∧ batch ≠ [])
    (evenPending : (c.laneAt height).pending.size % 2 = 0)
    (above : Feeds batchSize c (height + 1) (c.raisedAt height taken))
    (fits : (taken.flatten ++ (c.laneAt height).pending.toList).length ≤ room height) :
    ∃ next, dispatchWith raise height c = .ok next ∧
      Feeds batchSize next height (taken.flatten ++ (c.laneAt height).pending.toList) ∧
      Grows height 0 c next := by
  have hall := even_takenAll even evenPending
  rw [← flatten_takenAll] at fits ⊢
  obtain ⟨next, heq, hkeeps, hempty, habove, hgrows⟩ :=
    dispatchWith_ok raises h shaped keeps above (length_flatMap_pairUp_le _ hall fits)
  refine ⟨next, heq, ?_, hgrows⟩
  have hfeeds := Feeds.lane hkeeps hall (by rw [hempty]; exact positive) habove
  rw [hempty] at hfeeds
  simpa using hfeeds

/-- Hashes are raised one after the other. -/
theorem raisesTo_foldlM {push : Combiner → Digest → Except Crash Combiner}
    (pushes : ∀ c input hash, c.Shaped → Feeds batchSize c height input →
      (input ++ [hash]).length ≤ room height →
      ∃ next, push c hash = .ok next ∧ Feeds batchSize next height (input ++ [hash]) ∧
        Grows height 1 c next) :
    RaisesTo batchSize height fun hashes c => hashes.foldlM push c := by
  intro hashes
  induction hashes with
  | nil =>
    intro c input shaped feeds _
    refine ⟨c, rfl, ?_, Grows.refl height shaped⟩
    rwa [List.append_nil]
  | cons hash rest ih =>
    intro c input shaped feeds fits
    have hfirst : (input ++ [hash]).length ≤ room height := by
      simp only [List.length_append, List.length_cons, List.length_nil] at fits ⊢
      omega
    have happend : input ++ hash :: rest = (input ++ [hash]) ++ rest := by simp
    obtain ⟨middle, hpush, hmiddle, hgrows⟩ := pushes c input hash shaped feeds hfirst
    obtain ⟨next, hfold, hnext, hmore⟩ :=
      ih middle (input ++ [hash]) hgrows.shaped hmiddle (happend ▸ fits)
    refine ⟨next, ?_, happend ▸ hnext, ?_⟩
    · simp only [List.foldlM_cons, hpush, ok_bind]
      exact hfold
    · rw [List.length_cons, Nat.add_comm]
      exact hgrows.trans hmore

/-- Only the pending hashes differ, so the account is the same. -/
theorem Keeps.setPending (keeps : c.Keeps height [] taken) (h : height < maxDepth)
    (shaped : c.Shaped) (pending : Array Digest) :
    (c.setLane height { c.laneAt height with pending }).Keeps height [] taken := by
  have hlane := shaped.laneAt_setLane h { c.laneAt height with pending }
  refine ⟨?_, ?_, keeps.batches⟩
  · rw [hlane]
    exact { keeps.tracks with }
  · rw [hlane]
    exact keeps.settled

/-- Putting a hash into the lane of a height succeeds while there is room. The induction runs over
the lanes left above. -/
theorem pushInto_ok (positive : 0 < batchSize) (evenSize : batchSize % 2 = 0) (left : Nat)
    (hleft : left ≤ maxDepth) (c : Combiner) (input : List Digest) (hash : Digest)
    (shaped : c.Shaped) (feeds : Feeds batchSize c (maxDepth - left) input)
    (fits : (input ++ [hash]).length ≤ room (maxDepth - left)) :
    ∃ next, pushInto batchSize left c hash = .ok next ∧
      Feeds batchSize next (maxDepth - left) (input ++ [hash]) ∧
      Grows (maxDepth - left) 1 c next := by
  induction left generalizing c input hash with
  | zero =>
    rw [Nat.sub_zero, room_maxDepth] at fits
    simp at fits
  | succ left ih =>
    have hlt : maxDepth - (left + 1) < maxDepth := by omega
    have hnext : maxDepth - left = maxDepth - (left + 1) + 1 := by omega
    simp only [pushInto]
    rw [hnext] at ih
    generalize maxDepth - (left + 1) = height at *
    obtain ⟨taken, keeps, even, short, above, rfl⟩ := feeds.inv hlt
    rw [shaped.lane_eq hlt, ok_bind]
    have hpushed := Grows.setLane shaped hlt (Lane.length_held_push (c.laneAt height) hash).le
    have hkeeps : (c.setLane height ((c.laneAt height).push hash)).Keeps height [] taken :=
      keeps.setPending hlt shaped _
    have hlane := shaped.laneAt_setLane hlt ((c.laneAt height).push hash)
    have hpending : ((c.setLane height ((c.laneAt height).push hash)).laneAt height).pending =
        (c.laneAt height).pending.push hash := by rw [hlane, Lane.push]
    have habove : Feeds batchSize (c.setLane height ((c.laneAt height).push hash)) (height + 1)
        ((c.setLane height ((c.laneAt height).push hash)).raisedAt height taken) := by
      rw [raisedAt, hlane]
      exact above.setLane _
    have hinput : taken.flatten ++ (c.laneAt height).pending.toList ++ [hash] =
        taken.flatten ++ ((c.laneAt height).pending.push hash).toList := by simp
    rw [hinput] at fits ⊢
    generalize c.setLane height ((c.laneAt height).push hash) = pushed at *
    rw [← hpending] at fits ⊢
    by_cases hroom : (pushed.laneAt height).pending.size < batchSize
    · rw [Lane.push, if_pos (hpending ▸ hroom)]
      exact ⟨pushed, rfl, .lane hkeeps even hroom habove, hpushed⟩
    · -- The lane was one short of a full batch, so what is taken now has even length.
      have hfull : (pushed.laneAt height).pending.size = batchSize := by
        rw [hpending, Array.size_push] at hroom ⊢
        omega
      have raises : RaisesTo batchSize (height + 1)
          fun hashes c => hashes.foldlM (pushInto batchSize left) c :=
        raisesTo_foldlM fun c input hash shaped feeds fits =>
          ih (by omega) c input hash shaped feeds fits
      obtain ⟨next, heq, hfeeds, hgrows⟩ := dispatchWith_feeds raises hlt hpushed.shaped positive
        hkeeps even (by rw [hfull]; exact evenSize) habove fits
      rw [Lane.push, if_neg (hpending ▸ hroom)]
      exact ⟨next, heq, hfeeds, hpushed.trans hgrows⟩

/-- Putting a hash into the lane of a height succeeds while there is room. -/
theorem push_ok (positive : 0 < batchSize) (evenSize : batchSize % 2 = 0) (h : height ≤ maxDepth)
    (shaped : c.Shaped) (feeds : Feeds batchSize c height input) (hash : Digest)
    (fits : (input ++ [hash]).length ≤ room height) :
    ∃ next, c.push batchSize height hash = .ok next ∧
      Feeds batchSize next height (input ++ [hash]) ∧ Grows height 1 c next := by
  have hsub : maxDepth - (maxDepth - height) = height := by omega
  have hpush := pushInto_ok positive evenSize (maxDepth - height) (Nat.sub_le _ _) c input hash
  rw [hsub] at hpush
  exact hpush shaped feeds fits

/-- Raising hashes from a height keeps the lanes above it in order. -/
theorem raisesTo_raise (positive : 0 < batchSize) (evenSize : batchSize % 2 = 0)
    (h : height < maxDepth) : RaisesTo batchSize (height + 1) (Combiner.raise batchSize height) :=
  raisesTo_foldlM fun _ _ hash shaped feeds fits =>
    push_ok positive evenSize h shaped feeds hash fits

end Combiner

end BlockIntake.Merkle
