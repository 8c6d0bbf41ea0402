import BlockIntake.Proofs.Merkle.Raise

/-!
# Landing jobs

A job can land at any time, whatever jobs of its own or of other heights have landed before. Its
result enters the account of its lane, the lanes below are not touched, and the tree holds fewer
hashes than before.
-/

namespace BlockIntake.Merkle

namespace Combiner

variable {c : Combiner} {height batchSize position : Nat} {taken : List (List Digest)}
  {input : List Digest} {job : Job}

/-- A job that is removed leaves the jobs of other heights alone. -/
theorem jobsAt_withoutJob_of_ne (h : c.jobs[position]? = some job) {other : Nat}
    (hne : job.height ≠ other) : (c.withoutJob position).jobsAt other = c.jobsAt other := by
  obtain ⟨front, back, hjobs, hrest⟩ := jobs_split h
  rw [jobsAt, jobsAt, hjobs, hrest, List.filter_append, List.filter_append,
    List.filter_cons_of_neg (by simpa using hne)]

/-- The jobs of a height are the one that is removed and those that remain. -/
theorem jobsAt_perm_withoutJob (h : c.jobs[position]? = some job) :
    (job :: (c.withoutJob position).jobsAt job.height).Perm (c.jobsAt job.height) := by
  obtain ⟨front, back, hjobs, hrest⟩ := jobs_split h
  rw [jobsAt, jobsAt, hjobs, hrest, List.filter_append, List.filter_append,
    List.filter_cons_of_pos (by simp)]
  exact List.perm_middle.symm

/-- A pool without one of its jobs keeps the shape. -/
theorem Shaped.withoutJob (shaped : c.Shaped) (position : Nat) :
    (c.withoutJob position).Shaped where
  lanes_size := shaped.lanes_size
  job_height other hother := shaped.job_height other (List.mem_of_mem_eraseIdx hother)
  job_large other hother := shaped.job_large other (List.mem_of_mem_eraseIdx hother)

/-- The ticket of a job that is removed becomes loose, and it is that of the job's batch. -/
theorem Keeps.withoutJob (keeps : c.Keeps job.height [] taken)
    (h : c.jobs[position]? = some job) :
    (c.withoutJob position).Keeps job.height [job.ticket] taken ∧
      taken[job.ticket]? = some job.batch := by
  have hperm := jobsAt_perm_withoutJob h
  refine ⟨⟨?_, keeps.settled, ?_⟩, ?_⟩
  · have htickets := hperm.map (fun job : Job => job.ticket)
    exact keeps.tracks.perm htickets
  · intro other hother
    exact keeps.batches other (hperm.mem_iff.mp (List.mem_cons_of_mem _ hother))
  · exact keeps.batches job (hperm.mem_iff.mp List.mem_cons_self)

/-- Landing a job succeeds. Its lane keeps its account and what was pending there, and the tree
holds fewer hashes. -/
theorem Keeps.landJob (positive : 0 < batchSize) (evenSize : batchSize % 2 = 0) (shaped : c.Shaped)
    (h : c.jobs[position]? = some job) (keeps : c.Keeps job.height [] taken)
    (above : Feeds batchSize c (job.height + 1) (c.raisedAt job.height taken))
    (fits : (taken.flatMap (pairUp (emptyRoot job.height))).length ≤ room (job.height + 1)) :
    ∃ next, (c.withoutJob position).land batchSize job.height job.ticket
        (pairUp (emptyRoot job.height) job.batch) = .ok next ∧
      next.Keeps job.height [] taken ∧
      (next.laneAt job.height).pending = (c.laneAt job.height).pending ∧
      Feeds batchSize next (job.height + 1) (next.raisedAt job.height taken) ∧
      Grows job.height 0 c next ∧ next.heldCount < c.heldCount := by
  have hmem : job ∈ c.jobs := List.mem_of_getElem? h
  have hheight := shaped.job_height job hmem
  have hlarge : 16 ≤ job.batch.length := shaped.job_large job hmem
  have hcount := heldCount_withoutJob h
  obtain ⟨hkeeps, hbatch⟩ := keeps.withoutJob h
  have hfeeds : Feeds batchSize (c.withoutJob position) (job.height + 1)
      ((c.withoutJob position).raisedAt job.height taken) :=
    above.congr (fun _ _ => rfl) fun other hother => jobsAt_withoutJob_of_ne h (by omega)
  obtain ⟨next, heq, hnext, hpending, -, habove, hgrows⟩ :=
    landWith_ok (raisesTo_raise positive evenSize hheight) hheight (shaped.withoutJob position)
      hkeeps hbatch hfeeds fits
  have hheld := hgrows.held
  rw [length_pairUp] at hheld
  refine ⟨next, heq, hnext, hpending, habove, ⟨hgrows.lanes, ?_, hgrows.shaped, ?_⟩, ?_⟩
  · intro below hbelow
    rw [hgrows.jobs below hbelow, jobsAt_withoutJob_of_ne h (by omega)]
  · omega
  · omega

/-- In a tree in order, a height in flight has a job with the ticket that leaves next. -/
theorem Keeps.exists_job (keeps : c.Keeps height [] taken)
    (flying : (c.laneAt height).inFlight = true) :
    ∃ job ∈ c.jobs, job.height = height ∧ job.ticket = (c.laneAt height).nextToForward := by
  have hout := keeps.tracks.forward_mem_out keeps.settled flying
  obtain ⟨job, hjob, hticket⟩ := List.mem_map.mp hout
  obtain ⟨hmem, hheight⟩ := List.mem_filter.mp hjob
  exact ⟨job, hmem, by simpa using hheight, hticket⟩

/-- Where nothing is in flight, no job stands. -/
theorem Keeps.jobsAt_eq_nil (keeps : c.Keeps height [] taken)
    (still : (c.laneAt height).inFlight = false) : c.jobsAt height = [] :=
  List.map_eq_nil_iff.mp (keeps.tracks.idle still).1

/-- Nothing is in flight in a lane, and at most an odd last hash is pending there. -/
def Rests (c : Combiner) (height : Nat) : Prop :=
  (c.laneAt height).inFlight = false ∧ (c.laneAt height).pending.size ≤ 1

/-- A list that ends with the hash held back is split there. -/
theorem splitOdd_append {front : List Digest} (even : front.length % 2 = 0)
    (held : Option Digest) : LeafTree.splitOdd (front ++ held.toList) = (held, front) := by
  cases held with
  | none =>
    have hnot : ¬ front.length % 2 = 1 := by omega
    simp [LeafTree.splitOdd, hnot]
  | some hash =>
    have hodd : (front.length + 1) % 2 = 1 := by omega
    simp [LeafTree.splitOdd, hodd]

/-- Batches of even length have an even number of hashes together. -/
theorem length_flatten_mod_two (even : ∀ batch ∈ taken, batch.length % 2 = 0 ∧ batch ≠ []) :
    taken.flatten.length % 2 = 0 := by
  have hhalf := length_flatMap_pairUp (emptyRoot 0) even
  omega

/-- Batches of even length are paired on their own. -/
theorem pairUp_flatten_append (pad : Digest)
    (even : ∀ batch ∈ taken, batch.length % 2 = 0 ∧ batch ≠ []) (back : List Digest) :
    pairUp pad (taken.flatten ++ back) = taken.flatMap (pairUp pad) ++ pairUp pad back := by
  induction taken with
  | nil => rfl
  | cons batch rest ih =>
    have hrest := ih fun other hother => even other (List.mem_cons_of_mem _ hother)
    have hbatch := (even batch List.mem_cons_self).1
    rw [List.flatten_cons, List.append_assoc, pairUp_append pad batch _ hbatch, hrest,
      List.flatMap_cons, List.append_assoc]

/-- The next height can be looked at alone: hashes have come to it, the complete pairs if the lane
rests, and whatever happens from there upwards without losing them happens to the tree. -/
theorem Feeds.step (feeds : Feeds batchSize c height input) (h : height < maxDepth)
    (fits : input.length ≤ room height) : ∃ inner, Feeds batchSize c (height + 1) inner ∧
      inner.length ≤ room (height + 1) ∧
      (c.Rests height → c.jobsAt height = [] ∧
        inner = pairUp (emptyRoot height) (LeafTree.splitOdd input).2) ∧
      ∀ next extra, Grows (height + 1) extra c next → Feeds batchSize next (height + 1) inner →
        Feeds batchSize next height input := by
  obtain ⟨taken, keeps, even, short, above, rfl⟩ := feeds.inv h
  rw [List.length_append] at fits
  refine ⟨c.raisedAt height taken, above, ?_, fun rests => ⟨keeps.jobsAt_eq_nil rests.1, ?_⟩, ?_⟩
  · exact (Lane.length_raised_le _ _ _).trans
      (length_flatMap_pairUp_le _ even (le_trans (Nat.le_add_right _ _) fits))
  · have hpending : (c.laneAt height).pending.toList = (c.laneAt height).pending[0]?.toList := by
      have hone := rests.2
      rw [← Array.length_toList] at hone
      rw [← Array.getElem?_toList]
      match (c.laneAt height).pending.toList, hone with
      | [], _ => rfl
      | [_], _ => rfl
    have hpairs := pairUp_flatten_append (emptyRoot height) even []
    rw [List.append_nil, pairUp, List.append_nil] at hpairs
    rw [hpending, splitOdd_append (length_flatten_mod_two even), hpairs]
    exact (keeps.tracks.idle rests.1).2.2
  · intro next extra hgrows hnext
    have hlane := hgrows.lanes height (Nat.lt_succ_self _)
    have hjobs := hgrows.jobs height (Nat.lt_succ_self _)
    rw [raisedAt, ← hlane] at hnext
    rw [← hlane] at short ⊢
    exact .lane (keeps.congr hlane hjobs) even short hnext

/-- Any height from a base upwards can be looked at alone. -/
theorem Feeds.focus {base : Nat} (feeds : Feeds batchSize c base input)
    (fits : input.length ≤ room base) (hbase : base ≤ height) (hmax : height ≤ maxDepth) :
    ∃ inner, Feeds batchSize c height inner ∧ inner.length ≤ room height ∧
      ∀ next extra, Grows height extra c next → Feeds batchSize next height inner →
        Feeds batchSize next base input := by
  induction height, hbase using Nat.le_induction with
  | base => exact ⟨input, feeds, fits, fun _ _ _ hnext => hnext⟩
  | succ height hle ih =>
    obtain ⟨middle, hmiddle, hroom, hback⟩ := ih (by omega)
    obtain ⟨inner, hinner, hfits, -, hdown⟩ := hmiddle.step (by omega) hroom
    refine ⟨inner, hinner, hfits, ?_⟩
    intro next extra hgrows hnext
    exact hback next extra (hgrows.weaken (Nat.le_succ _) hgrows.held)
      (hdown next extra hgrows hnext)

/-- Landing a job anywhere above a height keeps the lanes from there upwards in order. -/
theorem Feeds.landJob (positive : 0 < batchSize) (evenSize : batchSize % 2 = 0) (shaped : c.Shaped)
    {base : Nat} (feeds : Feeds batchSize c base input) (fits : input.length ≤ room base)
    (h : c.jobs[position]? = some job) (hbase : base ≤ job.height) :
    ∃ next, (c.withoutJob position).land batchSize job.height job.ticket
        (pairUp (emptyRoot job.height) job.batch) = .ok next ∧
      Feeds batchSize next base input ∧ Grows job.height 0 c next ∧
      next.heldCount < c.heldCount := by
  have hheight := shaped.job_height job (List.mem_of_getElem? h)
  obtain ⟨inner, hinner, hroom, hback⟩ := feeds.focus fits hbase hheight.le
  obtain ⟨taken, keeps, even, short, above, rfl⟩ := hinner.inv hheight
  rw [List.length_append] at hroom
  obtain ⟨next, heq, hnext, hpending, habove, hgrows, hless⟩ :=
    keeps.landJob positive evenSize shaped h above
      (length_flatMap_pairUp_le _ even (le_trans (Nat.le_add_right _ _) hroom))
  refine ⟨next, heq, hback next 0 hgrows ?_, hgrows, hless⟩
  rw [← hpending] at short ⊢
  exact .lane hnext even short habove

/-- Where at most one hash has come, no batch of even length was taken. -/
theorem taken_eq_nil (even : ∀ batch ∈ taken, batch.length % 2 = 0 ∧ batch ≠ [])
    (single : taken.flatten.length ≤ 1) : taken = [] := by
  cases taken with
  | nil => rfl
  | cons batch rest =>
    obtain ⟨heven, hne⟩ := even batch List.mem_cons_self
    have hpos := List.length_pos_of_ne_nil hne
    simp only [List.flatten_cons, List.length_append] at single
    omega

/-- Where at most one hash has come, it is pending. -/
theorem Feeds.pending_of_single (feeds : Feeds batchSize c height input) (h : height < maxDepth)
    (single : input.length ≤ 1) : (c.laneAt height).pending.toList = input := by
  obtain ⟨taken, -, even, -, -, rfl⟩ := feeds.inv h
  rw [List.length_append] at single
  rw [taken_eq_nil even (le_trans (Nat.le_add_right _ _) single)]
  rfl

/-- Where at most one hash has come, no job stands from there upwards. -/
theorem Feeds.job_height_lt (feeds : Feeds batchSize c height input) (single : input.length ≤ 1)
    (shaped : c.Shaped) (hjob : job ∈ c.jobs) : job.height < height := by
  by_contra hle
  induction feeds with
  | top => exact hle (shaped.job_height job hjob)
  | @lane height taken keeps even short above ih =>
    rw [List.length_append] at single
    have hnone := taken_eq_nil even (le_trans (Nat.le_add_right _ _) single)
    subst hnone
    have hheight : job.height = height := by
      by_contra hne
      exact ih (by simp [raisedAt, Lane.raised]) (by omega)
    have hbatch := keeps.batches job (hheight ▸ mem_jobsAt hjob)
    simp at hbatch

end Combiner

end BlockIntake.Merkle
