import BlockIntake.Proofs.Merkle.Held
import BlockIntake.Proofs.Merkle.Level
import BlockIntake.Proofs.Merkle.Ticket

/-!
# Lanes that feed each other

The hashes that have come to a height are the batches taken from its lane, followed by what is
pending there; the next height has got the pairs of the batches whose results have left. As long as
every batch has even length, no hash ever changes its place: the hashes of a height are those of the
complete tree, as far as they are known. Appending a leaf and landing a job keep all of this, and
what they change stands at their height or above.
-/

namespace BlockIntake.Merkle

namespace Combiner

/-- The jobs of a height. -/
def jobsAt (c : Combiner) (height : Nat) : List Job := c.jobs.filter (·.height == height)

/-- The tickets of the jobs of a height. -/
def ticketsOut (c : Combiner) (height : Nat) : List Nat := (c.jobsAt height).map (·.ticket)

/-- The hashes that have left a height for the next one. -/
def raisedAt (c : Combiner) (height : Nat) (taken : List (List Digest)) : List Digest :=
  (c.laneAt height).raised (emptyRoot height) taken

/-- There is a lane for every height, and only large batches of these heights are with jobs. -/
structure Shaped (c : Combiner) : Prop where
  /-- One lane for every height. -/
  lanes_size : c.lanes.size = maxDepth
  /-- Every job belongs to a lane. -/
  job_height : ∀ job ∈ c.jobs, job.height < maxDepth
  /-- A smaller batch is combined on the spot. -/
  job_large : ∀ job ∈ c.jobs, minToSchedule ≤ job.batch.length

/-- Nothing changed below a height, and at most `extra` hashes were added. -/
structure Grows (height extra : Nat) (c next : Combiner) : Prop where
  /-- The lanes below are the same. -/
  lanes : ∀ below < height, next.laneAt below = c.laneAt below
  /-- The jobs below are the same. -/
  jobs : ∀ below < height, next.jobsAt below = c.jobsAt below
  /-- The shape is the same. -/
  shaped : next.Shaped
  /-- The hashes added. -/
  held : next.heldCount ≤ c.heldCount + extra

/-- The lane of a height and its jobs hold what its tickets say; the tickets in `loose` belong to
batches about to be landed. -/
structure Keeps (c : Combiner) (height : Nat) (loose : List Nat) (taken : List (List Digest)) :
    Prop where
  /-- The account of the lane. -/
  tracks : (c.laneAt height).Tracks (loose ++ c.ticketsOut height) (emptyRoot height) taken
  /-- No result waits that could leave. -/
  settled : (c.laneAt height).Settled
  /-- A job has the batch of its ticket. -/
  batches : ∀ job ∈ c.jobsAt height, taken[job.ticket]? = some job.batch

/-- The lanes from a height upwards hold the hashes that have come to it, in whole pairs. -/
inductive Feeds (batchSize : Nat) (c : Combiner) :
    (height : Nat) → (input : List Digest) → Prop where
  /-- Nothing comes past the last height. -/
  | top : Feeds batchSize c maxDepth []
  /-- A lane has taken batches of even length and passed on the results that were due. -/
  | lane {height : Nat} {taken : List (List Digest)} (keeps : c.Keeps height [] taken)
      (even : ∀ batch ∈ taken, batch.length % 2 = 0 ∧ batch ≠ [])
      (short : (c.laneAt height).pending.size < batchSize)
      (above : Feeds batchSize c (height + 1) (c.raisedAt height taken)) :
      Feeds batchSize c height (taken.flatten ++ (c.laneAt height).pending.toList)

variable {c next : Combiner} {height batchSize : Nat} {taken : List (List Digest)}
  {loose : List Nat} {input : List Digest}

/-- A job stands at its height. -/
theorem mem_jobsAt {job : Job} (h : job ∈ c.jobs) : job ∈ c.jobsAt job.height :=
  List.mem_filter.mpr ⟨h, by simp⟩

/-- Every height of the tree has a lane. -/
theorem Shaped.lane_eq (shaped : c.Shaped) (h : height < maxDepth) :
    c.lane height = .ok (c.laneAt height) := by
  have hindex : height < c.lanes.size := shaped.lanes_size ▸ h
  simp [lane, laneAt, hindex]

/-- A replaced lane is the one found at its height. -/
theorem Shaped.laneAt_setLane (shaped : c.Shaped) (h : height < maxDepth) (lane : Lane) :
    (c.setLane height lane).laneAt height = lane := by
  have hindex : height < c.lanes.size := shaped.lanes_size ▸ h
  simp [setLane, laneAt, hindex]

/-- Replacing a lane leaves the others alone. -/
theorem laneAt_setLane_of_ne {other : Nat} (h : other ≠ height) (lane : Lane) :
    (c.setLane height lane).laneAt other = c.laneAt other := by
  simp [setLane, laneAt, Array.getElem?_setIfInBounds_ne h.symm]

/-- Replacing a lane leaves the pool alone. -/
theorem jobsAt_setLane (lane : Lane) (other : Nat) :
    (c.setLane height lane).jobsAt other = c.jobsAt other := rfl

/-- Replacing a lane keeps the shape. -/
theorem Shaped.setLane (shaped : c.Shaped) (lane : Lane) : (c.setLane height lane).Shaped where
  lanes_size := by simp [Combiner.setLane, shaped.lanes_size]
  job_height := shaped.job_height
  job_large := shaped.job_large

/-- Replacing a lane adds the hashes it holds more than the old one. -/
theorem Grows.setLane (shaped : c.Shaped) (h : height < maxDepth) {lane : Lane} {extra : Nat}
    (held : lane.held.length ≤ (c.laneAt height).held.length + extra) :
    Grows height extra c (c.setLane height lane) where
  lanes below hbelow := laneAt_setLane_of_ne (Nat.ne_of_lt hbelow) lane
  jobs below _ := jobsAt_setLane lane below
  shaped := shaped.setLane lane
  held := by
    have hcount := heldCount_setLane (shaped.lanes_size ▸ h) lane
    omega

/-- Doing nothing adds nothing. -/
theorem Grows.refl (height : Nat) (shaped : c.Shaped) : Grows height 0 c c :=
  ⟨fun _ _ => rfl, fun _ _ => rfl, shaped, Nat.le_refl _⟩

/-- Changes add up. -/
theorem Grows.trans {last : Combiner} {extra more : Nat} (first : Grows height extra c next)
    (second : Grows height more next last) : Grows height (extra + more) c last where
  lanes below hbelow := (second.lanes below hbelow).trans (first.lanes below hbelow)
  jobs below hbelow := (second.jobs below hbelow).trans (first.jobs below hbelow)
  shaped := second.shaped
  held := by
    have h₁ := first.held
    have h₂ := second.held
    omega

/-- What is unchanged below a height is unchanged below a lower one, and more room may be left. -/
theorem Grows.weaken {lower extra more : Nat} (grows : Grows height extra c next)
    (hlower : lower ≤ height) (hmore : next.heldCount ≤ c.heldCount + more) :
    Grows lower more c next where
  lanes below hbelow := grows.lanes below (by omega)
  jobs below hbelow := grows.jobs below (by omega)
  shaped := grows.shaped
  held := hmore

/-- The account of a height depends on its lane and its jobs alone. -/
theorem Keeps.congr (keeps : c.Keeps height loose taken)
    (lane : next.laneAt height = c.laneAt height) (jobs : next.jobsAt height = c.jobsAt height) :
    next.Keeps height loose taken where
  tracks := by
    rw [lane, ticketsOut, jobs]
    exact keeps.tracks
  settled := lane ▸ keeps.settled
  batches := jobs ▸ keeps.batches

/-- The lanes from a height upwards depend on nothing below it. -/
theorem Feeds.congr (feeds : Feeds batchSize c height input)
    (lanes : ∀ above ≥ height, next.laneAt above = c.laneAt above)
    (jobs : ∀ above ≥ height, next.jobsAt above = c.jobsAt above) :
    Feeds batchSize next height input := by
  induction feeds with
  | top => exact .top
  | @lane height taken keeps even short _ ih =>
    have hlane := lanes height (Nat.le_refl _)
    have habove := ih (fun above h => lanes above (by omega)) (fun above h => jobs above (by omega))
    have hraised : next.raisedAt height taken = c.raisedAt height taken := by
      rw [raisedAt, raisedAt, hlane]
    rw [← hlane] at short ⊢
    rw [← hraised] at habove
    exact .lane (keeps.congr hlane (jobs height (Nat.le_refl _))) even short habove

/-- Replacing a lane leaves the lanes above it in order. -/
theorem Feeds.setLane (above : Feeds batchSize c (height + 1) input) (lane : Lane) :
    Feeds batchSize (c.setLane height lane) (height + 1) input :=
  above.congr (fun _ hother => laneAt_setLane_of_ne (Nat.ne_of_gt hother) lane) (fun _ _ => rfl)

/-- What a height of the tree has got and passed on. -/
theorem Feeds.inv (feeds : Feeds batchSize c height input) (h : height < maxDepth) :
    ∃ taken, c.Keeps height [] taken ∧ (∀ batch ∈ taken, batch.length % 2 = 0 ∧ batch ≠ []) ∧
      (c.laneAt height).pending.size < batchSize ∧
      Feeds batchSize c (height + 1) (c.raisedAt height taken) ∧
      input = taken.flatten ++ (c.laneAt height).pending.toList := by
  cases feeds with
  | top => exact absurd h (Nat.lt_irrefl _)
  | lane keeps even short above => exact ⟨_, keeps, even, short, above, rfl⟩

/-- Batches of even length are halved. -/
theorem length_flatMap_pairUp (pad : Digest)
    (even : ∀ batch ∈ taken, batch.length % 2 = 0 ∧ batch ≠ []) :
    2 * (taken.flatMap (pairUp pad)).length = taken.flatten.length := by
  induction taken with
  | nil => rfl
  | cons batch rest ih =>
    have hrest := ih fun other hother => even other (List.mem_cons_of_mem _ hother)
    have hbatch := (even batch List.mem_cons_self).1
    simp only [List.flatMap_cons, List.flatten_cons, List.length_append, length_pairUp] at hrest ⊢
    omega

/-- The next height has room for the pairs of batches that fit into a height. -/
theorem length_flatMap_pairUp_le (pad : Digest)
    (even : ∀ batch ∈ taken, batch.length % 2 = 0 ∧ batch ≠ [])
    (fits : taken.flatten.length ≤ room height) :
    (taken.flatMap (pairUp pad)).length ≤ room (height + 1) := by
  have hhalf := length_flatMap_pairUp pad even
  rw [room_succ]
  omega

end Combiner

end BlockIntake.Merkle
