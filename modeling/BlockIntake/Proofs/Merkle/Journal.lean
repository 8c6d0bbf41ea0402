import BlockIntake.Proofs.Merkle.Growing
import BlockIntake.Proofs.Outcome

/-!
# The journal of a tree

Pushing a hash may make a batch of its lane, the result of the batch may land at once, and what then
leaves the lane is pushed to the next one, where the same happens again. The journal of an operation
tells in order what it does to which lane. Seen from one lane there is no recursion: the lane takes
one hash after the other, and what comes to it from below is what leaves the lane below. The
induction over the heights stands in one place, `records_pushInto`.
-/

namespace BlockIntake.Merkle

/-- Something that happens to a lane. -/
inductive LaneEvent where
  /-- A hash is pushed, raised from the lane below or not. -/
  | push (raised : Bool) (hash : Digest)
  /-- A batch is taken. -/
  | take (ticket : Nat) (batch : List Digest)
  /-- The result of a batch lands. -/
  | land (ticket : Nat) (results : List Digest)
deriving DecidableEq

namespace LaneEvent

/-- The hashes that were pushed. -/
def pushed (events : List LaneEvent) : List Digest :=
  events.filterMap fun | .push _ hash => some hash | _ => none

/-- The hashes that were raised from the lane below. -/
def raised (events : List LaneEvent) : List Digest :=
  events.filterMap fun | .push true hash => some hash | _ => none

/-- The batches that were taken. -/
def batches (events : List LaneEvent) : List (List Digest) :=
  events.filterMap fun | .take _ batch => some batch | _ => none

/-- The tickets of the batches that were taken. -/
def tickets (events : List LaneEvent) : List Nat :=
  events.filterMap fun | .take ticket _ => some ticket | _ => none

/-- The results that have landed, with their tickets. -/
def landed (events : List LaneEvent) : List (Nat × List Digest) :=
  events.filterMap fun | .land ticket results => some (ticket, results) | _ => none

theorem pushed_append (front back : List LaneEvent) :
    pushed (front ++ back) = pushed front ++ pushed back := List.filterMap_append

theorem raised_append (front back : List LaneEvent) :
    raised (front ++ back) = raised front ++ raised back := List.filterMap_append

theorem batches_append (front back : List LaneEvent) :
    batches (front ++ back) = batches front ++ batches back := List.filterMap_append

theorem tickets_append (front back : List LaneEvent) :
    tickets (front ++ back) = tickets front ++ tickets back := List.filterMap_append

theorem landed_append (front back : List LaneEvent) :
    landed (front ++ back) = landed front ++ landed back := List.filterMap_append

/-- What was raised is part of what was pushed. -/
theorem raised_sublist (events : List LaneEvent) : (raised events).Sublist (pushed events) := by
  induction events with
  | nil => exact List.Sublist.slnil
  | cons event events ih =>
    cases event with
    | push source hash =>
      cases source with
      | true => exact ih.cons_cons hash
      | false => exact ih.cons hash
    | take ticket batch => exact ih
    | land ticket results => exact ih

/-- If nothing was pushed from outside, all hashes were raised. -/
theorem raised_eq_pushed {events : List LaneEvent} (inside : ∀ hash, .push false hash ∉ events) :
    raised events = pushed events := by
  induction events with
  | nil => rfl
  | cons event events ih =>
    have hrest := ih fun hash hmem => inside hash (List.mem_cons_of_mem _ hmem)
    cases event with
    | push source hash =>
      cases source with
      | true => exact congrArg (hash :: ·) hrest
      | false => exact absurd List.mem_cons_self (inside hash)
    | take ticket batch => exact hrest
    | land ticket results => exact hrest

variable (events : List LaneEvent) (hash : Digest) (ticket : Nat) (hashes : List Digest)

/-- Pushing a hash takes no batch. -/
theorem batches_push (source : Bool) :
    batches (events ++ [.push source hash]) = batches events := by
  rw [batches_append]
  exact List.append_nil _

/-- Landing a result takes no batch. -/
theorem batches_land : batches (events ++ [.land ticket hashes]) = batches events := by
  rw [batches_append]
  exact List.append_nil _

/-- Pushing a hash draws no ticket. -/
theorem tickets_push (source : Bool) :
    tickets (events ++ [.push source hash]) = tickets events := by
  rw [tickets_append]
  exact List.append_nil _

/-- Landing a result draws no ticket. -/
theorem tickets_land : tickets (events ++ [.land ticket hashes]) = tickets events := by
  rw [tickets_append]
  exact List.append_nil _

/-- Taking a batch pushes no hash. -/
theorem pushed_take : pushed (events ++ [.take ticket hashes]) = pushed events := by
  rw [pushed_append]
  exact List.append_nil _

/-- Landing a result pushes no hash to its lane. -/
theorem pushed_land : pushed (events ++ [.land ticket hashes]) = pushed events := by
  rw [pushed_append]
  exact List.append_nil _

/-- Taking a batch raises no hash to its lane. -/
theorem raised_take : raised (events ++ [.take ticket hashes]) = raised events := by
  rw [raised_append]
  exact List.append_nil _

/-- Landing a result raises no hash to its lane. -/
theorem raised_land : raised (events ++ [.land ticket hashes]) = raised events := by
  rw [raised_append]
  exact List.append_nil _

/-- Pushing a hash lands no result. -/
theorem landed_push (source : Bool) : landed (events ++ [.push source hash]) = landed events := by
  rw [landed_append]
  exact List.append_nil _

/-- Taking a batch lands no result. -/
theorem landed_take : landed (events ++ [.take ticket hashes]) = landed events := by
  rw [landed_append]
  exact List.append_nil _

end LaneEvent

/-- What happens to the lanes of a tree, each event with its height. -/
abbrev Journal := List (Nat × LaneEvent)

namespace Journal

variable {height place : Nat}

/-- What happens to the lane of a height. -/
def events (journal : Journal) (height : Nat) : List LaneEvent :=
  journal.filterMap fun entry => if entry.1 = height then some entry.2 else none

theorem events_append (front back : Journal) (height : Nat) :
    events (front ++ back) height = events front height ++ events back height :=
  List.filterMap_append

/-- An event at a height comes before the later ones there. -/
theorem events_cons_self (height : Nat) (event : LaneEvent) (journal : Journal) :
    events ((height, event) :: journal) height = event :: events journal height :=
  List.filterMap_cons_some (if_pos rfl)

/-- An event at another height does not matter. -/
theorem events_cons_of_ne (other : place ≠ height) (event : LaneEvent) (journal : Journal) :
    events ((place, event) :: journal) height = events journal height :=
  List.filterMap_cons_none (if_neg other)

end Journal

/-- What stands at one height of a tree: the lane and the jobs. -/
structure Storey where
  /-- The lane. -/
  lane : Lane
  /-- The jobs, oldest first. -/
  jobs : List Job

namespace Storey

/-- A hash is pushed. -/
def push (s : Storey) (hash : Digest) : Storey := { s with lane := s.lane.push hash }

/-- Everything pending is taken. -/
def take (s : Storey) : Storey := { s with lane := s.lane.takeBatch.2 }

/-- The result of a batch lands. -/
def land (s : Storey) (ticket : Nat) (results : List Digest) : Storey :=
  { s with lane := (s.lane.land ticket results).2 }

/-- The batch that takes everything pending, at a height. -/
def job (s : Storey) (height : Nat) : Job := ⟨height, s.lane.nextTicket, s.lane.pending.toList⟩

/-- The result of the batch that takes everything pending. -/
def result (s : Storey) (height : Nat) : List Digest :=
  pairUp (emptyRoot height) s.lane.pending.toList

/-- One hash after the other is pushed. A lane that is full gives its batch away, which is combined
on the spot or becomes a job. The relation is between what stands at a height at first and at last,
and tells what happens there and which hashes leave. -/
inductive Takes (batchSize height : Nat) (raised : Bool) (first : Storey) :
    List LaneEvent → List Digest → Storey → Prop
  /-- No hash is pushed. -/
  | rest : Takes batchSize height raised first [] [] first
  /-- A hash waits for others. -/
  | wait {events : List LaneEvent} {sent : List Digest} {s : Storey}
      (before : Takes batchSize height raised first events sent s) (hash : Digest)
      (short : (s.push hash).lane.pending.size < batchSize) :
      Takes batchSize height raised first (events ++ [.push raised hash]) sent (s.push hash)
  /-- A hash fills the lane, and the batch is combined on the spot. -/
  | combine {events : List LaneEvent} {sent : List Digest} {s : Storey}
      (before : Takes batchSize height raised first events sent s) (hash : Digest)
      (full : batchSize ≤ (s.push hash).lane.pending.size) :
      Takes batchSize height raised first
        (events ++ [.push raised hash,
          .take ((s.push hash).job height).ticket ((s.push hash).job height).batch,
          .land ((s.push hash).job height).ticket ((s.push hash).result height)])
        (sent ++ ((s.push hash).take.lane.land ((s.push hash).job height).ticket
          ((s.push hash).result height)).1)
        ((s.push hash).take.land ((s.push hash).job height).ticket ((s.push hash).result height))
  /-- A hash fills the lane, and the batch becomes a job. -/
  | pool {events : List LaneEvent} {sent : List Digest} {s : Storey}
      (before : Takes batchSize height raised first events sent s) (hash : Digest)
      (full : batchSize ≤ (s.push hash).lane.pending.size) :
      Takes batchSize height raised first
        (events ++ [.push raised hash,
          .take ((s.push hash).job height).ticket ((s.push hash).job height).batch])
        sent ⟨(s.push hash).take.lane, s.jobs ++ [(s.push hash).job height]⟩

variable {batchSize height : Nat} {raised : Bool} {first middle last : Storey}
  {events more : List LaneEvent} {sent sending : List Digest}

/-- Hashes may be pushed after others. -/
theorem Takes.trans (before : first.Takes batchSize height raised events sent middle)
    (after : middle.Takes batchSize height raised more sending last) :
    first.Takes batchSize height raised (events ++ more) (sent ++ sending) last := by
  induction after with
  | rest => rwa [List.append_nil, List.append_nil]
  | wait _ hash short ih =>
    rw [← List.append_assoc]
    exact ih.wait hash short
  | combine _ hash full ih =>
    rw [← List.append_assoc, ← List.append_assoc]
    exact ih.combine hash full
  | pool _ hash full ih =>
    rw [← List.append_assoc]
    exact ih.pool hash full

/-- If the hashes are raised, all of them are. -/
theorem Takes.raised_eq (takes : first.Takes batchSize height true events sent last) :
    LaneEvent.raised events = LaneEvent.pushed events := by
  induction takes with
  | rest => rfl
  | wait _ hash _ ih => rw [LaneEvent.raised_append, LaneEvent.pushed_append, ih]; rfl
  | combine _ hash _ ih => rw [LaneEvent.raised_append, LaneEvent.pushed_append, ih]; rfl
  | pool _ hash _ ih => rw [LaneEvent.raised_append, LaneEvent.pushed_append, ih]; rfl

/-- If the hashes are not raised, none is. -/
theorem Takes.raised_eq_nil (takes : first.Takes batchSize height false events sent last) :
    LaneEvent.raised events = [] := by
  induction takes with
  | rest => rfl
  | wait _ hash _ ih => rw [LaneEvent.raised_append, ih]; rfl
  | combine _ hash _ ih => rw [LaneEvent.raised_append, ih]; rfl
  | pool _ hash _ ih => rw [LaneEvent.raised_append, ih]; rfl

/-- What holds of a height, with what has happened there and what has left, stays true when hashes
are pushed. -/
def Lasts (batchSize height : Nat) (raised : Bool)
    (holds : Storey → List LaneEvent → List Digest → Prop) : Prop :=
  ∀ {first events sent more sending last}, holds first events sent →
    first.Takes batchSize height raised more sending last →
      holds last (events ++ more) (sent ++ sending)

end Storey

namespace Combiner

/-- What stands at a height of a tree. -/
def storey (c : Combiner) (height : Nat) : Storey := ⟨c.laneAt height, c.jobsAt height⟩

/-- The tree with a hash put at the end of a lane. -/
def pushAt (c : Combiner) (height : Nat) (hash : Digest) : Combiner :=
  c.setLane height ((c.laneAt height).push hash)

/-- The journal of landing the result of a batch, with the journal of raising hashes. -/
def landWithJournal (raise : List Digest → Combiner → Journal) (height ticket : Nat)
    (results : List Digest) (c : Combiner) : Journal :=
  let landed := (c.laneAt height).land ticket results
  (height, .land ticket results) :: raise landed.1 (c.setLane height landed.2)

/-- The journal of pushing hashes in order, with the journal of pushing one. -/
def foldJournal (push : Combiner → Digest → Except Crash Combiner)
    (note : Combiner → Digest → Journal) : List Digest → Combiner → Journal
  | [], _ => []
  | hash :: hashes, c =>
    note c hash ++
      match push c hash with
      | .ok next => foldJournal push note hashes next
      | .error _ => []

/-- The journal of pushing a hash into the lane with `room` lanes from it upwards. -/
def pushIntoJournal (batchSize : Nat) : (room : Nat) → (raised : Bool) → Combiner → Digest → Journal
  | 0, _, _, _ => []
  | room + 1, raised, c, hash =>
    let height := maxDepth - (room + 1)
    let pushed := (c.storey height).push hash
    (height, .push raised hash) ::
      if pushed.lane.pending.size < batchSize then []
      else
        (height, .take (pushed.job height).ticket (pushed.job height).batch) ::
          if (pushed.job height).batch.length < minToSchedule then
            landWithJournal
              (foldJournal (pushInto batchSize room) (pushIntoJournal batchSize room true)) height
              (pushed.job height).ticket (pushed.result height)
              ((c.pushAt height hash).takePending height)
          else []

/-- The journal of pushing a hash into the lane of a height. -/
def pushJournal (batchSize height : Nat) (raised : Bool) (c : Combiner) (hash : Digest) : Journal :=
  pushIntoJournal batchSize (maxDepth - height) raised c hash

/-- The journal of raising hashes from a height. -/
def raiseJournal (batchSize height : Nat) (hashes : List Digest) (c : Combiner) : Journal :=
  foldJournal (push batchSize (height + 1)) (pushJournal batchSize (height + 1) true) hashes c

/-- The journal of landing the result of a batch of a height. -/
def landJournal (batchSize height ticket : Nat) (results : List Digest) (c : Combiner) : Journal :=
  landWithJournal (raiseJournal batchSize height) height ticket results c

/-- Hashes were pushed at a height, and the journal tells what happened from there upwards. -/
structure Records (batchSize base : Nat) (raised : Bool) (hashes : List Digest) (journal : Journal)
    (c next : Combiner) : Prop where
  /-- The shape is the same. -/
  shaped : next.Shaped
  /-- Nothing happened below. -/
  below : ∀ height < base, next.storey height = c.storey height ∧ journal.events height = []
  /-- The hashes were pushed. -/
  pushed : LaneEvent.pushed (journal.events base) = hashes
  /-- The height took them. -/
  here : (c.storey base).Takes batchSize base raised (journal.events base)
    (LaneEvent.raised (journal.events (base + 1))) (next.storey base)
  /-- The heights above took what was raised. -/
  above : ∀ height > base, (c.storey height).Takes batchSize height true (journal.events height)
    (LaneEvent.raised (journal.events (height + 1))) (next.storey height)

/-- A result has landed at a height, and the journal tells what happened from there upwards. -/
structure Lands (batchSize height ticket : Nat) (results : List Digest) (journal : Journal)
    (c next : Combiner) : Prop where
  /-- The shape is the same. -/
  shaped : next.Shaped
  /-- Nothing happened below. -/
  below : ∀ lower < height, next.storey lower = c.storey lower ∧ journal.events lower = []
  /-- The result has landed. -/
  here : next.storey height = (c.storey height).land ticket results
  /-- Nothing else happened at the height. -/
  landed : journal.events height = [.land ticket results]
  /-- What left the lane was raised. -/
  sent : LaneEvent.raised (journal.events (height + 1)) =
    ((c.storey height).lane.land ticket results).1
  /-- The heights above took what was raised. -/
  above : ∀ upper > height, (c.storey upper).Takes batchSize upper true (journal.events upper)
    (LaneEvent.raised (journal.events (upper + 1))) (next.storey upper)

variable {batchSize base height ticket : Nat} {raised : Bool} {hashes results : List Digest}
  {journal : Journal} {c next : Combiner}

/-- A replaced lane stands at its height, with the jobs there. -/
theorem Shaped.storey_setLane (shaped : c.Shaped) (h : height < maxDepth) (lane : Lane) :
    (c.setLane height lane).storey height = ⟨lane, c.jobsAt height⟩ :=
  congrArg (Storey.mk · (c.jobsAt height)) (shaped.laneAt_setLane h lane)

/-- Replacing a lane leaves the other heights alone. -/
theorem storey_setLane_of_ne {other : Nat} (h : other ≠ height) (lane : Lane) :
    (c.setLane height lane).storey other = c.storey other :=
  congrArg (Storey.mk · (c.jobsAt other)) (laneAt_setLane_of_ne h lane)

/-- Everything pending is taken where it stands. -/
theorem Shaped.storey_takePending (shaped : c.Shaped) (h : height < maxDepth) :
    (c.takePending height).storey height = (c.storey height).take := shaped.storey_setLane h _

/-- A job that is added stands at its height. -/
theorem storey_addJob (c : Combiner) (job : Job) : (c.addJob job).storey job.height =
    ⟨(c.storey job.height).lane, (c.storey job.height).jobs ++ [job]⟩ := by
  rw [storey, jobsAt_addJob, if_pos rfl]
  rfl

/-- A job that is added leaves the other heights alone. -/
theorem storey_addJob_of_ne {job : Job} {other : Nat} (h : job.height ≠ other) :
    (c.addJob job).storey other = c.storey other :=
  congrArg (Storey.mk (c.laneAt other)) (jobsAt_addJob_of_ne c h)

/-- Pushing nothing leaves everything as it is. -/
theorem records_nil (batchSize base : Nat) (raised : Bool) (shaped : c.Shaped) :
    Records batchSize base raised [] [] c c :=
  ⟨shaped, fun _ _ => ⟨rfl, rfl⟩, rfl, .rest, fun _ _ => .rest⟩

/-- More hashes may be pushed. -/
theorem Records.trans {middle : Combiner} {later : List Digest} {more : Journal}
    (before : Records batchSize base raised hashes journal c middle)
    (after : Records batchSize base raised later more middle next) :
    Records batchSize base raised (hashes ++ later) (journal ++ more) c next := by
  refine ⟨after.shaped, fun height h => ?_, ?_, ?_, fun height h => ?_⟩
  · obtain ⟨hsame, hnone⟩ := before.below height h
    obtain ⟨hsame', hnone'⟩ := after.below height h
    exact ⟨hsame'.trans hsame, by rw [Journal.events_append, hnone, hnone', List.append_nil]⟩
  · rw [Journal.events_append, LaneEvent.pushed_append, before.pushed, after.pushed]
  · rw [Journal.events_append, Journal.events_append, LaneEvent.raised_append]
    exact before.here.trans after.here
  · rw [Journal.events_append, Journal.events_append, LaneEvent.raised_append]
    exact (before.above height h).trans (after.above height h)

/-- Hashes are pushed one after the other. -/
theorem records_foldlM {push : Combiner → Digest → Except Crash Combiner}
    {note : Combiner → Digest → Journal}
    (each : ∀ c hash next, c.Shaped → push c hash = .ok next →
      Records batchSize base raised [hash] (note c hash) c next)
    (shaped : c.Shaped) (hashes : List Digest) (done : hashes.foldlM push c = .ok next) :
    Records batchSize base raised hashes (foldJournal push note hashes c) c next := by
  induction hashes generalizing c with
  | nil =>
    obtain rfl := Except.ok.inj done
    exact records_nil batchSize base raised shaped
  | cons hash hashes ih =>
    rw [List.foldlM_cons] at done
    obtain ⟨middle, hpush, hrest⟩ := exists_of_bind_ok done
    have hfirst := each c hash middle shaped hpush
    rw [foldJournal, hpush]
    exact hfirst.trans (ih hfirst.shaped hrest)

/-- Landing a result raises what leaves the lane. -/
theorem lands_landWith {raise : List Digest → Combiner → Except Crash Combiner}
    {note : List Digest → Combiner → Journal}
    (each : ∀ hashes c next, c.Shaped → raise hashes c = .ok next →
      Records batchSize (height + 1) true hashes (note hashes c) c next)
    (h : height < maxDepth) (shaped : c.Shaped)
    (done : landWith raise height ticket results c = .ok next) :
    Lands batchSize height ticket results (landWithJournal note height ticket results c) c
      next := by
  simp only [landWith] at done
  rw [shaped.lane_eq h, ok_bind] at done
  have records := each _ _ next (shaped.setLane _) done
  rw [landWithJournal]
  refine ⟨records.shaped, fun lower hlower => ⟨?_, ?_⟩, ?_, ?_, ?_, fun upper hupper => ?_⟩
  · rw [(records.below lower (by omega)).1, storey_setLane_of_ne (Nat.ne_of_lt hlower)]
  · rw [Journal.events_cons_of_ne (Nat.ne_of_gt hlower)]
    exact (records.below lower (by omega)).2
  · rw [(records.below height (Nat.lt_succ_self _)).1, shaped.storey_setLane h]
    rfl
  · rw [Journal.events_cons_self, (records.below height (Nat.lt_succ_self _)).2]
  · rw [Journal.events_cons_of_ne (Nat.ne_of_lt (Nat.lt_succ_self _)), records.here.raised_eq,
      records.pushed]
    rfl
  · rw [Journal.events_cons_of_ne (Nat.ne_of_lt hupper),
      Journal.events_cons_of_ne (show height ≠ upper + 1 by omega),
      ← storey_setLane_of_ne (c := c) (Nat.ne_of_gt hupper)]
    rcases Nat.eq_or_lt_of_le (Nat.succ_le_of_lt hupper) with rfl | hlater
    · exact records.here
    · exact records.above upper hlater

/-- A hash is pushed where it is put. -/
theorem Shaped.storey_pushAt (shaped : c.Shaped) (h : height < maxDepth) (hash : Digest) :
    (c.pushAt height hash).storey height = (c.storey height).push hash := shaped.storey_setLane h _

/-- What stands at a height once a hash was put there and everything pending was taken. -/
theorem Shaped.storey_pushAt_takePending (shaped : c.Shaped) (h : height < maxDepth)
    (hash : Digest) : ((c.pushAt height hash).takePending height).storey height =
      ((c.storey height).push hash).take := by
  have hshape : (c.pushAt height hash).Shaped := shaped.setLane _
  rw [hshape.storey_takePending h, shaped.storey_pushAt h]

/-- Putting a hash and taking everything pending leaves the other heights alone. -/
theorem storey_pushAt_takePending_of_ne {other : Nat} (h : other ≠ height) (hash : Digest) :
    ((c.pushAt height hash).takePending height).storey other = c.storey other :=
  (storey_setLane_of_ne h _).trans (storey_setLane_of_ne h _)

/-- A hash waits where it is put. -/
theorem Shaped.records_wait (shaped : c.Shaped) (h : height < maxDepth) {hash : Digest}
    (short : ((c.storey height).push hash).lane.pending.size < batchSize) :
    Records batchSize height raised [hash] [(height, .push raised hash)] c
      (c.pushAt height hash) := by
  have hother : ∀ other ≠ height, (c.pushAt height hash).storey other = c.storey other :=
    fun other hne => storey_setLane_of_ne hne _
  refine ⟨shaped.setLane _, fun lower hlower => ⟨hother lower hlower.ne, ?_⟩, ?_, ?_,
    fun upper hupper => ?_⟩
  · exact Journal.events_cons_of_ne hlower.ne' _ _
  · rw [Journal.events_cons_self]
    rfl
  · rw [Journal.events_cons_self, Journal.events_cons_of_ne (Nat.ne_of_lt (Nat.lt_succ_self _)),
      shaped.storey_pushAt h]
    exact .wait .rest hash short
  · rw [Journal.events_cons_of_ne hupper.ne, Journal.events_cons_of_ne (by omega),
      hother upper hupper.ne']
    exact .rest

/-- A hash fills the lane, and the result of the batch lands at once. -/
theorem Shaped.records_combine (shaped : c.Shaped) (h : height < maxDepth) {hash : Digest}
    (full : batchSize ≤ ((c.storey height).push hash).lane.pending.size)
    (lands : Lands batchSize height (((c.storey height).push hash).job height).ticket
      (((c.storey height).push hash).result height) journal
      ((c.pushAt height hash).takePending height) next) :
    Records batchSize height raised [hash]
      ((height, .push raised hash) ::
        (height, .take (((c.storey height).push hash).job height).ticket
          (((c.storey height).push hash).job height).batch) :: journal) c next := by
  have hhere := shaped.storey_pushAt_takePending h hash
  have hlanded := lands.here
  have hsent := lands.sent
  refine ⟨lands.shaped, fun lower hlower => ⟨?_, ?_⟩, ?_, ?_, fun upper hupper => ?_⟩
  · rw [(lands.below lower hlower).1, storey_pushAt_takePending_of_ne hlower.ne]
  · rw [Journal.events_cons_of_ne hlower.ne', Journal.events_cons_of_ne hlower.ne',
      (lands.below lower hlower).2]
  · rw [Journal.events_cons_self, Journal.events_cons_self, lands.landed]
    rfl
  · have hnext : height ≠ height + 1 := Nat.ne_of_lt (Nat.lt_succ_self _)
    rw [Journal.events_cons_self, Journal.events_cons_self, lands.landed,
      Journal.events_cons_of_ne hnext, Journal.events_cons_of_ne hnext, hsent, hlanded, hhere]
    exact .combine .rest hash full
  · have hnext : height ≠ upper + 1 := by omega
    rw [Journal.events_cons_of_ne hupper.ne, Journal.events_cons_of_ne hupper.ne,
      Journal.events_cons_of_ne hnext, Journal.events_cons_of_ne hnext,
      ← storey_pushAt_takePending_of_ne (c := c) hupper.ne' hash]
    exact lands.above upper hupper

/-- A hash fills the lane, and the batch becomes a job. -/
theorem Shaped.records_pool (shaped : c.Shaped) (h : height < maxDepth) {hash : Digest}
    (full : batchSize ≤ ((c.storey height).push hash).lane.pending.size)
    (large : minToSchedule ≤ (((c.storey height).push hash).job height).batch.length) :
    Records batchSize height raised [hash]
      [(height, .push raised hash), (height, .take (((c.storey height).push hash).job height).ticket
        (((c.storey height).push hash).job height).batch)] c
      (((c.pushAt height hash).takePending height).addJob
        (((c.storey height).push hash).job height)) := by
  have hshape : ((c.pushAt height hash).takePending height).Shaped :=
    Shaped.setLane (shaped.setLane _) _
  have hhere : (((c.pushAt height hash).takePending height).addJob
      (((c.storey height).push hash).job height)).storey height =
        ⟨((c.storey height).push hash).take.lane,
          (c.storey height).jobs ++ [((c.storey height).push hash).job height]⟩ := by
    have hadd := storey_addJob ((c.pushAt height hash).takePending height)
      (((c.storey height).push hash).job height)
    have hplace : (((c.storey height).push hash).job height).height = height := rfl
    rw [hplace, shaped.storey_pushAt_takePending h] at hadd
    exact hadd
  have hother : ∀ other ≠ height, (((c.pushAt height hash).takePending height).addJob
      (((c.storey height).push hash).job height)).storey other = c.storey other :=
    fun other hne => (storey_addJob_of_ne hne.symm).trans
      (storey_pushAt_takePending_of_ne hne hash)
  refine ⟨hshape.addJob h large, fun lower hlower => ⟨hother lower hlower.ne, ?_⟩, ?_, ?_,
    fun upper hupper => ?_⟩
  · rw [Journal.events_cons_of_ne hlower.ne', Journal.events_cons_of_ne hlower.ne']
    rfl
  · rw [Journal.events_cons_self, Journal.events_cons_self]
    rfl
  · have hnext : height ≠ height + 1 := Nat.ne_of_lt (Nat.lt_succ_self _)
    rw [Journal.events_cons_self, Journal.events_cons_self, Journal.events_cons_of_ne hnext,
      Journal.events_cons_of_ne hnext, hhere]
    exact .pool .rest hash full
  · have hnext : height ≠ upper + 1 := by omega
    rw [Journal.events_cons_of_ne hupper.ne, Journal.events_cons_of_ne hupper.ne,
      Journal.events_cons_of_ne hnext, Journal.events_cons_of_ne hnext, hother upper hupper.ne']
    exact .rest

/-- What a push does to its own lane decides how it goes on. -/
theorem Shaped.pushInto_eq (shaped : c.Shaped) {room : Nat} (h : height < maxDepth)
    (place : maxDepth - (room + 1) = height) (hash : Digest) :
    pushInto batchSize (room + 1) c hash =
      if ((c.storey height).push hash).lane.pending.size < batchSize then
        .ok (c.pushAt height hash)
      else if (((c.storey height).push hash).job height).batch.length < minToSchedule then
        landWith (fun hashes c => hashes.foldlM (pushInto batchSize room) c) height
          (((c.storey height).push hash).job height).ticket
          (((c.storey height).push hash).result height) ((c.pushAt height hash).takePending height)
      else
        .ok (((c.pushAt height hash).takePending height).addJob
          (((c.storey height).push hash).job height)) := by
  have hshape : (c.pushAt height hash).Shaped := shaped.setLane _
  have hlane : (c.pushAt height hash).laneAt height = (c.laneAt height).push hash :=
    shaped.laneAt_setLane h _
  have hjob : (c.pushAt height hash).pendingJob height =
      ((c.storey height).push hash).job height := by
    rw [pendingJob, hlane]
    rfl
  have hwaiting : ¬((c.pushAt height hash).laneAt height).pending.isEmpty = true := by
    rw [hlane, Lane.push, Array.isEmpty_iff_size_eq_zero, Array.size_push]
    exact Nat.succ_ne_zero _
  have hdispatch : dispatchWith (fun hashes c => hashes.foldlM (pushInto batchSize room) c) height
      (c.pushAt height hash) = _ := hshape.dispatchWith_eq h
  rw [if_neg hwaiting, hjob] at hdispatch
  simp only [pushInto]
  rw [place, shaped.lane_eq h, ok_bind]
  exact ite_congr rfl (fun _ => rfl) fun _ => hdispatch

/-- Pushing a hash into a lane is recorded. The induction runs over the lanes left above. -/
theorem records_pushInto (room : Nat) (enough : room ≤ maxDepth) (raised : Bool) {c : Combiner}
    (hash : Digest) {next : Combiner} (shaped : c.Shaped)
    (done : pushInto batchSize room c hash = .ok next) :
    Records batchSize (maxDepth - room) raised [hash]
      (pushIntoJournal batchSize room raised c hash) c next := by
  induction room generalizing raised c hash next with
  | zero => cases done
  | succ room ih =>
    have hlt : maxDepth - (room + 1) < maxDepth := by omega
    have hnext : maxDepth - room = maxDepth - (room + 1) + 1 := by omega
    rw [shaped.pushInto_eq hlt rfl] at done
    rw [pushIntoJournal]
    rw [hnext] at ih
    generalize maxDepth - (room + 1) = height at *
    split at done
    · next hshort =>
      obtain rfl := Except.ok.inj done
      rw [if_pos hshort]
      exact shaped.records_wait hlt hshort
    · next hshort =>
      have hfull := Nat.le_of_not_lt hshort
      have hshape : ((c.pushAt height hash).takePending height).Shaped :=
        Shaped.setLane (shaped.setLane _) _
      rw [if_neg hshort]
      split at done
      · next hsmall =>
        rw [if_pos hsmall]
        have each : ∀ hashes c next, Shaped c →
            hashes.foldlM (pushInto batchSize room) c = .ok next →
            Records batchSize (height + 1) true hashes
              (foldJournal (pushInto batchSize room) (pushIntoJournal batchSize room true) hashes c)
              c next := fun hashes c next shaped done =>
          records_foldlM (fun c hash next => ih (by omega) true hash) shaped hashes done
        exact shaped.records_combine hlt hfull (lands_landWith each hlt hshape done)
      · next hlarge =>
        obtain rfl := Except.ok.inj done
        rw [if_neg hlarge]
        exact shaped.records_pool hlt hfull (Nat.le_of_not_lt hlarge)

/-- Pushing a hash into the lane of a height is recorded. -/
theorem records_push (h : height ≤ maxDepth) (raised : Bool) (shaped : c.Shaped) {hash : Digest}
    (done : c.push batchSize height hash = .ok next) :
    Records batchSize height raised [hash] (pushJournal batchSize height raised c hash) c next := by
  have hplace : maxDepth - (maxDepth - height) = height := by omega
  have hrecords := records_pushInto (maxDepth - height) (Nat.sub_le _ _) raised hash shaped done
  rwa [hplace] at hrecords

/-- Landing the result of a batch of a height is recorded. -/
theorem lands_land (h : height < maxDepth) (shaped : c.Shaped)
    (done : c.land batchSize height ticket results = .ok next) :
    Lands batchSize height ticket results (landJournal batchSize height ticket results c) c next :=
  lands_landWith (fun hashes _ _ shaped done =>
    records_foldlM (fun _ _ _ shaped done => records_push h true shaped done) shaped hashes done)
    h shaped done

/-- In an empty tree nothing stands anywhere. -/
theorem storey_empty (height : Nat) : ({} : Combiner).storey height = ⟨{}, []⟩ :=
  congrArg (Storey.mk · []) (CombiningTree.laneAt_empty height)

/-- Something holds of every height, with what the journal tells of it. -/
def Everywhere (holds : Nat → Storey → List LaneEvent → List Digest → Prop) (journal : Journal)
    (c : Combiner) : Prop :=
  ∀ place, holds place (c.storey place) (journal.events place)
    (LaneEvent.raised (journal.events (place + 1)))

/-- Something holds of every height but one, with what the journal tells of it. -/
def Elsewhere (height : Nat) (holds : Nat → Storey → List LaneEvent → List Digest → Prop)
    (journal : Journal) (c : Combiner) : Prop :=
  ∀ place ≠ height, holds place (c.storey place) (journal.events place)
    (LaneEvent.raised (journal.events (place + 1)))

variable {holds : Nat → Storey → List LaneEvent → List Digest → Prop} {more : Journal}

/-- What holds everywhere holds elsewhere. -/
theorem Everywhere.elsewhere (everywhere : Everywhere holds journal c) (height : Nat) :
    Elsewhere height holds journal c := fun place _ => everywhere place

/-- What holds at a height and elsewhere holds everywhere. -/
theorem Elsewhere.everywhere (elsewhere : Elsewhere height holds journal c)
    (here : holds height (c.storey height) (journal.events height)
      (LaneEvent.raised (journal.events (height + 1)))) : Everywhere holds journal c := by
  intro place
  by_cases hplace : place = height
  · rw [hplace]
    exact here
  · exact elsewhere place hplace

/-- What changes one height only changes nothing elsewhere. -/
theorem Elsewhere.congr (elsewhere : Elsewhere height holds journal c)
    (same : ∀ place ≠ height, next.storey place = c.storey place) :
    Elsewhere height holds journal next := by
  intro place hplace
  rw [same place hplace]
  exact elsewhere place hplace

/-- What lasts stays true of every height when hashes are pushed at one of them. -/
theorem Records.everywhere (records : Records batchSize base false hashes more c next)
    (here : Storey.Lasts batchSize base false (holds base))
    (above : ∀ height > base, Storey.Lasts batchSize height true (holds height))
    (before : Everywhere holds journal c) : Everywhere holds (journal ++ more) next := by
  intro height
  have hheight := before height
  rw [Journal.events_append, Journal.events_append, LaneEvent.raised_append]
  rcases Nat.lt_trichotomy height base with hbelow | rfl | habove
  · obtain ⟨hsame, hnone⟩ := records.below height hbelow
    have hraised : LaneEvent.raised (more.events (height + 1)) = [] := by
      rcases Nat.eq_or_lt_of_le (Nat.succ_le_of_lt hbelow) with rfl | hlower
      · exact records.here.raised_eq_nil
      · rw [(records.below _ hlower).2]
        rfl
    rw [hsame, hnone, hraised, List.append_nil, List.append_nil]
    exact hheight
  · exact here hheight records.here
  · exact above height habove hheight (records.above height habove)

/-- The entry that everything pending at a height was taken. -/
def takeEntry (c : Combiner) (height : Nat) : Nat × LaneEvent :=
  (height, .take (c.pendingJob height).ticket (c.pendingJob height).batch)

/-- Taking a batch raises nothing. -/
theorem raised_takeEntry (c : Combiner) (height place : Nat) :
    LaneEvent.raised (Journal.events [c.takeEntry height] place) = [] := by
  by_cases hplace : height = place
  · rw [takeEntry, hplace, Journal.events_cons_self]
    rfl
  · rw [takeEntry, Journal.events_cons_of_ne hplace]
    rfl

/-- Taking everything pending at a height changes nothing elsewhere. -/
theorem Elsewhere.take (elsewhere : Elsewhere height holds journal c) :
    Elsewhere height holds (journal ++ [c.takeEntry height]) (c.takePending height) := by
  intro place hplace
  have hsame : (c.takePending height).storey place = c.storey place :=
    storey_setLane_of_ne hplace _
  have hnone : Journal.events [c.takeEntry height] place = [] :=
    Journal.events_cons_of_ne (Ne.symm hplace) _ _
  rw [Journal.events_append, Journal.events_append, LaneEvent.raised_append, raised_takeEntry,
    hsame, hnone, List.append_nil, List.append_nil]
  exact elsewhere place hplace

/-- The journal of a height where everything pending was taken. -/
theorem events_take (journal : Journal) (c : Combiner) (height : Nat) :
    Journal.events (journal ++ [c.takeEntry height]) height = journal.events height ++
      [.take ((c.storey height).job height).ticket ((c.storey height).job height).batch] ∧
    LaneEvent.raised (Journal.events (journal ++ [c.takeEntry height]) (height + 1)) =
      LaneEvent.raised (journal.events (height + 1)) := by
  rw [Journal.events_append, Journal.events_append, LaneEvent.raised_append, raised_takeEntry,
    List.append_nil, takeEntry, Journal.events_cons_self]
  exact ⟨rfl, rfl⟩

/-- What lasts stays true elsewhere when a result lands at a height. -/
theorem Lands.elsewhere (lands : Lands batchSize height ticket results more c next)
    (above : ∀ upper > height, Storey.Lasts batchSize upper true (holds upper))
    (before : Elsewhere height holds journal c) :
    Elsewhere height holds (journal ++ more) next := by
  intro place hne
  have hplace := before place hne
  rw [Journal.events_append, Journal.events_append, LaneEvent.raised_append]
  rcases Nat.lt_or_gt_of_ne hne with hbelow | habove
  · obtain ⟨hsame, hnone⟩ := lands.below place hbelow
    have hraised : LaneEvent.raised (more.events (place + 1)) = [] := by
      rcases Nat.eq_or_lt_of_le (Nat.succ_le_of_lt hbelow) with rfl | hlower
      · rw [lands.landed]
        rfl
      · rw [(lands.below _ hlower).2]
        rfl
    rw [hsame, hnone, hraised, List.append_nil, List.append_nil]
    exact hplace
  · exact above place habove hplace (lands.above place habove)

/-- The journal of a height where a result has landed. -/
theorem Lands.events_here (lands : Lands batchSize height ticket results more c next)
    (journal : Journal) :
    Journal.events (journal ++ more) height = journal.events height ++ [.land ticket results] ∧
    LaneEvent.raised (Journal.events (journal ++ more) (height + 1)) =
      LaneEvent.raised (journal.events (height + 1)) ++
        ((c.storey height).lane.land ticket results).1 := by
  rw [Journal.events_append, Journal.events_append, LaneEvent.raised_append, lands.landed,
    lands.sent]
  exact ⟨rfl, rfl⟩

end Combiner

end BlockIntake.Merkle
