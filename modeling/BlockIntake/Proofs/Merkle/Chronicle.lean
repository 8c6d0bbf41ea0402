import BlockIntake.Proofs.Merkle.Journal
import BlockIntake.Proofs.Merkle.Scanning

/-!
# The chronicle of a height

What has happened at a height of an open tree accounts for what stands there. The hashes pushed are
the batches taken, in ticket order, and those pending; each job has the batch of its ticket; and
what has left are the pairs of the batches before the one due next. Every event keeps this account,
and so does taking the height into a scan, which holds an odd hash back for a while.
-/

namespace BlockIntake.Merkle

namespace Storey

/-- What has happened at a height accounts for what stands there. The tickets in `loose` belong to
batches about to be landed, and the hashes in `held` are held back by a scan. -/
structure Account (height : Nat) (loose : List Nat) (held : List Digest) (s : Storey)
    (events : List LaneEvent) (sent : List Digest) : Prop where
  /-- The tickets of the batches. -/
  tracks : s.lane.Tracks (loose ++ s.jobs.map (·.ticket)) (emptyRoot height)
    (LaneEvent.batches events)
  /-- The batches were taken in ticket order. -/
  tickets : LaneEvent.tickets events = List.range s.lane.nextTicket
  /-- No result waits that could leave. -/
  settled : s.lane.Settled
  /-- A job has the batch of its ticket. -/
  jobs : ∀ job ∈ s.jobs, (LaneEvent.batches events)[job.ticket]? = some job.batch
  /-- Batches are in whole pairs. -/
  even : ∀ batch ∈ LaneEvent.batches events, batch.length % 2 = 0 ∧ batch ≠ []
  /-- No hash is lost, added or moved. -/
  pushed : LaneEvent.pushed events =
    (LaneEvent.batches events).flatten ++ s.lane.pending.toList ++ held
  /-- What has left are the pairs of the batches that were due. -/
  sent : sent = s.lane.raised (emptyRoot height) (LaneEvent.batches events)
  /-- All hashes come from below, but for the leaves. -/
  source : height ≠ 0 → LaneEvent.raised events = LaneEvent.pushed events

/-- A height in order, with what has happened there and what has left. -/
structure Chronicle (batchSize height : Nat) (s : Storey) (events : List LaneEvent)
    (sent : List Digest) : Prop extends Account height [] [] s events sent where
  /-- Less than a batch is pending. -/
  short : s.lane.pending.size < batchSize

variable {batchSize height ticket : Nat} {loose : List Nat} {held batch sent : List Digest}
  {s : Storey} {events : List LaneEvent}

/-- Nothing has happened at an empty height. -/
theorem chronicle_empty (positive : 0 < batchSize) (height : Nat) :
    Chronicle batchSize height ⟨{}, []⟩ [] [] where
  tracks := Lane.tracks_empty _
  tickets := rfl
  settled _ h := absurd h List.not_mem_nil
  jobs _ h := absurd h List.not_mem_nil
  even _ h := absurd h List.not_mem_nil
  pushed := rfl
  sent := rfl
  source _ := rfl
  short := positive

/-- A hash that is pushed is pending. -/
theorem Account.push (account : Account height loose [] s events sent) {raised : Bool}
    (source : height ≠ 0 → raised = true) (hash : Digest) :
    Account height loose [] (s.push hash) (events ++ [.push raised hash]) sent := by
  have hbatches := LaneEvent.batches_push events hash raised
  have hpushed : LaneEvent.pushed (events ++ [.push raised hash]) =
      LaneEvent.pushed events ++ [hash] := LaneEvent.pushed_append _ _
  refine ⟨?_, ?_, account.settled, ?_, ?_, ?_, ?_, fun hheight => ?_⟩
  · rw [hbatches]
    exact { account.tracks with }
  · exact (LaneEvent.tickets_push events hash raised).trans account.tickets
  · rw [hbatches]
    exact account.jobs
  · rw [hbatches]
    exact account.even
  · rw [hbatches, hpushed, account.pushed, List.append_nil, List.append_nil, Storey.push,
      Lane.push, Array.toList_push, List.append_assoc]
  · rw [hbatches]
    exact account.sent
  · rw [hpushed, LaneEvent.raised_append, account.source hheight, source hheight]
    rfl

/-- A batch of whole pairs may be taken. Its ticket is loose. -/
theorem Account.take (account : Account height [] held s events sent)
    (even : s.lane.pending.size % 2 = 0) (waiting : s.lane.pending.toList ≠ []) :
    Account height [(s.job height).ticket] held s.take
      (events ++ [.take (s.job height).ticket (s.job height).batch]) sent ∧
    (LaneEvent.batches (events ++
      [.take (s.job height).ticket (s.job height).batch]))[(s.job height).ticket]? =
        some (s.job height).batch := by
  have hbatches : LaneEvent.batches (events ++
      [.take (s.job height).ticket (s.job height).batch]) =
        LaneEvent.batches events ++ [s.lane.pending.toList] := LaneEvent.batches_append _ _
  have hticket : (s.job height).ticket = (LaneEvent.batches events).length :=
    account.tracks.length_taken.symm
  constructor
  · refine ⟨?_, ?_, account.settled, fun job hjob => ?_, fun batch hbatch => ?_, ?_, ?_,
      fun hheight => ?_⟩
    · rw [hbatches]
      exact account.tracks.takeBatch.perm List.perm_append_comm
    · rw [LaneEvent.tickets_append, account.tickets]
      exact List.range_succ.symm
    · have hold := account.jobs job hjob
      rw [hbatches, List.getElem?_append_left (List.getElem?_eq_some_iff.mp hold).1, hold]
    · rw [hbatches] at hbatch
      rcases List.mem_append.mp hbatch with hold | hnew
      · exact account.even batch hold
      · rw [List.mem_singleton.mp hnew]
        exact ⟨even, waiting⟩
    · rw [hbatches, LaneEvent.pushed_take, account.pushed]
      simp [Storey.take, Lane.takeBatch]
    · rw [hbatches, account.sent]
      exact account.tracks.raised_takeBatch.symm
    · rw [LaneEvent.pushed_take, LaneEvent.raised_take, account.source hheight]
  · rw [hbatches, hticket, List.getElem?_concat_length]
    rfl

/-- The result of a batch may land. -/
theorem Account.land (account : Account height [ticket] held s events sent)
    (taken : (LaneEvent.batches events)[ticket]? = some batch) :
    Account height [] held (s.land ticket (pairUp (emptyRoot height) batch))
      (events ++ [.land ticket (pairUp (emptyRoot height) batch)])
      (sent ++ (s.lane.land ticket (pairUp (emptyRoot height) batch)).1) := by
  have hbatches := LaneEvent.batches_land events ticket (pairUp (emptyRoot height) batch)
  obtain ⟨htracks, hsettled, hpending, hraised⟩ := account.tracks.land taken
  obtain ⟨-, -, hticket⟩ := s.lane.settled_land ticket (pairUp (emptyRoot height) batch)
  refine ⟨?_, ?_, hsettled, ?_, ?_, ?_, ?_, fun hheight => ?_⟩
  · rw [hbatches]
    exact htracks
  · rw [LaneEvent.tickets_land, account.tickets, Storey.land, hticket]
  · rw [hbatches]
    exact account.jobs
  · rw [hbatches]
    exact account.even
  · rw [hbatches, LaneEvent.pushed_land, account.pushed, Storey.land, hpending]
  · rw [hbatches, account.sent]
    exact hraised.symm
  · rw [LaneEvent.pushed_land, LaneEvent.raised_land, account.source hheight]

/-- A batch of whole pairs may be combined on the spot. -/
theorem Account.combine (account : Account height [] held s events sent)
    (even : s.lane.pending.size % 2 = 0) (waiting : s.lane.pending.toList ≠ []) :
    Account height [] held (s.take.land (s.job height).ticket (s.result height))
      (events ++ [.take (s.job height).ticket (s.job height).batch,
        .land (s.job height).ticket (s.result height)])
      (sent ++ (s.take.lane.land (s.job height).ticket (s.result height)).1) := by
  obtain ⟨htaken, hbatch⟩ := account.take even waiting
  have hland := htaken.land hbatch
  rw [List.append_assoc] at hland
  exact hland

/-- A batch may become a job. -/
theorem Account.pool {job : Job} (account : Account height [job.ticket] held s events sent)
    (taken : (LaneEvent.batches events)[job.ticket]? = some job.batch) :
    Account height [] held ⟨s.lane, s.jobs ++ [job]⟩ events sent := by
  refine ⟨?_, account.tickets, account.settled, fun other hother => ?_, account.even,
    account.pushed, account.sent, account.source⟩
  · rw [List.nil_append, List.map_append]
    exact account.tracks.perm List.perm_append_comm
  · rcases List.mem_append.mp hother with hold | hnew
    · exact account.jobs other hold
    · rw [List.mem_singleton.mp hnew]
      exact taken

/-- A job may be removed, whose ticket is loose then. -/
theorem Account.unpool {job : Job} {rest : List Job}
    (account : Account height [] held s events sent) (split : (job :: rest).Perm s.jobs) :
    Account height [job.ticket] held ⟨s.lane, rest⟩ events sent ∧
      (LaneEvent.batches events)[job.ticket]? = some job.batch := by
  refine ⟨⟨?_, account.tickets, account.settled, fun other hother => ?_, account.even,
    account.pushed, account.sent, account.source⟩,
    account.jobs job (split.mem_iff.mp List.mem_cons_self)⟩
  · have htickets := split.map (fun job : Job => job.ticket)
    exact account.tracks.perm htickets
  · exact account.jobs other (split.mem_iff.mp (List.mem_cons_of_mem _ hother))

/-- An odd last hash may be held back. -/
theorem Account.hold (account : Account height loose [] s events sent) :
    Account height loose s.lane.holdOdd.1.toList ⟨s.lane.holdOdd.2, s.jobs⟩ events sent := by
  obtain ⟨hsplit, -, hpending⟩ := Combiner.holdOdd_spec s.lane
  have hpushed := account.pushed
  rw [List.append_nil, ← hsplit, ← List.append_assoc] at hpushed
  have hsent : s.lane.holdOdd.2.nextToForward = s.lane.nextToForward := by rw [hpending]
  refine ⟨?_, ?_, ?_, account.jobs, account.even, hpushed, ?_, account.source⟩
  · rw [hpending]
    exact { account.tracks with }
  · rw [hpending]
    exact account.tickets
  · rw [hpending]
    exact account.settled
  · rw [account.sent, Lane.raised, Lane.raised, hsent]

/-- A hash that was held back may be put down where everything was taken. -/
theorem Account.putDown {hash : Digest} (account : Account height loose [hash] s events sent)
    (empty : s.lane.pending = #[]) : Account height loose [] (s.push hash) events sent := by
  have hpushed := account.pushed
  rw [empty, List.append_nil] at hpushed
  refine ⟨{ account.tracks with }, account.tickets, account.settled, account.jobs, account.even,
    ?_, account.sent, account.source⟩
  rw [hpushed, Storey.push, Lane.push, empty, List.append_nil]
  rfl

/-- A hash that fills a lane makes a batch of whole pairs. -/
theorem Chronicle.fills (chronicle : Chronicle batchSize height s events sent)
    (evenSize : batchSize % 2 = 0) (hash : Digest)
    (full : batchSize ≤ (s.push hash).lane.pending.size) :
    (s.push hash).lane.pending.size % 2 = 0 ∧ (s.push hash).lane.pending.toList ≠ [] := by
  have hshort := chronicle.short
  have hsize : (s.push hash).lane.pending.size = s.lane.pending.size + 1 := Array.size_push _
  refine ⟨by omega, fun hnil => ?_⟩
  rw [← Array.length_toList, hnil] at hsize
  cases hsize

/-- Pushing hashes keeps a height in order. -/
theorem lasts_chronicle (positive : 0 < batchSize) (evenSize : batchSize % 2 = 0) {raised : Bool}
    (source : height ≠ 0 → raised = true) :
    Lasts batchSize height raised (Chronicle batchSize height) := by
  intro first events sent more sending last before takes
  induction takes with
  | rest =>
    rw [List.append_nil, List.append_nil]
    exact before
  | wait _ hash short ih =>
    rw [← List.append_assoc]
    exact ⟨ih.push source hash, short⟩
  | @combine _ _ s _ hash full ih =>
    obtain ⟨heven, hwaiting⟩ := ih.fills evenSize hash full
    have hcombine := (ih.push source hash).combine heven hwaiting
    obtain ⟨-, hpending, -⟩ := (s.push hash).take.lane.settled_land
      ((s.push hash).job height).ticket ((s.push hash).result height)
    rw [List.append_assoc, List.append_assoc, List.append_assoc] at hcombine
    refine ⟨hcombine, ?_⟩
    rw [Storey.land, hpending]
    exact positive
  | @pool _ _ s _ hash full ih =>
    obtain ⟨heven, hwaiting⟩ := ih.fills evenSize hash full
    obtain ⟨htaken, hbatch⟩ := (ih.push source hash).take heven hwaiting
    have hpool := htaken.pool hbatch
    rw [List.append_assoc, List.append_assoc] at hpool
    exact ⟨hpool, positive⟩

end Storey

end BlockIntake.Merkle
