import BlockIntake.Proofs.Merkle.Journal

/-!
# Tickets leave in order

The results of batches may land in any order. A result that lands early waits until all earlier ones
have landed, and then leaves with those that are due after it. So at any time the results that have
left are those of the tickets below the first one that has not landed, in ticket order and each of
them once; and when every ticket has landed, nothing waits any more. What has left a lane stands in
the next one: there every hash pushed is in a batch that was taken, or is still pending.
-/

namespace BlockIntake.Merkle

namespace Lane

/-- The result that has landed with a ticket, or nothing. -/
def resultOf (landed : List (Nat × List Digest)) (ticket : Nat) : List Digest :=
  (landed.lookup ticket).getD []

/-- A lane in which results have landed, whose results have left in ticket order. -/
structure Sequences (lane : Lane) (landed : List (Nat × List Digest)) (sent : List Digest) :
    Prop where
  /-- No ticket lands twice. -/
  once : (landed.map Prod.fst).Nodup
  /-- The tickets before the one due next have landed. -/
  passed : ∀ ticket < lane.nextToForward, ticket ∈ landed.map Prod.fst
  /-- The results of the others that have landed wait. -/
  waiting : lane.finished.Perm (landed.filter (lane.nextToForward ≤ ·.1))
  /-- What has left are the results of those tickets, in order. -/
  sent : sent = (List.range lane.nextToForward).flatMap (resultOf landed)

variable {lane : Lane} {landed : List (Nat × List Digest)} {sent results : List Digest}
  {ticket : Nat}

/-- Where no ticket lands twice, a result that has landed is the one with its ticket. -/
theorem resultOf_eq (once : (landed.map Prod.fst).Nodup) (mem : (ticket, results) ∈ landed) :
    resultOf landed ticket = results := by
  obtain ⟨front, back, rfl⟩ := List.append_of_mem mem
  have hfirst : ∀ entry ∈ front, ticket ≠ entry.1 := by
    rintro entry hentry rfl
    rw [List.map_append, List.map_cons] at once
    exact List.disjoint_of_nodup_append once (List.mem_map_of_mem hentry) List.mem_cons_self
  have hlookup : (front ++ (ticket, results) :: back).lookup ticket = some results :=
    List.lookup_eq_some_iff.mpr ⟨front, back, rfl, fun entry hentry => by
      simpa using hfirst entry hentry⟩
  rw [resultOf, hlookup, Option.getD_some]

/-- A result that lands later is not the one of a ticket that has landed. -/
theorem resultOf_append (mem : ticket ∈ landed.map Prod.fst) (more : List (Nat × List Digest)) :
    resultOf (landed ++ more) ticket = resultOf landed ticket := by
  obtain ⟨entry, hentry, rfl⟩ := List.mem_map.mp mem
  cases hlookup : landed.lookup entry.1 with
  | none => simpa using List.lookup_eq_none_iff.mp hlookup entry hentry
  | some results =>
    rw [resultOf, resultOf, List.lookup_append, hlookup]
    rfl

/-- Nothing has landed in an empty lane. -/
theorem sequences_empty : ({} : Lane).Sequences [] [] :=
  ⟨List.nodup_nil, fun _ h => absurd h (Nat.not_lt_zero _), List.Perm.refl _, rfl⟩

/-- The order of the results depends on what waits and on what is due alone. -/
theorem Sequences.congr {other : Lane} (sequences : lane.Sequences landed sent)
    (finished : other.finished = lane.finished)
    (forward : other.nextToForward = lane.nextToForward) : other.Sequences landed sent := by
  refine ⟨sequences.once, ?_, ?_, ?_⟩
  · rw [forward]
    exact sequences.passed
  · rw [finished, forward]
    exact sequences.waiting
  · rw [forward]
    exact sequences.sent

/-- A result that lands waits. -/
theorem Sequences.file (sequences : lane.Sequences landed sent)
    (fresh : ticket ∉ landed.map Prod.fst) (results : List Digest) :
    (lane.file ticket results).Sequences (landed ++ [(ticket, results)]) sent := by
  have hlate : lane.nextToForward ≤ ticket := by
    by_contra hearly
    exact fresh (sequences.passed ticket (Nat.lt_of_not_le hearly))
  constructor
  · rw [List.map_append, List.nodup_append]
    refine ⟨sequences.once, List.nodup_singleton _, ?_⟩
    intro other hother last hlast heq
    obtain rfl : other = ticket := heq.trans (List.mem_singleton.mp hlast)
    exact fresh hother
  · intro other hother
    rw [List.map_append]
    exact List.mem_append_left _ (sequences.passed other hother)
  · have hlast : [(ticket, results)].filter (lane.nextToForward ≤ ·.1) = [(ticket, results)] :=
      List.filter_cons_of_pos (decide_eq_true hlate)
    change ((ticket, results) :: lane.finished).Perm
      ((landed ++ [(ticket, results)]).filter (lane.nextToForward ≤ ·.1))
    rw [List.filter_append, hlast]
    exact (sequences.waiting.cons _).trans (List.perm_append_singleton _ _).symm
  · rw [sequences.sent]
    refine List.flatMap_congr fun other hother => ?_
    have hpassed := sequences.passed other (List.mem_range.mp hother)
    exact (resultOf_append hpassed _).symm

/-- A result leaves in its turn. -/
theorem Sequences.leave (sequences : lane.Sequences landed sent)
    (early : lane.finished.lookup lane.nextToForward = some results) :
    ({ lane with
      finished := lane.finished.filter (·.1 != lane.nextToForward)
      nextToForward := lane.nextToForward + 1 } : Lane).Sequences landed (sent ++ results) := by
  obtain ⟨front, back, hsplit, -⟩ := List.lookup_eq_some_iff.mp early
  have hmem : (lane.nextToForward, results) ∈ lane.finished := by simp [hsplit]
  have hlanded := (List.mem_filter.mp (sequences.waiting.mem_iff.mp hmem)).1
  refine ⟨sequences.once, fun ticket h => ?_, ?_, ?_⟩
  · rcases Nat.lt_succ_iff_lt_or_eq.mp h with hlt | rfl
    · exact sequences.passed ticket hlt
    · exact List.mem_map_of_mem hlanded
  · have hfilter := sequences.waiting.filter (·.1 != lane.nextToForward)
    rw [List.filter_filter] at hfilter
    refine hfilter.trans (List.Perm.of_eq (List.filter_congr fun entry _ => ?_))
    rw [Bool.eq_iff_iff]
    simp
    omega
  · rw [List.range_succ, List.flatMap_append, ← sequences.sent, List.flatMap_singleton,
      resultOf_eq sequences.once hlanded]

/-- Every result that is in order leaves, in ticket order. -/
theorem Sequences.releaseUpTo (sequences : lane.Sequences landed sent) (count : Nat) :
    (lane.releaseUpTo count).2.Sequences landed (sent ++ (lane.releaseUpTo count).1) := by
  induction count generalizing lane sent with
  | zero =>
    rw [Lane.releaseUpTo, List.append_nil]
    exact sequences
  | succ count ih =>
    simp only [Lane.releaseUpTo]
    split
    · rw [List.append_nil]
      exact sequences
    · next results hsome =>
      rw [← List.append_assoc]
      exact ih (sequences.leave hsome)

/-- A result that lands leaves in ticket order, with those that waited for it. -/
theorem Sequences.land (sequences : lane.Sequences landed sent)
    (fresh : ticket ∉ landed.map Prod.fst) (results : List Digest) :
    (lane.land ticket results).2.Sequences (landed ++ [(ticket, results)])
      (sent ++ (lane.land ticket results).1) :=
  (sequences.file fresh results).releaseUpTo _

/-- A lane that has been through some events. -/
structure InOrder (lane : Lane) (events : List LaneEvent) (sent : List Digest) : Prop where
  /-- The results that have landed leave in ticket order. -/
  sequences : lane.Sequences (LaneEvent.landed events) sent
  /-- No result waits that could leave. -/
  settled : lane.Settled
  /-- The batches are numbered by their tickets. -/
  tickets : lane.nextTicket = (LaneEvent.batches events).length
  /-- Only results of batches have landed. -/
  issued : ∀ ticket ∈ (LaneEvent.landed events).map Prod.fst, ticket < lane.nextTicket
  /-- The hashes pushed are those of the batches, in ticket order, and those pending. -/
  pushed : LaneEvent.pushed events = (LaneEvent.batches events).flatten ++ lane.pending.toList

variable {events : List LaneEvent}

/-- Nothing has happened to an empty lane. -/
theorem inOrder_empty : ({} : Lane).InOrder [] [] :=
  ⟨sequences_empty, fun _ h => absurd h List.not_mem_nil, rfl,
    fun _ h => absurd h List.not_mem_nil, rfl⟩

/-- Pushing a hash changes no order. -/
theorem InOrder.push (inOrder : lane.InOrder events sent) (raised : Bool) (hash : Digest) :
    (lane.push hash).InOrder (events ++ [.push raised hash]) sent := by
  refine ⟨?_, inOrder.settled, ?_, ?_, ?_⟩
  · rw [LaneEvent.landed_push]
    exact inOrder.sequences.congr rfl rfl
  · rw [LaneEvent.batches_push]
    exact inOrder.tickets
  · rw [LaneEvent.landed_push]
    exact inOrder.issued
  · rw [LaneEvent.pushed_append, LaneEvent.batches_push, inOrder.pushed, Lane.push,
      Array.toList_push, List.append_assoc]
    rfl

/-- Taking a batch issues the next ticket. -/
theorem InOrder.take (inOrder : lane.InOrder events sent) :
    lane.takeBatch.2.InOrder (events ++ [.take lane.nextTicket lane.pending.toList]) sent := by
  refine ⟨?_, inOrder.settled, ?_, ?_, ?_⟩
  · rw [LaneEvent.landed_take]
    exact inOrder.sequences.congr rfl rfl
  · rw [LaneEvent.batches_append, List.length_append, ← inOrder.tickets]
    rfl
  · rw [LaneEvent.landed_take]
    intro ticket hticket
    exact Nat.lt_succ_of_lt (inOrder.issued ticket hticket)
  · have hbatches : (LaneEvent.batches (events ++ [.take lane.nextTicket
        lane.pending.toList])).flatten =
          (LaneEvent.batches events).flatten ++ lane.pending.toList := by
      rw [LaneEvent.batches_append, List.flatten_append]
      exact congrArg (_ ++ ·) (List.append_nil _)
    rw [LaneEvent.pushed_take, inOrder.pushed, hbatches]
    exact (List.append_nil _).symm

/-- The result of a batch that has not landed may land. -/
theorem InOrder.land (inOrder : lane.InOrder events sent) (issued : ticket < lane.nextTicket)
    (fresh : ticket ∉ (LaneEvent.landed events).map Prod.fst) (results : List Digest) :
    (lane.land ticket results).2.InOrder (events ++ [.land ticket results])
      (sent ++ (lane.land ticket results).1) := by
  have hlanded : LaneEvent.landed (events ++ [.land ticket results]) =
      LaneEvent.landed events ++ [(ticket, results)] := LaneEvent.landed_append _ _
  obtain ⟨hsettled, hpending, hcount⟩ := lane.settled_land ticket results
  refine ⟨?_, hsettled, ?_, ?_, ?_⟩
  · rw [hlanded]
    exact inOrder.sequences.land fresh results
  · rw [LaneEvent.batches_land, hcount]
    exact inOrder.tickets
  · rw [hlanded, hcount, List.map_append]
    intro other hother
    rcases List.mem_append.mp hother with hold | hnew
    · exact inOrder.issued other hold
    · rw [List.mem_singleton.mp hnew]
      exact issued
  · rw [LaneEvent.pushed_land, LaneEvent.batches_land, hpending]
    exact inOrder.pushed

/-- The result of a batch that was just taken may land. -/
theorem InOrder.combine (inOrder : lane.InOrder events sent) (results : List Digest) :
    (lane.takeBatch.2.land lane.nextTicket results).2.InOrder
      (events ++ [.take lane.nextTicket lane.pending.toList, .land lane.nextTicket results])
      (sent ++ (lane.takeBatch.2.land lane.nextTicket results).1) := by
  have hfresh : lane.nextTicket ∉ (LaneEvent.landed
      (events ++ [.take lane.nextTicket lane.pending.toList])).map Prod.fst := by
    rw [LaneEvent.landed_take]
    exact fun hmem => Nat.lt_irrefl _ (inOrder.issued _ hmem)
  have hland := inOrder.take.land (Nat.lt_succ_self lane.nextTicket) hfresh results
  rw [List.append_assoc] at hland
  exact hland

/-- Whatever hashes are pushed, the results leave in order. -/
theorem InOrder.takes {batchSize height : Nat} {raised : Bool} {first last : Storey}
    {more : List LaneEvent} {sending : List Digest} (inOrder : first.lane.InOrder events sent)
    (takes : first.Takes batchSize height raised more sending last) :
    last.lane.InOrder (events ++ more) (sent ++ sending) := by
  induction takes with
  | rest =>
    rw [List.append_nil, List.append_nil]
    exact inOrder
  | wait _ hash _ ih =>
    rw [← List.append_assoc]
    exact ih.push raised hash
  | @combine _ _ s _ hash _ ih =>
    have hcombine := (ih.push raised hash).combine ((s.push hash).result height)
    rw [List.append_assoc, List.append_assoc, List.append_assoc] at hcombine
    exact hcombine
  | @pool _ _ s _ hash _ ih =>
    have htaken := (ih.push raised hash).take
    rw [List.append_assoc, List.append_assoc] at htaken
    exact htaken

/-- The ticket that is due next has not landed. -/
theorem InOrder.due (inOrder : lane.InOrder events sent) :
    lane.nextToForward ∉ (LaneEvent.landed events).map Prod.fst := by
  intro hmem
  obtain ⟨entry, hentry, hticket⟩ := List.mem_map.mp hmem
  have hwaiting := inOrder.sequences.waiting.mem_iff.mpr
    (List.mem_filter.mpr ⟨hentry, decide_eq_true hticket.ge⟩)
  exact inOrder.settled entry hwaiting hticket

/-- The ticket that is due next is the first that has not landed. -/
theorem InOrder.isLeast (inOrder : lane.InOrder events sent) :
    IsLeast {ticket | ticket ∉ (LaneEvent.landed events).map Prod.fst} lane.nextToForward := by
  refine ⟨inOrder.due, fun ticket hticket => ?_⟩
  by_contra hearly
  exact hticket (inOrder.sequences.passed ticket (Nat.lt_of_not_le hearly))

/-- What waits are the results of later tickets. -/
theorem InOrder.finished_perm (inOrder : lane.InOrder events sent) : lane.finished.Perm
    ((LaneEvent.landed events).filter (lane.nextToForward < ·.1)) := by
  refine inOrder.sequences.waiting.trans
    (List.Perm.of_eq (List.filter_congr fun entry hentry => ?_))
  have hother : lane.nextToForward ≠ entry.1 := by
    intro heq
    exact inOrder.due (heq ▸ List.mem_map_of_mem hentry)
  rw [decide_eq_decide]
  omega

/-- What waits, if the results are those of a family. -/
theorem InOrder.finished_perm_family (inOrder : lane.InOrder events sent)
    {result : Nat → List Digest}
    (family : ∀ entry ∈ LaneEvent.landed events, entry.2 = result entry.1) : lane.finished.Perm
      ((((LaneEvent.landed events).map Prod.fst).filter (lane.nextToForward < ·)).map fun ticket =>
        (ticket, result ticket)) := by
  refine inOrder.finished_perm.trans (List.Perm.of_eq ?_)
  rw [List.filter_map, List.map_map]
  exact (List.map_id _).symm.trans (List.map_congr_left fun entry hentry =>
    Prod.ext rfl (family entry (List.mem_filter.mp hentry).1))

/-- Once every ticket has landed, all results have left. -/
theorem InOrder.complete (inOrder : lane.InOrder events sent)
    (all : ∀ ticket < lane.nextTicket, ticket ∈ (LaneEvent.landed events).map Prod.fst) :
    lane.nextToForward = lane.nextTicket ∧ lane.finished = [] := by
  have hforward : lane.nextToForward = lane.nextTicket := by
    rcases Nat.lt_trichotomy lane.nextToForward lane.nextTicket with hlt | heq | hgt
    · exact absurd (all _ hlt) inOrder.due
    · exact heq
    · have hpassed := inOrder.sequences.passed _ hgt
      exact absurd (inOrder.issued _ hpassed) (Nat.lt_irrefl _)
  refine ⟨hforward, List.eq_nil_iff_forall_not_mem.mpr fun entry hentry => ?_⟩
  obtain ⟨hlanded, hlate⟩ := List.mem_filter.mp (inOrder.finished_perm.mem_iff.mp hentry)
  have hissued := inOrder.issued entry.1 (List.mem_map_of_mem hlanded)
  have hlater := of_decide_eq_true hlate
  omega

/-- What has left, if the results are those of a family. -/
theorem InOrder.sent_eq (inOrder : lane.InOrder events sent) {result : Nat → List Digest}
    (family : ∀ entry ∈ LaneEvent.landed events, entry.2 = result entry.1) :
    sent = (List.range lane.nextToForward).flatMap result := by
  rw [inOrder.sequences.sent]
  refine List.flatMap_congr fun ticket hticket => ?_
  obtain ⟨entry, hentry, rfl⟩ := List.mem_map.mp
    (inOrder.sequences.passed ticket (List.mem_range.mp hticket))
  rw [← family entry hentry]
  exact resultOf_eq inOrder.sequences.once hentry

end Lane

namespace Combiner

/-- A tree arises from an empty one if hashes are pushed, batches are taken and results of batches
land, at any heights and in any order. Every result is that of a batch that was taken, and none
lands twice. -/
inductive Arises (batchSize : Nat) : Journal → Combiner → Prop
  /-- Nothing has happened yet. -/
  | new : Arises batchSize [] {}
  /-- A hash is pushed. -/
  | push {journal : Journal} {c next : Combiner} (before : Arises batchSize journal c)
      (height : Nat) (hash : Digest) (done : c.push batchSize height hash = .ok next) :
      Arises batchSize (journal ++ pushJournal batchSize height false c hash) next
  /-- Everything pending is taken, and a ticket is issued. -/
  | issue {journal : Journal} {c : Combiner} (before : Arises batchSize journal c) (height : Nat)
      (within : height < maxDepth) :
      Arises batchSize (journal ++ [c.takeEntry height]) (c.takePending height)
  /-- A result lands. -/
  | forward {journal : Journal} {c next : Combiner} (before : Arises batchSize journal c)
      (height ticket : Nat) (results : List Digest)
      (issued : ticket < (c.laneAt height).nextTicket)
      (fresh : ticket ∉ (LaneEvent.landed (journal.events height)).map Prod.fst)
      (done : c.land batchSize height ticket results = .ok next) :
      Arises batchSize (journal ++ landJournal batchSize height ticket results c) next

variable {batchSize height ticket : Nat} {journal : Journal} {c next : Combiner} {crash : Crash}

/-- Only the lanes of the tree issue tickets. -/
theorem Shaped.lt_of_issued (shaped : c.Shaped) (issued : ticket < (c.laneAt height).nextTicket) :
    height < maxDepth := by
  by_contra hpast
  have hnone : c.lanes[height]? = none :=
    Array.getElem?_eq_none (by rw [shaped.lanes_size]; omega)
  rw [laneAt, hnone] at issued
  exact absurd issued (Nat.not_lt_zero _)

/-- A hash is pushed to the lanes of the tree only. -/
theorem lt_of_push_ok {hash : Digest} (done : c.push batchSize height hash = .ok next) :
    height < maxDepth := by
  by_contra hpast
  have hnone : maxDepth - height = 0 := by omega
  rw [push, hnone] at done
  cases done

/-- In every lane the results leave in order. -/
def InOrder (journal : Journal) (c : Combiner) : Prop :=
  Everywhere (fun _ s events sent => s.lane.InOrder events sent) journal c

/-- Order lasts when hashes are pushed. -/
theorem lasts_inOrder (batchSize height : Nat) (raised : Bool) :
    Storey.Lasts batchSize height raised fun s events sent => s.lane.InOrder events sent :=
  fun inOrder takes => inOrder.takes takes

/-- However a tree has arisen, in every lane the results leave in order. The induction runs over
what has happened. -/
theorem Arises.inOrder (arises : Arises batchSize journal c) : c.Shaped ∧ InOrder journal c := by
  induction arises with
  | new =>
    refine ⟨CombiningTree.shaped_empty, fun height => ?_⟩
    rw [storey_empty]
    exact Lane.inOrder_empty
  | @push journal c next _ height hash done ih =>
    obtain ⟨shaped, inOrder⟩ := ih
    have records := records_push (lt_of_push_ok done).le false shaped done
    exact ⟨records.shaped, records.everywhere (lasts_inOrder batchSize height false)
      (fun upper _ => lasts_inOrder batchSize upper true) inOrder⟩
  | @issue journal c _ height within ih =>
    obtain ⟨shaped, inOrder⟩ := ih
    obtain ⟨hevents, hraised⟩ := events_take journal c height
    refine ⟨shaped.setLane _, (Everywhere.elsewhere inOrder height).take.everywhere ?_⟩
    rw [hevents, hraised, shaped.storey_takePending within]
    exact (inOrder height).take
  | @forward journal c next _ height ticket results issued fresh done ih =>
    obtain ⟨shaped, inOrder⟩ := ih
    have lands := lands_land (shaped.lt_of_issued issued) shaped done
    obtain ⟨hevents, hraised⟩ := lands.events_here journal
    refine ⟨lands.shaped, Elsewhere.everywhere
      (lands.elsewhere (fun upper _ => lasts_inOrder batchSize upper true)
        (Everywhere.elsewhere inOrder height)) ?_⟩
    rw [hevents, hraised, lands.here]
    exact (inOrder height).land issued fresh results

/-- There is no lane past the table. -/
def pastTable : Crash := .pastTable maxDepth maxDepth

/-- If pushing a hash fails only past the table, so does pushing many. -/
theorem foldlM_error {push : Combiner → Digest → Except Crash Combiner}
    (one : ∀ c hash crash, Shaped c → push c hash = .error crash → crash = pastTable)
    (shapes : ∀ c hash next, Shaped c → push c hash = .ok next → next.Shaped)
    (shaped : c.Shaped) (hashes : List Digest) (failed : hashes.foldlM push c = .error crash) :
    crash = pastTable := by
  induction hashes generalizing c with
  | nil => cases failed
  | cons hash hashes ih =>
    rw [List.foldlM_cons] at failed
    cases hpush : push c hash with
    | error other =>
      rw [hpush] at failed
      obtain rfl := Except.error.inj failed
      exact one c hash _ shaped hpush
    | ok next =>
      rw [hpush] at failed
      exact ih (shapes c hash next shaped hpush) failed

/-- If raising hashes fails only past the table, so does landing a result. -/
theorem landWith_error {raise : List Digest → Combiner → Except Crash Combiner}
    (raises : ∀ hashes c crash, Shaped c → raise hashes c = .error crash → crash = pastTable)
    (h : height < maxDepth) (shaped : c.Shaped) {results : List Digest}
    (failed : landWith raise height ticket results c = .error crash) : crash = pastTable := by
  simp only [landWith] at failed
  rw [shaped.lane_eq h, ok_bind] at failed
  exact raises _ _ crash (shaped.setLane _) failed

/-- Pushing a hash fails only past the table. The induction runs over the lanes left above. -/
theorem pushInto_error (room : Nat) (enough : room ≤ maxDepth) {c : Combiner} (hash : Digest)
    {crash : Crash} (shaped : c.Shaped)
    (failed : pushInto batchSize room c hash = .error crash) : crash = pastTable := by
  induction room generalizing c hash crash with
  | zero =>
    obtain rfl := Except.error.inj failed
    rw [shaped.lanes_size]
    rfl
  | succ room ih =>
    have hlt : maxDepth - (room + 1) < maxDepth := by omega
    rw [shaped.pushInto_eq hlt rfl] at failed
    have hshape : ((c.pushAt (maxDepth - (room + 1)) hash).takePending
        (maxDepth - (room + 1))).Shaped := Shaped.setLane (shaped.setLane _) _
    split at failed
    · cases failed
    · split at failed
      · refine landWith_error (fun hashes c crash shaped failed => ?_) hlt hshape failed
        exact foldlM_error (fun c hash crash => ih (by omega) hash)
          (fun c hash next shaped done =>
            (records_pushInto room (by omega) true hash shaped done).shaped)
          shaped hashes failed
      · cases failed

/-- Pushing a hash to a height fails only past the table. -/
theorem Shaped.push_error (shaped : c.Shaped) {hash : Digest}
    (failed : c.push batchSize height hash = .error crash) : crash = pastTable :=
  pushInto_error _ (Nat.sub_le _ _) hash shaped failed

/-- Landing a result fails only past the table. -/
theorem Shaped.land_error (shaped : c.Shaped) (h : height < maxDepth) {results : List Digest}
    (failed : c.land batchSize height ticket results = .error crash) : crash = pastTable :=
  landWith_error (fun hashes _ _ shaped failed =>
    foldlM_error (fun _ _ _ shaped failed => shaped.push_error failed)
      (fun _ _ _ shaped done => (records_push h true shaped done).shaped) shaped hashes failed)
    h shaped failed

/-- However a tree has arisen, what has been raised from a height are the results of the tickets
below the first one that has not landed, in ticket order, whatever results the batches have. That
ticket is due next, and the results of later tickets that have landed wait. Once all tickets have
landed, nothing waits, nothing is in flight, and all results were raised, each of them once. What
was raised has come to the next height, among the hashes pushed there from outside, if any: all of
them, in order, are in the batches taken there and in what is pending there now. And nothing goes
wrong in a tree but that a hash is raised past the last lane. -/
theorem tickets_leave_in_order (arises : Arises batchSize journal c) (height : Nat)
    (result : Nat → List Digest)
    (family : ∀ entry ∈ LaneEvent.landed (journal.events height), entry.2 = result entry.1) :
    let lane := c.laneAt height
    let tickets := (LaneEvent.landed (journal.events height)).map Prod.fst
    let raised := LaneEvent.raised (journal.events (height + 1))
    let above := c.laneAt (height + 1)
    let received := LaneEvent.pushed (journal.events (height + 1))
    let batches := LaneEvent.batches (journal.events (height + 1))
    lane.nextTicket = (LaneEvent.batches (journal.events height)).length ∧
    tickets.Nodup ∧ (∀ ticket ∈ tickets, ticket < lane.nextTicket) ∧
    IsLeast {ticket | ticket ∉ tickets} lane.nextToForward ∧
    raised = (List.range lane.nextToForward).flatMap result ∧
    lane.finished.Perm ((tickets.filter (lane.nextToForward < ·)).map fun ticket =>
      (ticket, result ticket)) ∧
    ((∀ ticket < lane.nextTicket, ticket ∈ tickets) → lane.finished = [] ∧
      lane.inFlight = false ∧ raised = (List.range lane.nextTicket).flatMap result) ∧
    (received = batches.flatten ++ above.pending.toList ∧ above.nextTicket = batches.length ∧
      raised.Sublist received ∧
      ((∀ hash, .push false hash ∉ journal.events (height + 1)) → raised = received)) ∧
    (∀ hash crash, c.push batchSize height hash = .error crash →
      crash = .pastTable maxDepth maxDepth) ∧
    ∀ ticket results crash, ticket < lane.nextTicket →
      c.land batchSize height ticket results = .error crash →
        crash = .pastTable maxDepth maxDepth := by
  obtain ⟨shaped, hall⟩ := arises.inOrder
  have inOrder := hall height
  have above := hall (height + 1)
  have hsent := inOrder.sent_eq family
  refine ⟨inOrder.tickets, inOrder.sequences.once, inOrder.issued, inOrder.isLeast, hsent,
    inOrder.finished_perm_family family, fun all => ?_,
    ⟨above.pushed, above.tickets, LaneEvent.raised_sublist _, LaneEvent.raised_eq_pushed⟩,
    fun hash crash failed => shaped.push_error failed,
    fun ticket results crash issued failed => shaped.land_error (shaped.lt_of_issued issued) failed⟩
  obtain ⟨hforward, hnone⟩ := inOrder.complete all
  change (c.laneAt height).nextToForward = (c.laneAt height).nextTicket at hforward
  refine ⟨hnone, ?_, ?_⟩
  · rw [Lane.inFlight, hforward]
    simp
  · rw [← hforward]
    exact hsent

/-- Of two results the second one lands first and waits. Both are raised once the first one has
landed, and they are what is pending at the next height then. -/
theorem tickets_leave_in_order_two : ∃ journal c, Arises 4 journal c ∧
    LaneEvent.landed (journal.events 0) = [(1, [.of [1]]), (0, [.zero])] ∧
    LaneEvent.raised (journal.events 1) = [.zero, .of [1]] ∧ (c.laneAt 0).finished = [] ∧
    (c.laneAt 1).pending.toList = [.zero, .of [1]] := by
  have issued := ((Arises.new : Arises 4 [] {}).issue 0 (by decide)).issue 0 (by decide)
  have early := issued.forward 0 1 [.of [1]] (by decide) (by decide) rfl
  have both := early.forward 0 0 [.zero] (by decide) (by decide) rfl
  obtain ⟨-, -, -, -, -, -, hall, ⟨hreceived, -, -, hsame⟩, -⟩ :=
    tickets_leave_in_order both 0 (fun ticket => if ticket = 0 then [.zero] else [.of [1]])
      fun entry hentry => by
        have hlanded : entry ∈ [(1, [Digest.of [1]]), (0, [Digest.zero])] := hentry
        rcases List.mem_cons.mp hlanded with rfl | hlast
        · rfl
        · rw [List.mem_singleton.mp hlast]
          rfl
  obtain ⟨hnone, -, hraised⟩ := hall (by decide)
  have hinside : ∀ hash, LaneEvent.push false hash ∉
      [LaneEvent.push true .zero, .push true (.of [1])] := by simp
  exact ⟨_, _, both, rfl, hraised, hnone,
    hreceived.symm.trans ((hsame hinside).symm.trans hraised)⟩

end Combiner

end BlockIntake.Merkle
