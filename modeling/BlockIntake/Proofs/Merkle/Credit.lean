import BlockIntake.Merkle.Schedule
import BlockIntake.Proofs.Merkle.Scanning
import BlockIntake.Proofs.Outcome

/-!
# What a leaf can cost

A leaf brings a credit of two for every height it can pass. Taking a batch and letting its result
leave cost one each, and are paid for by the hashes that combining the batch uses up, also when the
batch is odd. So the tickets of a height, those that have left it, the results that landed early and
the jobs, together with the credit of the hashes that are held, never exceed the credit of all
leaves. This holds at any time, before and after the root was requested, and bounds the tickets of
all heights.
-/

namespace BlockIntake.Merkle

open CombiningTree

/-- The credit of a hash that has reached a height. -/
def credit (height : Nat) : Nat := 2 * (maxDepth - height)

/-- Below the top, a hash spends two of its credit at every height. -/
theorem credit_succ {height : Nat} (h : height < maxDepth) :
    credit height = credit (height + 1) + 2 := by
  unfold credit
  omega

/-- The credit that a batch gives back pays for its ticket and for the landing of its result. -/
theorem batch_pays {height count : Nat} (h : height < maxDepth) (waiting : 0 < count) :
    2 + credit (height + 1) * ((count + 1) / 2) ≤ credit height * count := by
  have hhalf : credit (height + 1) * ((count + 1) / 2) ≤ credit (height + 1) * count :=
    Nat.mul_le_mul_left _ (by omega)
  rw [credit_succ h, Nat.add_mul]
  omega

namespace Lane

/-- What a lane has spent, and the credit of the hashes it holds. -/
def load (lane : Lane) (height : Nat) : Nat :=
  -- The hash of a result has been combined here and has the credit of the next height.
  lane.nextTicket + lane.nextToForward + lane.finished.length +
    credit height * lane.pending.size +
    credit (height + 1) * (lane.finished.flatMap (·.2)).length

/-- A pushed hash brings its credit. -/
theorem load_push (lane : Lane) (height : Nat) (hash : Digest) :
    (lane.push hash).load height = lane.load height + credit height := by
  simp only [load, push, Array.size_push, Nat.mul_succ]
  omega

/-- A hash that is taken away takes its credit along. -/
theorem load_holdOdd (lane : Lane) (height : Nat) :
    lane.holdOdd.2.load height + credit height * lane.holdOdd.1.toList.length =
      lane.load height := by
  obtain ⟨hsplit, -, hlane⟩ := Combiner.holdOdd_spec lane
  have hsize : lane.pending.size =
      lane.holdOdd.2.pending.size + lane.holdOdd.1.toList.length := by
    rw [← Array.length_toList, ← hsplit, List.length_append, Array.length_toList]
  rw [hlane]
  simp only [load, hsize, Nat.mul_add]
  omega

/-- A batch that is taken costs one and gives the credit of its hashes back. -/
theorem load_takeBatch (lane : Lane) (height : Nat) :
    lane.takeBatch.2.load height + credit height * lane.takeBatch.1.2.length =
      lane.load height + 1 := by
  simp only [load, takeBatch, Array.length_toList, List.size_toArray, List.length_nil,
    Nat.mul_zero]
  omega

/-- Letting results leave costs nothing more, and they take their credit along. -/
theorem load_releaseUpTo (height count : Nat) (lane : Lane) :
    (lane.releaseUpTo count).2.load height +
        credit (height + 1) * (lane.releaseUpTo count).1.length ≤ lane.load height := by
  induction count generalizing lane with
  | zero => simp [releaseUpTo]
  | succ count ih =>
    simp only [releaseUpTo]
    split
    · simp
    · next results early =>
      have hrest := ih { lane with
        finished := lane.finished.filter (·.1 != lane.nextToForward)
        nextToForward := lane.nextToForward + 1 }
      -- Results under one ticket all go when one leaves, so the load can sink further.
      have hcredit := Nat.mul_le_mul_left (credit (height + 1)) (length_held_leave early)
      have hless : (lane.finished.filter (·.1 != lane.nextToForward)).length <
          lane.finished.length := by
        obtain ⟨front, back, hsplit, -⟩ := List.lookup_eq_some_iff.mp early
        rw [List.length_filter_lt_length_iff_exists]
        exact ⟨(lane.nextToForward, results), by simp [hsplit], by simp⟩
      simp only [load, List.length_append, Nat.mul_add] at hrest hcredit ⊢
      omega

/-- A result that lands costs one and brings the credit of its hashes. -/
theorem load_land (lane : Lane) (height ticket : Nat) (results : List Digest) :
    (lane.land ticket results).2.load height +
        credit (height + 1) * (lane.land ticket results).1.length ≤
      lane.load height + 1 + credit (height + 1) * results.length := by
  have hfile : (lane.file ticket results).load height =
      lane.load height + 1 + credit (height + 1) * results.length := by
    simp only [load, file, List.length_cons, List.flatMap_cons, List.length_append, Nat.mul_add]
    omega
  have hrelease := load_releaseUpTo height (lane.file ticket results).finished.length
    (lane.file ticket results)
  rw [hfile] at hrelease
  exact hrelease

end Lane

/-- What the landing of a job will cost, and the credit of the hashes it brings. -/
def Job.load (job : Job) : Nat := 1 + credit (job.height + 1) * ((job.batch.length + 1) / 2)

namespace Combiner

/-- What lanes and jobs have spent, and the credit of the hashes they hold. -/
def load (c : Combiner) : Nat :=
  ∑ height ∈ Finset.range maxDepth, (c.laneAt height).load height + (c.jobs.map Job.load).sum

/-- A change keeps the shape, and the load grows by no more than a given credit. -/
structure Costs (extra : Nat) (c next : Combiner) : Prop where
  /-- The shape is kept. -/
  shaped : next.Shaped
  /-- The load is bounded. -/
  load : next.load ≤ c.load + extra

variable {c next : Combiner} {height batchSize extra : Nat}

/-- Doing nothing costs nothing. -/
theorem Costs.refl (shaped : c.Shaped) : Costs 0 c c := ⟨shaped, Nat.le_add_right _ _⟩

/-- Costs add up. -/
theorem Costs.trans {last : Combiner} {more : Nat} (first : Costs extra c next)
    (second : Costs more next last) : Costs (extra + more) c last where
  shaped := second.shaped
  load := by
    have hfirst := first.load
    have hsecond := second.load
    omega

/-- What a first change gives back pays for a second one. -/
theorem Costs.after {middle : Combiner} {spare : Nat} (costs : Costs spare middle next)
    (h : middle.load + spare ≤ c.load + extra) : Costs extra c next :=
  ⟨costs.shaped, costs.load.trans h⟩

/-- A lane is found only at a height of the tree. -/
theorem Shaped.lt_of_lane {lane : Lane} (shaped : c.Shaped) (found : c.lane height = .ok lane) :
    height < maxDepth := by
  rw [← shaped.lanes_size]
  by_contra past
  have hnone : c.lanes[height]? = none := Array.getElem?_eq_none (Nat.le_of_not_lt past)
  rw [Combiner.lane, hnone] at found
  cases found

/-- Replacing a lane replaces its load. -/
theorem Shaped.load_setLane (shaped : c.Shaped) (h : height < maxDepth) (lane : Lane) :
    (c.setLane height lane).load + (c.laneAt height).load height =
      c.load + lane.load height := by
  have hmem : height ∈ Finset.range maxDepth := Finset.mem_range.mpr h
  have hothers : ∑ other ∈ (Finset.range maxDepth).erase height,
        ((c.setLane height lane).laneAt other).load other =
      ∑ other ∈ (Finset.range maxDepth).erase height, (c.laneAt other).load other := by
    apply Finset.sum_congr rfl
    intro other hother
    rw [laneAt_setLane_of_ne (Finset.ne_of_mem_erase hother)]
  have hnew := Finset.add_sum_erase _
    (fun other => ((c.setLane height lane).laneAt other).load other) hmem
  have hold := Finset.add_sum_erase _ (fun other => (c.laneAt other).load other) hmem
  have hjobs : (c.setLane height lane).jobs = c.jobs := rfl
  simp only [shaped.laneAt_setLane h, hothers] at hnew
  simp only [load, hjobs]
  omega

/-- A job that is added brings its load. -/
theorem load_addJob (c : Combiner) (job : Job) : (c.addJob job).load = c.load + job.load := by
  have hlanes : ∀ height, (c.addJob job).laneAt height = c.laneAt height := fun _ => rfl
  have hjobs : (c.addJob job).jobs = c.jobs ++ [job] := rfl
  simp only [load, hlanes, hjobs, List.map_append, List.map_cons, List.map_nil, List.sum_append,
    List.sum_cons, List.sum_nil]
  omega

/-- A job that is removed takes its load away. -/
theorem load_withoutJob {position : Nat} {job : Job} (h : c.jobs[position]? = some job) :
    (c.withoutJob position).load + job.load = c.load := by
  obtain ⟨front, back, hjobs, hrest⟩ := jobs_split h
  have hlanes : ∀ height, (c.withoutJob position).laneAt height = c.laneAt height := fun _ => rfl
  simp only [load, hlanes, hjobs, hrest, List.map_append, List.map_cons, List.sum_append,
    List.sum_cons]
  omega

/-- A batch that is taken gives its credit back, and costs a ticket. -/
theorem Shaped.load_takePending (shaped : c.Shaped) (h : height < maxDepth) :
    (c.takePending height).load + credit height * (c.pendingJob height).batch.length =
      c.load + 1 := by
  have hset := shaped.load_setLane h (c.laneAt height).takeBatch.2
  have htake := Lane.load_takeBatch (c.laneAt height) height
  simp only [takePending, pendingJob]
  simp only [Lane.takeBatch] at hset htake ⊢
  omega

/-- A way to bring hashes to a height that costs no more than the credit of each. -/
def Pays (each : Nat) (raise : List Digest → Combiner → Except Crash Combiner) : Prop :=
  ∀ hashes c next, c.Shaped → raise hashes c = .ok next → Costs (each * hashes.length) c next

/-- Hashes brought one after the other cost no more than the credit of each. -/
theorem pays_foldlM {each : Nat} {push : Combiner → Digest → Except Crash Combiner}
    (pays : ∀ c hash next, c.Shaped → push c hash = .ok next → Costs each c next) :
    Pays each fun hashes c => hashes.foldlM push c := by
  intro hashes
  induction hashes with
  | nil =>
    intro c next shaped done
    obtain rfl := Except.ok.inj done
    exact .refl shaped
  | cons hash hashes ih =>
    intro c last shaped done
    simp only [List.foldlM_cons] at done
    obtain ⟨next, hpush, hrest⟩ := exists_of_bind_ok done
    have hfirst := pays c hash next shaped hpush
    rw [List.length_cons, Nat.mul_succ, Nat.add_comm]
    exact hfirst.trans (ih next last hfirst.shaped hrest)

section

variable {raise : List Digest → Combiner → Except Crash Combiner}

/-- Landing a result costs one and the credit of its hashes. -/
theorem landWith_costs (pays : Pays (credit (height + 1)) raise) (shaped : c.Shaped)
    {ticket : Nat} {results : List Digest}
    (done : landWith raise height ticket results c = .ok next) :
    Costs (1 + credit (height + 1) * results.length) c next := by
  obtain ⟨lane, hlane, hraise⟩ := exists_of_bind_ok done
  have h := shaped.lt_of_lane hlane
  rw [shaped.lane_eq h] at hlane
  obtain rfl := Except.ok.inj hlane
  have hload := Lane.load_land (c.laneAt height) height ticket results
  generalize (c.laneAt height).land ticket results = landed at hload hraise
  obtain ⟨released, lane⟩ := landed
  have hset := shaped.load_setLane h lane
  simp only at hload
  exact (pays released _ next (shaped.setLane lane) hraise).after (by omega)

/-- Combining everything pending on the spot costs nothing. -/
theorem landPending_costs (pays : Pays (credit (height + 1)) raise) (shaped : c.Shaped)
    (h : height < maxDepth) (waiting : ¬(c.laneAt height).pending.isEmpty = true)
    (done : landWith raise height (c.pendingJob height).ticket
      (pairUp (emptyRoot height) (c.pendingJob height).batch) (c.takePending height) = .ok next) :
    Costs 0 c next := by
  have htaken : (c.takePending height).Shaped := shaped.setLane _
  have hland := landWith_costs pays htaken done
  have htake := shaped.load_takePending h
  have hpays := batch_pays h (length_pendingJob_pos waiting)
  rw [length_pairUp] at hland
  exact hland.after (by omega)

/-- Taking everything pending at a height costs nothing. -/
theorem dispatchWith_costs (pays : Pays (credit (height + 1)) raise) (shaped : c.Shaped)
    (done : dispatchWith raise height c = .ok next) : Costs 0 c next := by
  have h : height < maxDepth := by
    obtain ⟨lane, hlane, -⟩ := exists_of_bind_ok done
    exact shaped.lt_of_lane hlane
  rw [shaped.dispatchWith_eq h] at done
  by_cases hempty : (c.laneAt height).pending.isEmpty = true
  · rw [if_pos hempty] at done
    obtain rfl := Except.ok.inj done
    exact .refl shaped
  rw [if_neg hempty] at done
  by_cases hsmall : (c.pendingJob height).batch.length < minToSchedule
  · rw [if_pos hsmall] at done
    exact landPending_costs pays shaped h hempty done
  · rw [if_neg hsmall] at done
    obtain rfl := Except.ok.inj done
    have htaken : (c.takePending height).Shaped := shaped.setLane _
    have htake := shaped.load_takePending h
    have hadd := load_addJob (c.takePending height) (c.pendingJob height)
    have hpays := batch_pays h (length_pendingJob_pos hempty)
    have hjob : (c.pendingJob height).load =
        1 + credit (height + 1) * (((c.pendingJob height).batch.length + 1) / 2) := rfl
    exact ⟨htaken.addJob h (Nat.le_of_not_lt hsmall), by omega⟩

end

/-- A hash that is put into a lane costs no more than its credit. The induction runs over the lanes
above. -/
theorem pushInto_costs {left : Nat} (hleft : left ≤ maxDepth) {hash : Digest} (shaped : c.Shaped)
    (done : pushInto batchSize left c hash = .ok next) :
    Costs (credit (maxDepth - left)) c next := by
  induction left generalizing c hash next with
  | zero => cases done
  | succ left ih =>
    have hlt : maxDepth - (left + 1) < maxDepth := by omega
    have habove : maxDepth - (left + 1) + 1 = maxDepth - left := by omega
    simp only [pushInto] at done
    rw [shaped.lane_eq hlt, ok_bind] at done
    generalize hheight : maxDepth - (left + 1) = height at *
    have hpush := Lane.load_push (c.laneAt height) height hash
    have hset := shaped.load_setLane hlt ((c.laneAt height).push hash)
    have hpushed : Costs (credit height) c (c.setLane height ((c.laneAt height).push hash)) :=
      ⟨shaped.setLane _, by omega⟩
    split at done
    · obtain rfl := Except.ok.inj done
      exact hpushed
    · have pays : Pays (credit (height + 1))
          fun hashes c => hashes.foldlM (pushInto batchSize left) c :=
        pays_foldlM fun c hash next shaped done => habove ▸ ih (by omega) shaped done
      exact hpushed.trans (dispatchWith_costs pays hpushed.shaped done)

/-- Putting a hash into the lane of a height costs no more than its credit there. -/
theorem push_costs {hash : Digest} (shaped : c.Shaped)
    (done : c.push batchSize height hash = .ok next) : Costs (credit height) c next := by
  have hcredit : credit (maxDepth - (maxDepth - height)) = credit height := by
    unfold credit
    omega
  rw [← hcredit]
  exact pushInto_costs (Nat.sub_le _ _) shaped done

/-- Raising hashes from a height costs no more than their credit above it. -/
theorem pays_raise (batchSize height : Nat) :
    Pays (credit (height + 1)) (Combiner.raise batchSize height) :=
  pays_foldlM fun _ _ _ shaped done => push_costs shaped done

/-- The landing of a job was paid for when its batch was taken. -/
theorem landJob_costs {position : Nat} {job : Job} (shaped : c.Shaped)
    (h : c.jobs[position]? = some job)
    (done : (c.withoutJob position).land batchSize job.height job.ticket
      (pairUp (emptyRoot job.height) job.batch) = .ok next) : Costs 0 c next := by
  have hload := load_withoutJob h
  have hjob : job.load = 1 + credit (job.height + 1) * ((job.batch.length + 1) / 2) := rfl
  have hland := landWith_costs (pays_raise batchSize job.height) (shaped.withoutJob position) done
  rw [length_pairUp] at hland
  exact hland.after (by omega)

/-- Flushing lanes costs nothing. The induction runs over the lanes left. -/
theorem flushUpTo_costs {left cursor stop : Nat} {root : Option Digest} (shaped : c.Shaped)
    (done : flushUpTo batchSize left cursor c = .ok (stop, root, next)) : Costs 0 c next := by
  induction left generalizing cursor c with
  | zero =>
    obtain ⟨lane, -, hroot⟩ := exists_of_bind_ok done
    cases hroot
    exact .refl shaped
  | succ left ih =>
    obtain ⟨middle, hdispatch, hrest⟩ := exists_of_bind_ok done
    have hfirst : Costs 0 c middle :=
      dispatchWith_costs (pays_raise batchSize cursor) shaped hdispatch
    obtain ⟨flying, -, hgo⟩ := exists_of_bind_ok hrest
    cases flying with
    | true =>
      cases hgo
      exact hfirst
    | false => exact hfirst.trans (ih hfirst.shaped hgo)

/-- Combining what is pending at a height costs nothing. -/
theorem combinePending_costs (shaped : c.Shaped) (h : height < maxDepth)
    (done : combinePending batchSize height c = .ok next) : Costs 0 c next := by
  rw [combinePending] at done
  split at done
  · obtain rfl := Except.ok.inj done
    exact .refl shaped
  · next waiting => exact landPending_costs (pays_raise batchSize height) shaped h waiting done

/-- A hash that is put back brings the credit it had taken along. -/
theorem putBack_costs {held entry : Option Digest} (shaped : c.Shaped)
    (done : putBack height held c = .ok (entry, next)) :
    Costs (credit height * held.toList.length) c next := by
  cases held with
  | none =>
    cases done
    exact .refl shaped
  | some hash =>
    obtain ⟨lane, hlane, hset⟩ := exists_of_bind_ok done
    have h := shaped.lt_of_lane hlane
    rw [shaped.lane_eq h] at hlane
    obtain rfl := Except.ok.inj hlane
    cases hset
    have hload := shaped.load_setLane h ((c.laneAt height).push hash)
    have hpush := Lane.load_push (c.laneAt height) height hash
    rw [Option.toList_some, List.length_singleton, Nat.mul_one]
    exact ⟨shaped.setLane _, by omega⟩

/-- Taking a height into a scan costs nothing. -/
theorem scanHeight_costs {entry : Option Digest} (shaped : c.Shaped)
    (done : scanHeight batchSize height c = .ok (entry, next)) : Costs 0 c next := by
  have h : height < maxDepth := by
    obtain ⟨lane, hlane, -⟩ := exists_of_bind_ok done
    exact shaped.lt_of_lane hlane
  rw [shaped.scanHeight_eq h] at done
  obtain ⟨middle, hcombine, hback⟩ := exists_of_bind_ok done
  have hset := shaped.load_setLane h (c.laneAt height).holdOdd.2
  have hhold := Lane.load_holdOdd (c.laneAt height) height
  have hfirst := combinePending_costs (shaped.setLane _) h hcombine
  exact (hfirst.trans (putBack_costs hfirst.shaped hback)).after (by omega)

/-- A scan costs nothing. The induction runs over the heights left. -/
theorem scanUpTo_costs {left : Nat} {waiting : List (Option Digest)} {stop : Scan}
    (shaped : c.Shaped) (done : scanUpTo batchSize left height waiting c = .ok (stop, next)) :
    Costs 0 c next := by
  induction left generalizing height waiting c with
  | zero =>
    cases done
    exact .refl shaped
  | succ left ih =>
    obtain ⟨flying, -, hgo⟩ := exists_of_bind_ok done
    cases flying with
    | true =>
      cases hgo
      exact .refl shaped
    | false =>
      obtain ⟨⟨entry, middle⟩, hscan, hrest⟩ := exists_of_bind_ok hgo
      have hfirst := scanHeight_costs shaped hscan
      exact hfirst.trans (ih hfirst.shaped hrest)

end Combiner

open Combiner

/-- What can crash has succeeded where nothing was refused either. -/
theorem ok_of_orCrash {ε α : Type} {x : Except Crash α} {a : α}
    (h : (orCrash x : Except (Fault ε) α) = .ok a) : x = .ok a := by
  cases x with
  | ok b =>
    cases h
    rfl
  | error crash => cases h

/-- The leaves have paid for everything that happened. -/
structure CombiningTree.Paid (tree : CombiningTree) : Prop where
  /-- There are the lanes of the tree. -/
  shaped : tree.combiner.Shaped
  /-- The load is within the credit of the leaves. -/
  load : tree.combiner.load ≤ credit 0 * tree.leafCount

variable {tree next : CombiningTree} {run : TreeRun}

/-- A change of the lanes and jobs that costs nothing was paid for. -/
theorem CombiningTree.Paid.step (paid : tree.Paid)
    (costs : Costs 0 tree.combiner next.combiner) (leaves : next.leafCount = tree.leafCount) :
    next.Paid where
  shaped := costs.shaped
  load := by
    have hload := paid.load
    have hcosts := costs.load
    rw [leaves]
    omega

/-- Appending a leaf is paid for by its credit. -/
theorem CombiningTree.Paid.add {leaf : Bytes} (paid : tree.Paid)
    (done : tree.add leaf = .ok next) : next.Paid := by
  obtain ⟨hash, -, hpush⟩ := exists_of_bind_ok done
  obtain ⟨combiner, hcombiner, hnext⟩ := exists_of_bind_ok (ok_of_orCrash hpush)
  obtain rfl := Except.ok.inj hnext
  have hcosts := push_costs paid.shaped hcombiner
  have hload := paid.load
  refine ⟨hcosts.shaped, hcosts.load.trans ?_⟩
  simp only [Nat.mul_succ]
  omega

/-- Moving the flush on was paid for. -/
theorem CombiningTree.Paid.advance (paid : tree.Paid) (done : tree.advance = .ok next) :
    next.Paid := by
  rw [CombiningTree.advance] at done
  split at done
  · obtain ⟨⟨stop, root, combiner⟩, hflush, hnext⟩ := exists_of_bind_ok done
    obtain rfl := Except.ok.inj hnext
    exact paid.step (flushUpTo_costs paid.shaped hflush) rfl
  · obtain rfl := Except.ok.inj done
    exact paid

/-- A request for the root was paid for. -/
theorem CombiningTree.Paid.requestRoot (paid : tree.Paid) (done : tree.requestRoot = .ok next) :
    next.Paid := by
  rw [CombiningTree.requestRoot] at done
  split at done
  · cases done
  obtain ⟨height, -, hadvance⟩ := exists_of_bind_ok done
  have hclosed : CombiningTree.Paid
      { tree with closed := true, flush := some ⟨height, 0, true⟩ } := ⟨paid.shaped, paid.load⟩
  exact hclosed.advance (ok_of_orCrash hadvance)

/-- The landing of a job was paid for. -/
theorem CombiningTree.Paid.landJob {position : Nat} (paid : tree.Paid)
    (done : tree.landJob position = .ok next) : next.Paid := by
  cases hjob : tree.combiner.jobs[position]? with
  | none =>
    rw [CombiningTree.landJob, hjob] at done
    obtain rfl := Except.ok.inj done
    exact paid
  | some job =>
    rw [landJob_eq paid.shaped hjob] at done
    obtain ⟨combiner, hland, hadvance⟩ := exists_of_bind_ok done
    have hlanded : CombiningTree.Paid { tree with combiner } :=
      paid.step (landJob_costs paid.shaped hjob hland) rfl
    exact hlanded.advance hadvance

/-- Going on with a scan was paid for. -/
theorem CombiningTree.Paid.look (paid : run.tree.Paid) (scan : Scan) :
    (run.look scan).2.tree.Paid := by
  simp only [TreeRun.look]
  split
  · exact paid
  · next stop tree hscan =>
    obtain ⟨⟨stop, combiner⟩, hup, hnext⟩ := exists_of_bind_ok hscan
    cases hnext
    have hnext : CombiningTree.Paid { run.tree with combiner } :=
      paid.step (scanUpTo_costs paid.shaped hup) rfl
    split
    · exact hnext
    · exact hnext

/-- A change of the tree that can fail was paid for if it was where it succeeds. -/
theorem CombiningTree.Paid.change (paid : run.tree.Paid) {answer : Except TreeFault CombiningTree}
    (h : ∀ next, answer = .ok next → next.Paid) : (run.change answer).2.tree.Paid := by
  cases answer with
  | ok next => exact h next rfl
  | error fault => exact paid

/-- Every move was paid for. -/
theorem CombiningTree.Paid.move (paid : run.tree.Paid) (m : Move) :
    (run.move m).2.tree.Paid := by
  cases m with
  | land position =>
    simp only [TreeRun.move]
    split
    · next hland => exact paid.landJob hland
    · exact paid
  | resume =>
    simp only [TreeRun.move]
    split
    · exact paid
    · exact paid.look _
  | call op =>
    simp only [TreeRun.move]
    split
    · exact paid
    · cases op with
      | add leaf => exact paid.change fun next done => paid.add done
      | count => exact paid
      | root => exact paid.change fun next done => paid.requestRoot done
      | frontier =>
        simp only
        split
        · exact paid
        · exact paid.look _

/-- Every run was paid for. -/
theorem CombiningTree.Paid.play (paid : run.tree.Paid) (moves : List Move) :
    (run.play moves).2.tree.Paid := by
  induction moves generalizing run with
  | nil => exact paid
  | cons m moves ih => exact ih (paid.move m)

/-- Nothing was spent in a new tree. -/
theorem paid_new {batchSize : Nat} (positive : 0 < batchSize) (evenSize : batchSize % 2 = 0) :
    CombiningTree.Paid { batchSize } where
  shaped := (growing_new positive evenSize).shaped
  load := by
    have hlanes : ∀ height, (({} : Combiner).laneAt height).load height = 0 := by
      intro height
      rw [laneAt_empty]
      rfl
    have hload : ({} : Combiner).load = 0 := by
      simp only [Combiner.load, hlanes, Finset.sum_const_zero, List.map_nil, List.sum_nil,
        Nat.add_zero]
    rw [hload]
    exact Nat.zero_le _

/-- The tickets of a lane are bounded by the credit of the leaves. -/
theorem CombiningTree.Paid.tickets (paid : tree.Paid) {height : Nat} (h : height < maxDepth) :
    (tree.combiner.laneAt height).nextTicket + (tree.combiner.laneAt height).nextToForward ≤
      credit 0 * tree.leafCount := by
  have hlane : (tree.combiner.laneAt height).load height ≤
      ∑ height ∈ Finset.range maxDepth, (tree.combiner.laneAt height).load height :=
    Finset.single_le_sum (f := fun height => (tree.combiner.laneAt height).load height)
      (fun _ _ => Nat.zero_le _) (Finset.mem_range.mpr h)
  have hload := paid.load
  rw [Lane.load] at hlane
  rw [Combiner.load] at hload
  omega

end BlockIntake.Merkle
