import BlockIntake.Proofs.Merkle.Growing

/-!
# Taking the frontier

A scan goes up from the leaves. At each height it waits until nothing is in flight, combines all
complete pairs at once and notes the odd hash that stays behind. The lanes it has left rest: no job
of theirs is out, so jobs that land later touch only what is still ahead. When the scan is done it
has noted the frontier of the leaves, and the tree is open as before.
-/

namespace BlockIntake.Merkle

namespace Combiner

variable {c : Combiner} {height batchSize : Nat} {taken : List (List Digest)}
  {input leaves : List Digest}

/-- Holding back an odd last hash leaves an even number of hashes pending. -/
theorem holdOdd_spec (lane : Lane) :
    lane.holdOdd.2.pending.toList ++ lane.holdOdd.1.toList = lane.pending.toList ∧
    lane.holdOdd.2.pending.size % 2 = 0 ∧
    lane.holdOdd.2 = { lane with pending := lane.holdOdd.2.pending } := by
  unfold Lane.holdOdd
  split
  · next hodd =>
    have hne : lane.pending.toList ≠ [] := by
      intro hnil
      have hzero : lane.pending.size = 0 := by rw [← Array.length_toList, hnil]; rfl
      omega
    refine ⟨?_, by simp only [Array.size_pop]; omega, rfl⟩
    simp only [Array.toList_pop, ← Array.getLast?_toList, List.getLast?_eq_some_getLast hne,
      Option.toList_some]
    exact List.dropLast_append_getLast hne
  · next heven =>
    refine ⟨by simp, ?_, rfl⟩
    simp only
    omega

/-- Combine everything pending at a height on the spot. -/
def combinePending (batchSize height : Nat) (c : Combiner) : Except Crash Combiner :=
  if (c.laneAt height).pending.isEmpty then .ok c
  else (c.takePending height).land batchSize height (c.pendingJob height).ticket
    (pairUp (emptyRoot height) (c.pendingJob height).batch)

/-- Put a hash that was held back down again. -/
def putBack (height : Nat) (held : Option Digest) (c : Combiner) :
    Except Crash (Option Digest × Combiner) :=
  match held with
  | none => .ok (none, c)
  | some hash => c.lane height >>= fun lane => .ok (some hash, c.setLane height (lane.push hash))

/-- Taking a height into a scan holds an odd hash back, combines the others and puts it back. -/
theorem Shaped.scanHeight_eq (shaped : c.Shaped) (h : height < maxDepth) :
    CombiningTree.scanHeight batchSize height c =
      (combinePending batchSize height (c.setLane height (c.laneAt height).holdOdd.2) >>=
        putBack height (c.laneAt height).holdOdd.1) := by
  have hlane := shaped.laneAt_setLane h (c.laneAt height).holdOdd.2
  unfold CombiningTree.scanHeight combinePending putBack
  rw [shaped.lane_eq h, ok_bind, takePending, pendingJob, hlane]
  simp only [combinePairs_of_lt h, ok_bind]
  split <;> rfl

/-- Where nothing is in flight, an even number of pending hashes can be combined on the spot. -/
theorem combinePending_ok (positive : 0 < batchSize) (evenSize : batchSize % 2 = 0)
    (h : height < maxDepth) (shaped : c.Shaped) (keeps : c.Keeps height [] taken)
    (even : ∀ batch ∈ taken, batch.length % 2 = 0 ∧ batch ≠ [])
    (evenPending : (c.laneAt height).pending.size % 2 = 0)
    (still : c.jobsAt height = [])
    (above : Feeds batchSize c (height + 1) (c.raisedAt height taken))
    (fits : (taken.flatten ++ (c.laneAt height).pending.toList).length ≤ room height) :
    ∃ next, combinePending batchSize height c = .ok next ∧
      next.Keeps height [] (c.takenAll height taken) ∧ (next.laneAt height).pending = #[] ∧
      next.jobsAt height = [] ∧
      Feeds batchSize next (height + 1) (next.raisedAt height (c.takenAll height taken)) ∧
      Grows height 0 c next := by
  have hall := even_takenAll even evenPending
  rw [← flatten_takenAll] at fits
  have hroom := length_flatMap_pairUp_le (emptyRoot height) hall fits
  unfold combinePending
  unfold takenAll at hroom ⊢
  by_cases hempty : (c.laneAt height).pending.isEmpty = true
  · rw [if_pos hempty, if_pos hempty]
    exact ⟨c, rfl, keeps, Array.isEmpty_iff.mp hempty, still, above, Grows.refl height shaped⟩
  · rw [if_neg hempty] at hroom
    rw [if_neg hempty, if_neg hempty]
    obtain ⟨next, heq, hkeeps, hpending, hjobs, hnext, hgrows⟩ :=
      keeps.landPending (raisesTo_raise positive evenSize h) h shaped hempty above hroom
    exact ⟨next, heq, hkeeps, hpending, hjobs.trans still, hnext, hgrows⟩

/-- Without jobs nothing is in flight. -/
theorem Keeps.still (keeps : c.Keeps height [] taken) (idle : c.jobsAt height = []) :
    (c.laneAt height).inFlight = false := by
  cases hflying : (c.laneAt height).inFlight with
  | false => rfl
  | true =>
    have hout := keeps.tracks.forward_mem_out keeps.settled hflying
    rw [ticketsOut, idle] at hout
    exact absurd hout List.not_mem_nil

/-- Where everything was taken, a hash that was held back can be put down again, and the lane
rests. -/
theorem putBack_ok (wide : 1 < batchSize) (h : height < maxDepth) (shaped : c.Shaped)
    (keeps : c.Keeps height [] taken)
    (even : ∀ batch ∈ taken, batch.length % 2 = 0 ∧ batch ≠ [])
    (empty : (c.laneAt height).pending = #[]) (idle : c.jobsAt height = [])
    (above : Feeds batchSize c (height + 1) (c.raisedAt height taken)) (held : Option Digest) :
    ∃ next, putBack height held c = .ok (held, next) ∧
      Feeds batchSize next height (taken.flatten ++ held.toList) ∧ next.Rests height ∧
      Grows height held.toList.length c next := by
  have still := keeps.still idle
  cases held with
  | none =>
    have hfeeds := Feeds.lane keeps even (by rw [empty]; exact Nat.lt_of_succ_lt wide) above
    rw [empty] at hfeeds
    exact ⟨c, rfl, hfeeds, ⟨still, by simp [empty]⟩, Grows.refl height shaped⟩
  | some hash =>
    have hlane := shaped.laneAt_setLane h ((c.laneAt height).push hash)
    have hpending : ((c.setLane height ((c.laneAt height).push hash)).laneAt height).pending =
        #[hash] := by rw [hlane, Lane.push, empty]; rfl
    have habove : Feeds batchSize (c.setLane height ((c.laneAt height).push hash)) (height + 1)
        ((c.setLane height ((c.laneAt height).push hash)).raisedAt height taken) := by
      rw [raisedAt, hlane]
      exact above.setLane _
    have hkeeps : (c.setLane height ((c.laneAt height).push hash)).Keeps height [] taken :=
      keeps.setPending h shaped _
    have hfeeds := Feeds.lane hkeeps even (by rw [hpending]; exact wide) habove
    rw [hpending] at hfeeds
    refine ⟨c.setLane height ((c.laneAt height).push hash), ?_, hfeeds, ⟨?_, ?_⟩, ?_⟩
    · rw [putBack, shaped.lane_eq h, ok_bind]
    · rw [hlane]
      exact still
    · rw [hpending]
      exact Nat.le_refl _
    · exact Grows.setLane shaped h (Lane.length_held_push (c.laneAt height) hash).le

/-- Taking a height into a scan yields the hash that stays behind there, and the lane rests. -/
theorem Feeds.scanHeight (positive : 0 < batchSize) (evenSize : batchSize % 2 = 0)
    (h : height < maxDepth) (shaped : c.Shaped) (feeds : Feeds batchSize c height input)
    (fits : input.length ≤ room height) (still : (c.laneAt height).inFlight = false) :
    ∃ next, CombiningTree.scanHeight batchSize height c =
        .ok ((LeafTree.splitOdd input).1, next) ∧
      Feeds batchSize next height input ∧ next.Rests height ∧ Grows height 0 c next := by
  obtain ⟨taken, keeps, even, short, above, rfl⟩ := feeds.inv h
  obtain ⟨hsplit, hevenPending, hpending⟩ := holdOdd_spec (c.laneAt height)
  rw [shaped.scanHeight_eq h]
  generalize (c.laneAt height).holdOdd = parts at *
  obtain ⟨held, lane⟩ := parts
  simp only at hsplit hevenPending hpending ⊢
  have hlane := shaped.laneAt_setLane h lane
  have hlight : lane.held.length + held.toList.length = (c.laneAt height).held.length := by
    rw [hpending, Lane.held, Lane.held, ← hsplit]
    simp only [List.length_append]
    omega
  have hset := heldCount_setLane (shaped.lanes_size ▸ h) lane
  have hkeeps : (c.setLane height lane).Keeps height [] taken := by
    rw [hpending]
    exact keeps.setPending h shaped lane.pending
  have habove : Feeds batchSize (c.setLane height lane) (height + 1)
      ((c.setLane height lane).raisedAt height taken) := by
    have hraised : (c.setLane height lane).raisedAt height taken = c.raisedAt height taken := by
      rw [raisedAt, hlane, hpending]
      rfl
    rw [hraised]
    exact above.setLane lane
  have hroom : (taken.flatten ++
      ((c.setLane height lane).laneAt height).pending.toList).length ≤ room height := by
    rw [hlane]
    rw [← hsplit] at fits
    simp only [List.length_append] at fits ⊢
    omega
  rw [← hlane] at hevenPending
  obtain ⟨middle, hcombine, hmiddle, hempty, hidle, hnext, hgrows⟩ :=
    combinePending_ok positive evenSize h (shaped.setLane lane) hkeeps even hevenPending
      (keeps.jobsAt_eq_nil still) habove hroom
  obtain ⟨next, hput, hfeeds, hrests, hmore⟩ := putBack_ok (by omega) h hgrows.shaped hmiddle
    (even_takenAll even hevenPending) hempty hidle hnext held
  have hheld := (hgrows.trans hmore).held
  rw [flatten_takenAll, hlane, List.append_assoc, hsplit] at hfeeds
  refine ⟨next, ?_, hfeeds, hrests, ?_, ?_, hmore.shaped, by omega⟩
  · rw [hcombine, ok_bind, ← hsplit, ← List.append_assoc, splitOdd_append]
    · exact hput
    · have heven := length_flatten_mod_two even
      have hlength : lane.pending.toList.length = lane.pending.size := Array.length_toList
      rw [hlane] at hevenPending
      rw [List.length_append, hlength]
      omega
  · intro below hlt
    rw [hmore.lanes below hlt, hgrows.lanes below hlt, laneAt_setLane_of_ne (Nat.ne_of_lt hlt)]
  · intro below hlt
    rw [hmore.jobs below hlt, hgrows.jobs below hlt, jobsAt_setLane]

/-- Above lanes that rest, the complete pairs of every height have come to the next. -/
theorem Feeds.scanned (feeds : Feeds batchSize c 0 leaves) (fits : leaves.length ≤ room 0)
    (hmax : height ≤ maxDepth) (rests : ∀ below < height, c.Rests below) :
    Feeds batchSize c height (wholeLevel leaves height) ∧
      (wholeLevel leaves height).length ≤ room height ∧
      (∀ below < height, c.jobsAt below = []) ∧
      ∀ next extra, Grows height extra c next →
        Feeds batchSize next height (wholeLevel leaves height) → Feeds batchSize next 0 leaves := by
  induction height with
  | zero => exact ⟨feeds, fits, fun below h => absurd h (Nat.not_lt_zero _), fun _ _ _ h => h⟩
  | succ height ih =>
    obtain ⟨hfeeds, hroom, hidle, hback⟩ := ih (by omega) fun below h => rests below (by omega)
    obtain ⟨inner, hinner, hfits, hrested, hdown⟩ := hfeeds.step (by omega) hroom
    obtain ⟨hnone, hpairs⟩ := hrested (rests height (Nat.lt_succ_self _))
    rw [← wholeLevel] at hpairs
    rw [hpairs] at hinner hfits hdown
    refine ⟨hinner, hfits, ?_, ?_⟩
    · intro below h
      rcases Nat.lt_succ_iff_lt_or_eq.mp h with hlt | rfl
      · exact hidle below hlt
      · exact hnone
    · intro next extra hgrows hnext
      exact hback next extra (hgrows.weaken (Nat.le_succ _) hgrows.held)
        (hdown next extra hgrows hnext)

/-- Lanes below a height below which nothing changed still rest. -/
theorem Grows.rests {next : Combiner} {extra : Nat} (grows : Grows height extra c next)
    (rests : ∀ below < height, c.Rests below) : ∀ below < height, next.Rests below := by
  intro below h
  rw [Rests, grows.lanes below h]
  exact rests below h

/-- The entries of one height more. -/
theorem leftBehind_succ (leaves : List Digest) (count : Nat) :
    leftBehind leaves (count + 1) =
      leftBehind leaves count ++ [(LeafTree.splitOdd (wholeLevel leaves count)).1] := by
  simp [leftBehind, List.range_succ]

/-- A scan goes on up to a height in flight and has noted what stays behind on its way. The
induction runs over the heights left. -/
theorem scanUpTo_ok (positive : 0 < batchSize) (evenSize : batchSize % 2 = 0)
    (fits : leaves.length ≤ room 0) (left height : Nat) (hleft : height + left ≤ maxDepth)
    (c : Combiner) (shaped : c.Shaped) (feeds : Feeds batchSize c 0 leaves)
    (rests : ∀ below < height, c.Rests below) :
    ∃ stop rest next, CombiningTree.scanUpTo batchSize left height (leftBehind leaves height) c =
        .ok (⟨stop, rest, leftBehind leaves stop⟩, next) ∧
      stop + rest = height + left ∧ next.Shaped ∧ Feeds batchSize next 0 leaves ∧
      (∀ below < stop, next.Rests below) ∧
      (rest = 0 ∨ (next.laneAt stop).inFlight = true) ∧ next.heldCount ≤ c.heldCount := by
  induction left generalizing height c with
  | zero =>
    exact ⟨height, 0, c, rfl, rfl, shaped, feeds, rests, Or.inl rfl, Nat.le_refl _⟩
  | succ left ih =>
    have hlt : height < maxDepth := by omega
    rw [CombiningTree.scanUpTo, inFlight, shaped.lane_eq hlt, ok_bind, pure_eq_ok, ok_bind]
    cases hflying : (c.laneAt height).inFlight with
    | true =>
      exact ⟨height, left + 1, c, rfl, rfl, shaped, feeds, rests, Or.inr hflying, Nat.le_refl _⟩
    | false =>
      obtain ⟨hfeeds, hroom, -, hback⟩ := feeds.scanned fits hlt.le rests
      obtain ⟨middle, hscan, hmiddle, hrests, hgrows⟩ :=
        hfeeds.scanHeight positive evenSize hlt shaped hroom hflying
      have hnext : ∀ below < height + 1, middle.Rests below := fun below hbelow => by
        rcases Nat.lt_succ_iff_lt_or_eq.mp hbelow with hlow | rfl
        · exact hgrows.rests rests below hlow
        · exact hrests
      obtain ⟨stop, rest, next, heq, hsum, hshaped, hall, hquiet, hstop, hheld⟩ :=
        ih (height + 1) (by omega) middle hgrows.shaped (hback middle 0 hgrows hmiddle) hnext
      have hless := hgrows.held
      refine ⟨stop, rest, next, ?_, by omega, hshaped, hall, hquiet, hstop, by omega⟩
      rw [leftBehind_succ] at heq
      simp only [Bool.false_eq_true, if_false, hscan, ok_bind, heq]

end Combiner

namespace CombiningTree

open Combiner

variable {tree : CombiningTree} {leaves : List Digest} {position : Nat} {job : Job} {scan : Scan}

/-- An open tree whose frontier is being taken: the lanes the scan has left rest, and what stays
behind in them is noted. -/
structure Scanning (tree : CombiningTree) (leaves : List Digest) (scan : Scan) : Prop
    extends tree.Growing leaves where
  /-- The heights done and those left. -/
  heights : scan.height + scan.left = ceilLog2 (leaves.length + 1)
  /-- The heights done rest. -/
  rests : ∀ below < scan.height, tree.combiner.Rests below
  /-- The entries noted so far. -/
  waiting : scan.waiting = leftBehind leaves scan.height

/-- One more leaf fits into a tree of the greatest depth. -/
theorem ceilLog2_succ_le_maxDepth {count : Nat} (few : count ≤ maxLeaves) :
    ceilLog2 (count + 1) ≤ maxDepth :=
  ceilLog2_le_of_le_powerOfTwo ((Nat.succ_le_succ few).trans (by decide))

/-- A scan of an open tree begins at its leaves. -/
theorem Growing.beginScan (growing : tree.Growing leaves) :
    tree.beginScan = .ok ⟨0, ceilLog2 (leaves.length + 1), []⟩ ∧
      tree.Scanning leaves ⟨0, ceilLog2 (leaves.length + 1), []⟩ := by
  refine ⟨?_, growing, Nat.zero_add _, fun below h => absurd h (Nat.not_lt_zero _), rfl⟩
  rw [CombiningTree.beginScan, growing.closed, growing.leafCount]
  cases leaves with
  | nil => rfl
  | cons leaf rest =>
    have few := growing.few
    rw [rootHeight_eq (Nat.succ_le_succ few)]
    rfl

/-- A scan goes on to where it ends or waits for a lane in flight. -/
theorem Scanning.continueScan (scanning : tree.Scanning leaves scan) :
    ∃ stop next, tree.continueScan scan = .ok (stop, next) ∧ next.Scanning leaves stop ∧
      (stop.left = 0 ∨ (next.combiner.laneAt stop.height).inFlight = true) ∧
      next.combiner.heldCount ≤ tree.combiner.heldCount := by
  obtain ⟨growing, heights, rests, waiting⟩ := scanning
  have hdepth := ceilLog2_succ_le_maxDepth growing.few
  obtain ⟨stop, rest, combiner, heq, hsum, hshaped, hfeeds, hrests, hstop, hheld⟩ :=
    scanUpTo_ok growing.positive growing.evenSize growing.fits scan.left scan.height (by omega)
      tree.combiner growing.shaped growing.feeds rests
  refine ⟨⟨stop, rest, leftBehind leaves stop⟩, { tree with combiner }, ?_, ?_, hstop, hheld⟩
  · rw [CombiningTree.continueScan, waiting, heq]
    rfl
  · exact ⟨{ growing with shaped := hshaped, feeds := hfeeds }, hsum.trans heights, hrests, rfl⟩

/-- A job that lands while a frontier is taken has not been passed by the scan. -/
theorem Scanning.landJob (scanning : tree.Scanning leaves scan)
    (h : tree.combiner.jobs[position]? = some job) :
    ∃ next, tree.landJob position = .ok next ∧ next.Scanning leaves scan ∧
      next.combiner.heldCount < tree.combiner.heldCount := by
  obtain ⟨growing, heights, rests, waiting⟩ := scanning
  have hdepth := ceilLog2_succ_le_maxDepth growing.few
  obtain ⟨-, -, hidle, -⟩ :=
    growing.feeds.scanned growing.fits (show scan.height ≤ maxDepth by omega) rests
  obtain ⟨next, heq, hgrowing, hgrows, hless⟩ := growing.landJob h
  have hheight : scan.height ≤ job.height := by
    by_contra hlt
    have hat := mem_jobsAt (List.mem_of_getElem? h)
    rw [hidle job.height (by omega)] at hat
    exact absurd hat List.not_mem_nil
  exact ⟨next, heq, ⟨hgrowing, heights,
    (hgrows.weaken hheight hgrows.held).rests rests, waiting⟩, hless⟩

/-- A finished scan has taken the frontier of the leaves. -/
theorem Scanning.frontier_eq (scanning : tree.Scanning leaves scan) (done : scan.left = 0) :
    LeafTree.frontierOf leaves = .ok (tree.frontierOfScan scan) := by
  have hheights := scanning.heights
  rw [done, Nat.add_zero] at hheights
  rw [frontierOf_eq scanning.few, frontierOfScan, scanning.waiting, hheights, scanning.leafCount]

end CombiningTree

end BlockIntake.Merkle
