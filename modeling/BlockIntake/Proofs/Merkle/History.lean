import BlockIntake.Proofs.Merkle.Chronicle
import BlockIntake.Proofs.Merkle.NextRoot

/-!
# The history of a tree

The journals of the moves of a run make up the history of its tree. Until the root is requested, all
heights are in order after every move: a leaf is pushed at the lowest one, a job lands where its
batch was taken, and a scan takes one height after the other, in each of which it combines whole
pairs and leaves an odd hash where it was. So nothing but the leaves is ever pushed from outside.
-/

namespace BlockIntake.Merkle

namespace Combiner

variable {batchSize height position ticket : Nat} {held results leaves : List Digest}
  {journal more : Journal} {c next : Combiner} {job : Job}

/-- The heights of a tree are in order, and the journal tells how they came to be so. -/
structure Documented (batchSize : Nat) (leaves : List Digest) (journal : Journal) (c : Combiner) :
    Prop where
  /-- The shape of the tree. -/
  shaped : c.Shaped
  /-- All heights are in order. -/
  everywhere : Everywhere (Storey.Chronicle batchSize) journal c
  /-- Nothing but the leaves was pushed at the lowest height. -/
  leaves : LaneEvent.pushed (journal.events 0) = leaves

/-- Pushing a leaf keeps the heights in order. -/
theorem Documented.push (positive : 0 < batchSize) (evenSize : batchSize % 2 = 0)
    (documented : Documented batchSize leaves journal c) {hash : Digest}
    (done : c.push batchSize 0 hash = .ok next) :
    Documented batchSize (leaves ++ [hash]) (journal ++ pushJournal batchSize 0 false c hash)
      next := by
  have hrecords := records_push (Nat.zero_le _) false documented.shaped done
  refine ⟨hrecords.shaped, hrecords.everywhere
    (Storey.lasts_chronicle positive evenSize fun h => absurd rfl h)
    (fun _ _ => Storey.lasts_chronicle positive evenSize fun _ => rfl) documented.everywhere, ?_⟩
  rw [Journal.events_append, LaneEvent.pushed_append, hrecords.pushed, documented.leaves]

/-- Landing a result keeps the other heights in order. -/
theorem Lands.others (lands : Lands batchSize height ticket results more c next)
    (positive : 0 < batchSize) (evenSize : batchSize % 2 = 0)
    (others : Elsewhere height (Storey.Chronicle batchSize) journal c) :
    Elsewhere height (Storey.Chronicle batchSize) (journal ++ more) next :=
  lands.elsewhere (fun _ _ => Storey.lasts_chronicle positive evenSize fun _ => rfl) others

/-- Landing a result pushes nothing at the lowest height. -/
theorem Lands.pushed_lowest (lands : Lands batchSize height ticket results more c next)
    (journal : Journal) :
    LaneEvent.pushed (Journal.events (journal ++ more) 0) =
      LaneEvent.pushed (journal.events 0) := by
  have hnone : LaneEvent.pushed (more.events 0) = [] := by
    rcases Nat.eq_zero_or_pos height with rfl | habove
    · rw [lands.landed]
      rfl
    · rw [(lands.below 0 habove).2]
      rfl
  rw [Journal.events_append, LaneEvent.pushed_append, hnone, List.append_nil]

/-- Taking a batch pushes nothing at the lowest height. -/
theorem pushed_lowest_takeEntry (journal : Journal) (c : Combiner) (height : Nat) :
    LaneEvent.pushed (Journal.events (journal ++ [c.takeEntry height]) 0) =
      LaneEvent.pushed (journal.events 0) := by
  rcases Nat.eq_zero_or_pos height with rfl | habove
  · rw [(events_take journal c 0).1, LaneEvent.pushed_take]
  · rw [Journal.events_append, takeEntry, Journal.events_cons_of_ne habove.ne']
    exact congrArg LaneEvent.pushed (List.append_nil _)

/-- Landing a job keeps the heights in order. -/
theorem Documented.landJob (positive : 0 < batchSize) (evenSize : batchSize % 2 = 0)
    (documented : Documented batchSize leaves journal c) (h : c.jobs[position]? = some job)
    (done : (c.withoutJob position).land batchSize job.height job.ticket
      (pairUp (emptyRoot job.height) job.batch) = .ok next) :
    Documented batchSize leaves (journal ++ landJournal batchSize job.height job.ticket
      (pairUp (emptyRoot job.height) job.batch) (c.withoutJob position)) next := by
  have hheight := documented.shaped.job_height job (List.mem_of_getElem? h)
  have hlands := lands_land hheight (documented.shaped.withoutJob position) done
  have hchronicle := documented.everywhere job.height
  obtain ⟨hloose, hbatch⟩ := hchronicle.toAccount.unpool (jobsAt_perm_withoutJob h)
  have hlanded := hloose.land hbatch
  obtain ⟨hevents, hsent⟩ := hlands.events_here journal
  obtain ⟨-, hpending, -⟩ := (c.laneAt job.height).settled_land job.ticket
    (pairUp (emptyRoot job.height) job.batch)
  have hothers : Elsewhere job.height (Storey.Chronicle batchSize) journal
      (c.withoutJob position) := by
    refine (documented.everywhere.elsewhere job.height).congr fun place hplace => ?_
    exact congrArg (Storey.mk (c.laneAt place)) (jobsAt_withoutJob_of_ne h (Ne.symm hplace))
  refine ⟨hlands.shaped, (hlands.others positive evenSize hothers).everywhere ?_,
    (hlands.pushed_lowest journal).trans documented.leaves⟩
  rw [hevents, hsent, hlands.here]
  refine ⟨hlanded, ?_⟩
  have hshort := hchronicle.short
  rw [Storey.land]
  exact lt_of_eq_of_lt (congrArg Array.size hpending) hshort

/-- The journal of combining everything pending at a height on the spot. -/
def combineJournal (batchSize height : Nat) (c : Combiner) : Journal :=
  if (c.laneAt height).pending.isEmpty then []
  else
    c.takeEntry height :: landJournal batchSize height (c.pendingJob height).ticket
      (pairUp (emptyRoot height) (c.pendingJob height).batch) (c.takePending height)

/-- The journal of taking a height into a scan. An odd hash that is held back and put down again was
pushed before. -/
def scanHeightJournal (batchSize height : Nat) (c : Combiner) : Journal :=
  combineJournal batchSize height (c.setLane height (c.laneAt height).holdOdd.2)

/-- The journal of continuing a scan through `left` heights. -/
def scanJournal (batchSize : Nat) : (left height : Nat) → Combiner → Journal
  | 0, _, _ => []
  | left + 1, height, c =>
    if (c.laneAt height).inFlight then []
    else
      scanHeightJournal batchSize height c ++
        match CombiningTree.scanHeight batchSize height c with
        | .ok (_, next) => scanJournal batchSize left (height + 1) next
        | .error _ => []

/-- A height is being taken into a scan, which holds some hashes back. The others are in order. -/
structure Opened (batchSize : Nat) (leaves : List Digest) (height : Nat) (held : List Digest)
    (journal : Journal) (c : Combiner) : Prop where
  /-- The shape of the tree. -/
  shaped : c.Shaped
  /-- The other heights are in order. -/
  others : Elsewhere height (Storey.Chronicle batchSize) journal c
  /-- The height is accounted for. -/
  account : Storey.Account height [] held (c.storey height) (journal.events height)
    (LaneEvent.raised (journal.events (height + 1)))
  /-- Nothing but the leaves was pushed at the lowest height. -/
  leaves : LaneEvent.pushed (journal.events 0) = leaves

/-- A height may be taken into a scan, with an odd hash held back. -/
theorem Documented.opened (documented : Documented batchSize leaves journal c)
    (h : height < maxDepth) :
    Opened batchSize leaves height (c.laneAt height).holdOdd.1.toList journal
      (c.setLane height (c.laneAt height).holdOdd.2) := by
  refine ⟨documented.shaped.setLane _, ?_, ?_, documented.leaves⟩
  · exact (documented.everywhere.elsewhere height).congr fun place hplace =>
      storey_setLane_of_ne hplace _
  · rw [documented.shaped.storey_setLane h]
    exact (documented.everywhere height).toAccount.hold

/-- Combining everything pending at a height leaves nothing there. -/
theorem Opened.combine (positive : 0 < batchSize) (evenSize : batchSize % 2 = 0)
    (opened : Opened batchSize leaves height held journal c) (h : height < maxDepth)
    (even : (c.laneAt height).pending.size % 2 = 0)
    (done : combinePending batchSize height c = .ok next) :
    Opened batchSize leaves height held (journal ++ combineJournal batchSize height c) next ∧
      (next.laneAt height).pending = #[] := by
  obtain ⟨shaped, others, account, hleaves⟩ := opened
  unfold combinePending at done
  unfold combineJournal
  split at done
  · next hempty =>
    obtain rfl := Except.ok.inj done
    rw [if_pos hempty, List.append_nil]
    exact ⟨⟨shaped, others, account, hleaves⟩, Array.isEmpty_iff.mp hempty⟩
  · next hwaiting =>
    have hlist : (c.laneAt height).pending.toList ≠ [] := fun hnil =>
      hwaiting (Array.isEmpty_iff.mpr (Array.toList_eq_nil_iff.mp hnil))
    have hshape : (c.takePending height).Shaped := shaped.setLane _
    have hlands := lands_land h hshape done
    obtain ⟨hevents, hsent⟩ := hlands.events_here (journal ++ [c.takeEntry height])
    obtain ⟨htaken, hnone⟩ := events_take journal c height
    obtain ⟨-, hpending, -⟩ := (c.storey height).take.lane.settled_land
      ((c.storey height).job height).ticket ((c.storey height).result height)
    have hhere := hlands.here
    rw [shaped.storey_takePending h] at hhere hsent
    rw [if_neg hwaiting, List.append_cons]
    refine ⟨⟨hlands.shaped, hlands.others positive evenSize others.take, ?_, ?_⟩, ?_⟩
    · rw [hevents, hsent, htaken, hnone, hhere, List.append_assoc]
      exact account.combine even hlist
    · rw [hlands.pushed_lowest, pushed_lowest_takeEntry, hleaves]
    · exact (congrArg (fun s : Storey => s.lane.pending) hhere).trans hpending

/-- A hash that was held back is put down again, and all heights are in order. -/
theorem Opened.putBack {hash : Option Digest} (wide : 1 < batchSize)
    (opened : Opened batchSize leaves height hash.toList journal c) (h : height < maxDepth)
    (empty : (c.laneAt height).pending = #[]) {answer : Option Digest}
    (done : putBack height hash c = .ok (answer, next)) :
    Documented batchSize leaves journal next := by
  obtain ⟨shaped, others, account, hleaves⟩ := opened
  cases hash with
  | none =>
    obtain rfl := (Prod.mk.inj (Except.ok.inj done)).2
    refine ⟨shaped, others.everywhere ⟨account, ?_⟩, hleaves⟩
    exact (congrArg Array.size empty).trans_lt (Nat.lt_of_succ_lt wide)
  | some hash =>
    rw [Combiner.putBack, shaped.lane_eq h, ok_bind] at done
    obtain rfl := (Prod.mk.inj (Except.ok.inj done)).2
    refine ⟨shaped.setLane _, Elsewhere.everywhere
      (others.congr fun place hplace => storey_setLane_of_ne hplace _) ?_, hleaves⟩
    rw [shaped.storey_setLane h]
    refine ⟨account.putDown empty, ?_⟩
    rw [Lane.push, empty]
    exact wide

/-- Taking a height into a scan keeps all heights in order. -/
theorem Documented.scanHeight (positive : 0 < batchSize) (evenSize : batchSize % 2 = 0)
    (documented : Documented batchSize leaves journal c) (h : height < maxDepth)
    {answer : Option Digest}
    (done : CombiningTree.scanHeight batchSize height c = .ok (answer, next)) :
    Documented batchSize leaves (journal ++ scanHeightJournal batchSize height c) next := by
  obtain ⟨-, heven, -⟩ := holdOdd_spec (c.laneAt height)
  rw [documented.shaped.scanHeight_eq h] at done
  obtain ⟨middle, hcombine, hput⟩ := exists_of_bind_ok done
  rw [← documented.shaped.laneAt_setLane h (c.laneAt height).holdOdd.2] at heven
  obtain ⟨hopened, hempty⟩ :=
    (documented.opened h).combine positive evenSize h heven hcombine
  exact hopened.putBack (by omega) h hempty hput

/-- Continuing a scan keeps all heights in order. The induction runs over the heights left. -/
theorem Documented.scanUpTo (positive : 0 < batchSize) (evenSize : batchSize % 2 = 0)
    (left : Nat) {height : Nat} (hleft : height + left ≤ maxDepth)
    (documented : Documented batchSize leaves journal c) {waiting : List (Option Digest)}
    {stop : Scan}
    (done : CombiningTree.scanUpTo batchSize left height waiting c = .ok (stop, next)) :
    Documented batchSize leaves (journal ++ scanJournal batchSize left height c) next := by
  induction left generalizing height journal c waiting with
  | zero =>
    obtain rfl := (Prod.mk.inj (Except.ok.inj done)).2
    rw [scanJournal, List.append_nil]
    exact documented
  | succ left ih =>
    have hlt : height < maxDepth := by omega
    rw [CombiningTree.scanUpTo, inFlight, documented.shaped.lane_eq hlt, ok_bind, pure_eq_ok,
      ok_bind] at done
    rw [scanJournal]
    cases hflying : (c.laneAt height).inFlight with
    | true =>
      rw [hflying, if_pos rfl] at done
      obtain rfl := (Prod.mk.inj (Except.ok.inj done)).2
      rw [if_pos rfl, List.append_nil]
      exact documented
    | false =>
      rw [hflying, if_neg Bool.false_ne_true] at done
      obtain ⟨⟨held, middle⟩, hscan, hrest⟩ := exists_of_bind_ok done
      rw [if_neg Bool.false_ne_true, hscan, ← List.append_assoc]
      exact ih (by omega) (documented.scanHeight positive evenSize hlt hscan) hrest

end Combiner

open Combiner CombiningTree

namespace TreeRun

/-- The journal of continuing a scan. -/
def lookJournal (run : TreeRun) (scan : Scan) : Journal :=
  scanJournal run.tree.batchSize scan.left scan.height run.tree.combiner

/-- The journal of a call of the owner. Counting the leaves touches no lane. The journal of a tree
ends when its root is requested. -/
def callJournal (run : TreeRun) : TreeOp → Journal
  | .add leaf =>
    match run.tree.accept leaf with
    | .ok hash => pushJournal run.tree.batchSize 0 false run.tree.combiner hash
    | .error _ => []
  | .frontier =>
    match run.tree.beginScan with
    | .ok scan => run.lookJournal scan
    | .error _ => []
  | .count => []
  | .root => []

/-- The journal of a move. An owner that waits makes no calls. -/
def moveJournal (run : TreeRun) : Move → Journal
  | .call op => if run.scan.isNone then run.callJournal op else []
  | .resume =>
    match run.scan with
    | some scan => run.lookJournal scan
    | none => []
  | .land position =>
    match run.tree.combiner.jobs[position]? with
    | some job => landJournal run.tree.batchSize job.height job.ticket
        (pairUp (emptyRoot job.height) job.batch) (run.tree.combiner.withoutJob position)
    | none => []

/-- The journal of a run. -/
def journal (run : TreeRun) : List Move → Journal
  | [] => []
  | m :: moves => run.moveJournal m ++ (run.move m).2.journal moves

end TreeRun

variable {batchSize : Nat} {run : TreeRun} {tree : CombiningTree} {naive : LeafTree} {scan : Scan}
  {leaves : List Digest} {journal : Journal}

/-- An open tree in a run, with the tree that keeps its leaves after the same operations, and the
journal of what has happened. -/
structure Recorded (batchSize : Nat) (run : TreeRun) (naive : LeafTree) (journal : Journal) :
    Prop where
  /-- The trees mirror each other. -/
  mirrors : Mirrors run naive
  /-- They are open. -/
  isOpen : naive.closed = false
  /-- No root was delivered. -/
  roots : naive.roots = []
  /-- The batch size is the one given. -/
  sized : run.tree.batchSize = batchSize
  /-- The heights are in order. -/
  documented : Documented batchSize naive.leaves.toList journal run.tree.combiner

/-- Nothing has happened to a new tree. -/
theorem recorded_new (positive : 0 < batchSize) (evenSize : batchSize % 2 = 0) :
    Recorded batchSize ⟨{ batchSize }, none⟩ {} [] where
  mirrors := mirrors_new positive evenSize
  isOpen := rfl
  roots := rfl
  sized := rfl
  documented := by
    refine ⟨CombiningTree.shaped_empty, fun place => ?_, rfl⟩
    have hempty := Storey.chronicle_empty positive place
    rwa [← storey_empty place] at hempty

/-- Continuing a scan keeps the heights in order. -/
theorem documented_look (scanning : tree.Scanning leaves scan)
    (documented : Documented tree.batchSize leaves journal tree.combiner) (before : Option Scan) :
    (TreeRun.look ⟨tree, before⟩ scan).2.tree.batchSize = tree.batchSize ∧
      Documented tree.batchSize leaves (journal ++ TreeRun.lookJournal ⟨tree, before⟩ scan)
        (TreeRun.look ⟨tree, before⟩ scan).2.tree.combiner := by
  have hheights := scanning.heights
  have hdepth := ceilLog2_succ_le_maxDepth scanning.few
  obtain ⟨stop, next, heq, -⟩ := scanning.continueScan
  obtain ⟨⟨reached, combiner⟩, hscan, hnext⟩ := exists_of_bind_ok heq
  obtain rfl := (Prod.mk.inj (Except.ok.inj hnext)).2
  have hdocumented := documented.scanUpTo scanning.positive scanning.evenSize scan.left
    (by omega) hscan
  simp only [TreeRun.look, heq]
  split <;> exact ⟨rfl, hdocumented⟩

/-- A job that lands keeps the heights in order. -/
theorem Recorded.land (recorded : Recorded batchSize run naive journal) (position : Nat) :
    (run.move (.land position)).2.tree.batchSize = batchSize ∧
      Documented batchSize naive.leaves.toList (journal ++ run.moveJournal (.land position))
        (run.move (.land position)).2.tree.combiner := by
  obtain rfl := recorded.sized
  have hdocumented := recorded.documented
  have hcounts := recorded.mirrors.counts
  have hflush : run.tree.flush = none := by
    have hclosed := recorded.isOpen
    cases recorded.mirrors with
    | growing growing _ _ => exact growing.flush
    | scanning scanning _ _ => exact scanning.flush
    | closing _ isClosed _ => exact absurd (isClosed.symm.trans hclosed) Bool.noConfusion
  rw [TreeRun.moveJournal]
  cases hjob : run.tree.combiner.jobs[position]? with
  | none =>
    simp only [TreeRun.move, landJob_of_none hjob, List.append_nil]
    exact ⟨trivial, hdocumented⟩
  | some job =>
    obtain ⟨next, hland, -⟩ := recorded.mirrors.landJob position
    have heq := hland
    rw [landJob_eq hdocumented.shaped hjob] at heq
    obtain ⟨combiner, hcombiner, hadvance⟩ := exists_of_bind_ok heq
    have hstays : CombiningTree.advance { run.tree with combiner } =
        .ok { run.tree with combiner } := advance_of_flush_none hflush
    rw [hstays] at hadvance
    obtain rfl := Except.ok.inj hadvance
    simp only [TreeRun.move, hland]
    exact ⟨trivial, hdocumented.landJob hcounts.positive hcounts.evenSize hjob hcombiner⟩

/-- A call other than for the root keeps the heights in order. -/
theorem Recorded.call (recorded : Recorded batchSize ⟨tree, none⟩ naive journal) {op : TreeOp}
    (noRoot : op ≠ .root) :
    (TreeRun.move ⟨tree, none⟩ (.call op)).2.tree.batchSize = batchSize ∧
      Documented batchSize (naive.perform op).2.leaves.toList
        (journal ++ TreeRun.callJournal ⟨tree, none⟩ op)
        (TreeRun.move ⟨tree, none⟩ (.call op)).2.tree.combiner := by
  obtain ⟨mirrors, isOpen, roots, rfl, documented⟩ := recorded
  obtain ⟨growing, -⟩ := mirrors.growing_of_open isOpen
  cases op with
  | add leaf =>
    have haccept := growing.toCounts.accept_eq leaf mirrors.closed_eq rfl
    rw [perform_add, TreeRun.callJournal]
    simp only [TreeRun.move, CombiningTree.add, LeafTree.add]
    rw [haccept]
    cases hleaf : naive.accept leaf with
    | error fault =>
      rw [List.append_nil]
      exact ⟨rfl, documented⟩
    | ok hash =>
      obtain ⟨-, notFull⟩ := accept_ok hleaf
      obtain ⟨next, heq, -⟩ := growing.push hash notFull
      obtain ⟨combiner, hpush, hnext⟩ := exists_of_bind_ok heq
      obtain rfl := Except.ok.inj hnext
      have hdocumented := documented.push growing.positive growing.evenSize hpush
      rw [← Array.toList_push] at hdocumented
      rw [ok_bind, heq]
      exact ⟨rfl, hdocumented⟩
  | frontier =>
    obtain ⟨heq, hscan⟩ := growing.beginScan
    rw [perform_frontier_snd, TreeRun.callJournal]
    simp only [TreeRun.move, heq]
    exact documented_look hscan documented none
  | count =>
    rw [TreeRun.callJournal, List.append_nil]
    exact ⟨rfl, documented⟩
  | root => exact absurd rfl noRoot

/-- Every move that does not request the root keeps the heights in order. -/
theorem Recorded.move (recorded : Recorded batchSize run naive journal) (m : Move)
    (noRoot : .root ∉ (run.called m).toList) :
    Recorded batchSize (run.move m).2 (naive.play (run.called m).toList).2
      (journal ++ run.moveJournal m) := by
  obtain ⟨hmirrors, -⟩ := recorded.mirrors.move m
  obtain ⟨hopen, hroots⟩ := play_open noRoot recorded.isOpen recorded.roots
  suffices hmoved : (run.move m).2.tree.batchSize = batchSize ∧ Documented batchSize
      (naive.play (run.called m).toList).2.leaves.toList (journal ++ run.moveJournal m)
      (run.move m).2.tree.combiner from ⟨hmirrors, hopen, hroots, hmoved.1, hmoved.2⟩
  obtain ⟨tree, scan⟩ := run
  cases m with
  | land position => exact recorded.land position
  | resume =>
    cases scan with
    | none =>
      rw [TreeRun.moveJournal, List.append_nil]
      exact ⟨recorded.sized, recorded.documented⟩
    | some scan =>
      obtain rfl := recorded.sized
      cases recorded.mirrors with
      | scanning scanning _ _ => exact documented_look scanning recorded.documented _
  | call op =>
    cases scan with
    | none => exact recorded.call fun hroot => noRoot (List.mem_singleton.mpr hroot.symm)
    | some scan =>
      have hnone : TreeRun.moveJournal ⟨tree, some scan⟩ (.call op) = [] := rfl
      rw [hnone, List.append_nil]
      exact ⟨recorded.sized, recorded.documented⟩

/-- Only operations that were called are performed. -/
theorem call_mem_of_performed {op : TreeOp} {moves : List Move} (mem : op ∈ run.performed moves) :
    .call op ∈ moves := by
  induction moves generalizing run with
  | nil => exact absurd mem List.not_mem_nil
  | cons m moves ih =>
    rcases List.mem_append.mp mem with hfirst | hrest
    · have hcalled : run.called m = some op := Option.mem_toList.mp hfirst
      cases m with
      | call other =>
        rw [TreeRun.called] at hcalled
        split at hcalled
        · cases hcalled
          exact List.mem_cons_self
        · cases hcalled
      | land position => cases hcalled
      | resume => cases hcalled
    · exact List.mem_cons_of_mem _ (ih hrest)

/-- Every run that does not request the root keeps the heights in order. -/
theorem Recorded.play (recorded : Recorded batchSize run naive journal) (moves : List Move)
    (noRoot : .root ∉ run.performed moves) :
    Recorded batchSize (run.play moves).2 (naive.play (run.performed moves)).2
      (journal ++ run.journal moves) := by
  induction moves generalizing run naive journal with
  | nil =>
    rw [TreeRun.journal, List.append_nil]
    exact recorded
  | cons m moves ih =>
    rw [TreeRun.performed, List.mem_append, not_or] at noRoot
    have hlast := ih (recorded.move m noRoot.1) noRoot.2
    rw [TreeRun.performed, play_append, TreeRun.journal, ← List.append_assoc]
    exact hlast

end BlockIntake.Merkle
