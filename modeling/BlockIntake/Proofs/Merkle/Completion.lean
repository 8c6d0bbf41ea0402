import BlockIntake.Proofs.Merkle.Delivery

/-!
# Every operation can be performed

An owner that waits for a frontier can be brought to the end of its wait, since there is always a
job to land and every landing lowers the number of hashes held. So whatever operations an owner has
in mind, some run performs them all, and then lands every job. At the end of its wait an owner has
got every answer that the tree that keeps its leaves gives.
-/

namespace BlockIntake.Merkle

open Combiner CombiningTree

variable {run : TreeRun} {tree : CombiningTree} {naive : LeafTree} {scan : Scan}
  {leaves : List Digest}

/-- An owner that looks again has its frontier, or a job can land. -/
theorem look_or_land (scanning : tree.Scanning leaves scan) :
    (TreeRun.move ⟨tree, some scan⟩ .resume).2.scan = none ∨
    ∃ next stop position landed, (TreeRun.move ⟨tree, some scan⟩ .resume).2 = ⟨next, some stop⟩ ∧
      next.landJob position = .ok landed ∧ landed.Scanning leaves stop ∧
      landed.combiner.heldCount < tree.combiner.heldCount := by
  obtain ⟨stop, next, heq, hnext, hstop, hheld⟩ := scanning.continueScan
  simp only [TreeRun.move, TreeRun.look, heq]
  by_cases hdone : stop.left = 0
  · rw [if_pos hdone]
    exact Or.inl rfl
  · rw [if_neg hdone]
    have hdepth := ceilLog2_succ_le_maxDepth hnext.few
    have hheights := hnext.heights
    have hwakes := hnext.feeds.wakes (Nat.zero_le _) (by omega) (hstop.resolve_left hdone)
    obtain ⟨job, hjob, -⟩ := hwakes
    obtain ⟨position, hposition⟩ := List.mem_iff_getElem?.mp hjob
    obtain ⟨landed, hland, hscanning, hless⟩ := hnext.landJob hposition
    exact Or.inr ⟨next, stop, position, landed, rfl, hland, hscanning, by omega⟩

/-- The wait of an owner can come to its end. The induction is on the number of hashes held. -/
theorem exists_wait (scanning : tree.Scanning leaves scan) :
    ∃ moves, TreeRun.performed ⟨tree, some scan⟩ moves = [] ∧
      (TreeRun.play ⟨tree, some scan⟩ moves).2.scan = none := by
  induction hheld : tree.combiner.heldCount using Nat.strong_induction_on
    generalizing tree scan with
  | _ held ih =>
    rcases look_or_land scanning with
      hdone | ⟨next, stop, position, landed, hlook, hland, hnext, hless⟩
    · exact ⟨[.resume], rfl, hdone⟩
    · obtain ⟨moves, hperformed, hscan⟩ := ih _ (hheld ▸ hless) hnext rfl
      have hlanded : (TreeRun.move ⟨next, some stop⟩ (.land position)).2 = ⟨landed, some stop⟩ := by
        rw [TreeRun.move, hland]
      refine ⟨.resume :: .land position :: moves, ?_, ?_⟩
      · rw [TreeRun.performed, hlook, TreeRun.performed, hlanded, hperformed]
        rfl
      · rw [play_moves_cons, hlook, play_moves_cons, hlanded]
        exact hscan

/-- An owner that may wait for a frontier can be brought to the end of its wait. -/
theorem Mirrors.exists_wait (mirrors : Mirrors run naive) :
    ∃ waits, run.performed waits = [] ∧ (run.play waits).2.scan = none := by
  cases mirrors with
  | growing _ _ _ => exact ⟨[], rfl, rfl⟩
  | scanning scanning _ _ => exact exists_wait scanning
  | closing _ _ _ => exact ⟨[], rfl, rfl⟩

/-- An owner that goes on waiting after another look waits for a lane in flight. -/
theorem Mirrors.inFlight_of_resume (mirrors : Mirrors run naive) {stop : Scan}
    (waits : (run.move .resume).2.scan = some stop) : stop.height < maxDepth ∧
      ((run.move .resume).2.tree.combiner.laneAt stop.height).inFlight = true := by
  cases mirrors with
  | growing _ _ _ => cases waits
  | closing _ _ _ => cases waits
  | scanning scanning _ _ =>
    obtain ⟨reached, next, heq, hnext, hstop, -⟩ := scanning.continueScan
    simp only [TreeRun.move, TreeRun.look, heq] at waits ⊢
    by_cases hdone : reached.left = 0
    · rw [if_pos hdone] at waits
      cases waits
    · rw [if_neg hdone] at waits ⊢
      obtain rfl := Option.some.inj waits
      have hdepth := ceilLog2_succ_le_maxDepth hnext.few
      have hheights := hnext.heights
      exact ⟨by omega, hstop.resolve_left hdone⟩

/-- Where an owner goes on waiting after another look, some job has the batch whose result leaves
next the lane that the owner waits for. -/
theorem Mirrors.exists_awaited (mirrors : Mirrors run naive) {stop : Scan}
    (waits : (run.move .resume).2.scan = some stop) :
    ∃ lane, (run.move .resume).2.tree.combiner.lanes[stop.height]? = some lane ∧
      lane.inFlight = true ∧ ∃ job ∈ (run.move .resume).2.tree.combiner.jobs,
        job.height = stop.height ∧ job.ticket = lane.nextToForward := by
  obtain ⟨h, hflying⟩ := mirrors.inFlight_of_resume waits
  obtain ⟨hafter, -⟩ := mirrors.move .resume
  exact ⟨_, hafter.shaped.getElem?_lanes h, hflying, hafter.wakes h hflying⟩

/-- If no job is left after another look, the owner does not wait. -/
theorem Mirrors.free_of_idle (mirrors : Mirrors run naive)
    (idle : (run.move .resume).2.tree.combiner.jobs = []) : (run.move .resume).2.scan = none := by
  refine Option.eq_none_iff_forall_ne_some.mpr fun stop waits => ?_
  obtain ⟨-, -, -, job, hjob, -⟩ := mirrors.exists_awaited waits
  rw [idle] at hjob
  exact absurd hjob List.not_mem_nil

/-- Any operations can be performed by an owner that does not wait, and it does not wait after
them. The induction runs over the operations. -/
theorem Mirrors.exists_moves (mirrors : Mirrors run naive) (free : run.scan = none)
    (ops : List TreeOp) :
    ∃ moves, run.performed moves = ops ∧ (run.play moves).2.scan = none := by
  induction ops generalizing run naive with
  | nil => exact ⟨[], rfl, free⟩
  | cons op ops ih =>
    have hcalled : run.called (.call op) = some op := by simp [TreeRun.called, free]
    obtain ⟨hnext, -⟩ := mirrors.move (.call op)
    obtain ⟨waits, hwaits, hdone⟩ := hnext.exists_wait
    obtain ⟨hlater, -⟩ := hnext.play waits
    obtain ⟨moves, hperformed, hscan⟩ := ih hlater hdone
    obtain ⟨hplay, hboth⟩ := play_moves_append (run.move (.call op)).2 waits moves
    refine ⟨.call op :: (waits ++ moves), ?_, ?_⟩
    · rw [TreeRun.performed, hcalled, hboth, hwaits, hperformed]
      rfl
    · rw [play_moves_cons, hplay]
      exact hscan

/-- Once the root was requested, all jobs can land. The induction is on the number of hashes
held. -/
theorem exists_landings (closing : tree.Closing leaves) :
    ∃ moves, TreeRun.performed ⟨tree, none⟩ moves = [] ∧
      (TreeRun.play ⟨tree, none⟩ moves).2.tree.combiner.jobs = [] := by
  induction hheld : tree.combiner.heldCount using Nat.strong_induction_on generalizing tree with
  | _ held ih =>
    cases hjobs : tree.combiner.jobs with
    | nil => exact ⟨[], rfl, hjobs⟩
    | cons job jobs =>
      have hfirst : tree.combiner.jobs[0]? = some job := by
        rw [hjobs]
        rfl
      obtain ⟨landed, hland, hclosing, hless⟩ := closing.landJob hfirst
      obtain ⟨moves, hperformed, hidle⟩ := ih _ (hheld ▸ hless) hclosing rfl
      have hlanded : (TreeRun.move ⟨tree, none⟩ (.land 0)).2 = ⟨landed, none⟩ := by
        rw [TreeRun.move, hland]
      refine ⟨.land 0 :: moves, ?_, ?_⟩
      · rw [TreeRun.performed, hlanded, hperformed]
        rfl
      · rw [play_moves_cons, hlanded]
        exact hidle

/-- Some run of a new tree performs operations among which the root is requested, and lands every
job. -/
theorem exists_run {batchSize : Nat} (positive : 0 < batchSize) (evenSize : batchSize % 2 = 0)
    {ops : List TreeOp} (closes : (LeafTree.play {} ops).2.closed = true) :
    ∃ moves, TreeRun.performed ⟨{ batchSize }, none⟩ moves = ops ∧
      (TreeRun.play ⟨{ batchSize }, none⟩ moves).2.tree.combiner.jobs = [] := by
  obtain ⟨moves, hperformed, hscan⟩ := (mirrors_new positive evenSize).exists_moves rfl ops
  obtain ⟨hlast, -⟩ := (mirrors_new positive evenSize).play moves
  rw [hperformed] at hlast
  have hclosing := hlast.closing_of_closed (hlast.closed_eq.symm.trans closes)
  have happend := play_moves_append ⟨{ batchSize }, none⟩ moves
  generalize (TreeRun.play ⟨{ batchSize }, none⟩ moves).2 = last at *
  obtain ⟨tree, waits⟩ := last
  obtain rfl : waits = none := hscan
  obtain ⟨landings, hnothing, hidle⟩ := exists_landings hclosing
  obtain ⟨hplay, hboth⟩ := happend landings
  refine ⟨moves ++ landings, ?_, ?_⟩
  · rw [hboth, hperformed, hnothing, List.append_nil]
  · rw [hplay]
    exact hidle

/-- What a run answers and delivers, beside the tree that keeps its leaves. -/
structure TreeRun.AnswersLike (run : TreeRun) (moves : List Move) (naive : LeafTree) : Prop where
  /-- Only an owner that waits for a frontier has not got its last answer yet. -/
  answers : ∃ owed, (naive.play (run.performed moves)).1 = (run.play moves).1 ++ owed ∧
    owed.length = if (run.play moves).2.scan.isSome then 1 else 0
  /-- An owner that goes on waiting after a look waits for a lane in flight, and some job has the
  batch whose result leaves that lane next. -/
  waits : ∀ stop, (run.play (moves ++ [.resume])).2.scan = some stop →
    ∃ lane, (run.play (moves ++ [.resume])).2.tree.combiner.lanes[stop.height]? = some lane ∧
      lane.inFlight = true ∧
      ∃ job ∈ (run.play (moves ++ [.resume])).2.tree.combiner.jobs,
        job.height = stop.height ∧ job.ticket = lane.nextToForward
  /-- If no job is left after a look, all answers are there. -/
  idle : (run.play (moves ++ [.resume])).2.tree.combiner.jobs = [] →
    (run.play (moves ++ [.resume])).1 = (naive.play (run.performed moves)).1
  /-- The wait of the owner can come to its end, and then all answers are there. -/
  ends : ∃ waits, run.performed (moves ++ waits) = run.performed moves ∧
    (run.play (moves ++ waits)).2.scan = none ∧
    (run.play (moves ++ waits)).1 = (naive.play (run.performed moves)).1
  /-- A root that was delivered is the one that the other tree has delivered. -/
  roots : ∀ root ∈ (run.play moves).2.tree.roots, (naive.play (run.performed moves)).2.roots = [root]

/-- Where nobody waits, a combining tree has given the answers of the other one. -/
theorem Mirrors.answers_eq (mirrors : Mirrors ⟨tree, none⟩ naive) {moves : List Move}
    (free : (TreeRun.play ⟨tree, none⟩ moves).2.scan = none) :
    (TreeRun.play ⟨tree, none⟩ moves).1 =
      (naive.play (TreeRun.performed ⟨tree, none⟩ moves)).1 := by
  obtain ⟨-, hanswers⟩ := mirrors.play moves
  rw [TreeRun.owed, TreeRun.owed, free] at hanswers
  simpa using hanswers

/-- A run of a tree that nobody waits for answers like the tree it mirrors. -/
theorem Mirrors.answersLike (mirrors : Mirrors ⟨tree, none⟩ naive) (moves : List Move) :
    TreeRun.AnswersLike ⟨tree, none⟩ moves naive := by
  obtain ⟨hlast, hreplies⟩ := mirrors.play moves
  obtain ⟨hlook, hlooked⟩ := play_moves_append ⟨tree, none⟩ moves [.resume]
  have hsame : TreeRun.performed ⟨tree, none⟩ (moves ++ [.resume]) =
      TreeRun.performed ⟨tree, none⟩ moves := hlooked.trans (List.append_nil _)
  refine ⟨⟨_, hreplies.symm, ?_⟩, ?_, fun hidle => ?_, ?_, hlast.roots⟩
  · rw [TreeRun.owed]
    split <;> rfl
  · rw [hlook]
    exact fun stop => hlast.exists_awaited
  · rw [hlook] at hidle
    rw [← hsame]
    exact mirrors.answers_eq (hlook ▸ hlast.free_of_idle hidle)
  · obtain ⟨waits, hnothing, hfree⟩ := hlast.exists_wait
    obtain ⟨hplay, hboth⟩ := play_moves_append ⟨tree, none⟩ moves waits
    rw [hnothing, List.append_nil] at hboth
    rw [← hplay] at hfree
    refine ⟨waits, hboth, hfree, ?_⟩
    rw [← hboth]
    exact mirrors.answers_eq hfree

/-- Whatever the batch size, the operations and the order in which jobs land, a combining tree
answers as the tree that keeps its leaves does. Only an owner that waits for a frontier has not got
its last answer yet: it waits for a job, and has all answers when none is left. A root that was
delivered is that of the other tree. -/
theorem combining_play_eq_leaf_play {batchSize : Nat} (positive : 0 < batchSize)
    (evenSize : batchSize % 2 = 0) (moves : List Move) :
    ∃ tree, CombiningTree.new batchSize = .ok tree ∧
      TreeRun.AnswersLike ⟨tree, none⟩ moves {} :=
  ⟨{ batchSize }, new_eq positive evenSize, (mirrors_new positive evenSize).answersLike moves⟩

/-- Sixteen leaves are appended, the frontier is asked for, and after a landing and a look the root
and the frontier again. -/
def sixteenThenRoot : List Move :=
  sixteenLeaves ++ [.call .frontier, .land 0, .resume, .call .root, .call .frontier]

/-- In batches of sixteen the leaves make a job, for which an owner waits that asks for the
frontier. Once the job has landed and the owner has looked again, the answers to that and to all
later operations are those of the other tree. -/
theorem combining_play_eq_leaf_play_sixteen : 0 < 16 ∧ 16 % 2 = 0 ∧
    CombiningTree.new 16 = .ok { batchSize := 16 } ∧
    (TreeRun.play ⟨{ batchSize := 16 }, none⟩ (sixteenThenRoot.take 17)).2.scan.isSome = true ∧
    (TreeRun.play ⟨{ batchSize := 16 }, none⟩ sixteenThenRoot).1 =
      (LeafTree.play {} (TreeRun.performed ⟨{ batchSize := 16 }, none⟩ sixteenThenRoot)).1 ∧
    (TreeRun.play ⟨{ batchSize := 16 }, none⟩ sixteenThenRoot).1.length = 19 := by
  have positive : 0 < 16 := by decide
  have evenSize : 16 % 2 = 0 := by decide
  obtain ⟨tree, hnew, hanswers⟩ := combining_play_eq_leaf_play positive evenSize sixteenThenRoot
  obtain ⟨-, -, rfl⟩ := new_ok hnew
  obtain ⟨owed, hreplies, howed⟩ := hanswers.answers
  have hfree : ¬(TreeRun.play ⟨{ batchSize := 16 }, none⟩ sixteenThenRoot).2.scan.isSome = true := by
    decide +kernel
  rw [if_neg hfree] at howed
  obtain rfl := List.length_eq_zero_iff.mp howed
  rw [List.append_nil] at hreplies
  exact ⟨positive, evenSize, hnew, by decide +kernel, hreplies.symm, by decide +kernel⟩

end BlockIntake.Merkle
