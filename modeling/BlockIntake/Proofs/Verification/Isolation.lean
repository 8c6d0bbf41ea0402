import BlockIntake.Proofs.Verification.Balance
import BlockIntake.Proofs.Verification.Twin

/-!
# Blocks do not interfere

A run of a service falls into segments, one for each batch that opens a block and what comes after
it. The last session of the service does what the only session of a fresh service does that takes
the steps of the last segment alone, and the replaced sessions only have their tasks run once more.
So a run publishes what its segments publish, each taken alone, in order.
-/

namespace BlockIntake

open Merkle Session

/-- Whether a step hands in a batch that opens a block. -/
def ServiceStep.opens : ServiceStep → Bool
  | .receive items => opensBlock items
  | .work .. | .drain | .stopRuntime => false

/-- Cut steps before every batch that opens a block: the steps before the first such batch, and the
segments that begin with one. -/
def cutAtHeaders : List ServiceStep → List ServiceStep × List (List ServiceStep)
  | [] => ([], [])
  | step :: steps =>
    let (front, segments) := cutAtHeaders steps
    if step.opens then ([], (step :: front) :: segments) else (step :: front, segments)

/-- A step that opens a block begins a segment. -/
theorem cutAtHeaders_opens {step : ServiceStep} (opens : step.opens = true)
    (steps : List ServiceStep) :
    cutAtHeaders (step :: steps) =
      ([], (step :: (cutAtHeaders steps).1) :: (cutAtHeaders steps).2) := by
  rw [cutAtHeaders]
  exact if_pos opens

/-- Every other step belongs to what comes before the next segment. -/
theorem cutAtHeaders_continues {step : ServiceStep} (continues : step.opens = false)
    (steps : List ServiceStep) :
    cutAtHeaders (step :: steps) =
      (step :: (cutAtHeaders steps).1, (cutAtHeaders steps).2) := by
  rw [cutAtHeaders]
  exact if_neg (by rw [continues]; exact Bool.false_ne_true)

/-- Cutting leaves no step out. -/
theorem cutAtHeaders_joined (steps : List ServiceStep) :
    (cutAtHeaders steps).1 ++ (cutAtHeaders steps).2.flatten = steps := by
  induction steps with
  | nil => rfl
  | cons step steps ih =>
    cases hopens : step.opens with
    | true =>
      rw [cutAtHeaders_opens hopens, List.nil_append, List.flatten_cons, List.cons_append, ih]
    | false => rw [cutAtHeaders_continues hopens, List.cons_append, ih]

/-- A segment opens one block, at its beginning. -/
def IsSegment (segment : List ServiceStep) : Prop :=
  ∃ step rest, segment = step :: rest ∧ step.opens = true ∧ ∀ other ∈ rest, other.opens = false

/-- Before the first segment no block is opened, and every segment opens one. -/
theorem cutAtHeaders_parts (steps : List ServiceStep) :
    (∀ step ∈ (cutAtHeaders steps).1, step.opens = false) ∧
      ∀ segment ∈ (cutAtHeaders steps).2, IsSegment segment := by
  induction steps with
  | nil =>
    exact ⟨fun _ h => absurd h List.not_mem_nil, fun _ h => absurd h List.not_mem_nil⟩
  | cons step steps ih =>
    obtain ⟨hfront, hsegments⟩ := ih
    cases hopens : step.opens with
    | true =>
      rw [cutAtHeaders_opens hopens]
      refine ⟨fun _ h => absurd h List.not_mem_nil, ?_⟩
      intro segment hsegment
      rcases List.mem_cons.mp hsegment with rfl | hlater
      · exact ⟨step, _, rfl, hopens, hfront⟩
      · exact hsegments segment hlater
    | false =>
      rw [cutAtHeaders_continues hopens]
      refine ⟨?_, hsegments⟩
      intro other hother
      rcases List.mem_cons.mp hother with rfl | hlater
      · exact hopens
      · exact hfront other hlater

/-- What a service publishes in a run after which every task runs. -/
def publishedBy (factory : Factory StrategyTree) (steps : List ServiceStep) : List Response :=
  Signal.responses (Service.run factory {} (steps ++ [.drain])).2.2

/-- What is published in a step comes before what is published later. -/
theorem responses_run_cons (factory : Factory StrategyTree) (service : Service StrategyTree)
    (step : ServiceStep) (steps : List ServiceStep) :
    Signal.responses (service.run factory (step :: steps)).2.2 =
      Signal.responses (service.step factory step).2.2 ++
        Signal.responses ((service.step factory step).2.1.run factory steps).2.2 := by
  rw [Service.run]
  exact responses_append _ _

/-- Opening a block publishes only what the batch makes its session publish. -/
theorem responses_opening (service : Service StrategyTree) (block : UInt64) (more : List Signal) :
    Signal.responses (service.replacementWarning block ++ [.tally .received] ++ more) =
      Signal.responses more := by
  rw [responses_append, responses_replacementWarning, List.nil_append]

/-- What sessions publish when their tasks run. -/
def duesOf (factory : Factory StrategyTree) (sessions : List (Session StrategyTree)) :
    List Response :=
  Signal.responses (Service.runTasks factory sessions).2

/-- The last session publishes last. -/
theorem duesOf_concat (factory : Factory StrategyTree) (front : List (Session StrategyTree))
    (s : Session StrategyTree) :
    duesOf factory (front ++ [s]) =
      duesOf factory front ++ Signal.responses (s.runTask factory.verifier).2 := by
  rw [duesOf, runTasks_concat, responses_append]
  rfl

/-- Sessions whose tasks have run publish nothing when they run again. -/
theorem duesOf_runTasks (factory : Factory StrategyTree) (sessions : List (Session StrategyTree)) :
    duesOf factory (Service.runTasks factory sessions).1 = [] := by
  induction sessions with
  | nil => rfl
  | cons s sessions ih =>
    rw [duesOf] at ih ⊢
    rw [Service.runTasks, Service.runTasks]
    dsimp only
    rw [responses_append, ih, runTask_again]
    rfl

/-- Inline sessions have no tasks. -/
theorem duesOf_inline (factory : Factory StrategyTree) {sessions : List (Session StrategyTree)}
    (inline : ∀ s ∈ sessions, s.Driven none) : duesOf factory sessions = [] := by
  induction sessions with
  | nil => rfl
  | cons s sessions ih =>
    have hnothing : s.runTask factory.verifier = (s, []) := by
      have hdrive : s.drive = .inline := inline s List.mem_cons_self
      rw [runTask, runTaskFor, hdrive]
    have hrest := ih fun other h => inline other (List.mem_cons_of_mem _ h)
    rw [duesOf] at hrest ⊢
    rw [Service.runTasks, hnothing]
    exact hrest

/-- Sessions that are driven alike either publish when a batch is appended or when their tasks run,
so it does not matter which comes first. -/
theorem duesOf_comm (factory : Factory StrategyTree) {capacity : Option Nat}
    {sessions : List (Session StrategyTree)} (driven : ∀ s ∈ sessions, s.Driven capacity)
    {s : Session StrategyTree} (driven' : s.Driven capacity) (items : Batch) :
    Signal.responses (s.append factory.verifier items).2 ++ duesOf factory sessions =
      duesOf factory sessions ++ Signal.responses (s.append factory.verifier items).2 := by
  cases capacity with
  | none => rw [duesOf_inline factory driven, List.nil_append, List.append_nil]
  | some capacity => rw [driven'.responses_append, List.nil_append, List.append_nil]

/-- How sessions are driven does not change when their tasks run. -/
theorem driven_runTasks (factory : Factory StrategyTree) {capacity : Option Nat}
    {sessions : List (Session StrategyTree)} (driven : ∀ s ∈ sessions, s.Driven capacity) :
    ∀ s ∈ (Service.runTasks factory sessions).1, s.Driven capacity := by
  induction sessions with
  | nil => exact driven
  | cons first sessions ih =>
    intro s hs
    rcases List.mem_cons.mp hs with rfl | hlater
    · exact (driven first List.mem_cons_self).runTask factory.verifier
    · exact ih (fun other h => driven other (List.mem_cons_of_mem _ h)) s hlater

/-- A factory that makes new sessions with empty trees, all driven alike. -/
structure MakesAlike (factory : Factory StrategyTree) (verifier : Verifier)
    (capacity : Option Nat) : Prop where
  /-- Signatures are checked as given. -/
  checks : factory.verifier = verifier
  /-- Every session can be made. -/
  creates : ∀ earlier header, ∃ trees,
    factory.create earlier header = .ok (Session.start header trees capacity) ∧
      AlikeTrees trees ⟨{}, {}⟩

/-- A service that has taken all steps of a run, and one that has taken only those of the last
segment. -/
structure Beside (capacity : Option Nat) (whole alone : Service StrategyTree) : Prop where
  /-- The tasks have a runtime. -/
  live : whole.runtimeLive = true
  /-- In the other service they have one too. -/
  live' : alone.runtimeLive = true
  /-- The replaced sessions are driven alike. -/
  driven : ∀ s ∈ whole.earlier, s.Driven capacity
  /-- In the other service no session was replaced. -/
  first : alone.earlier = []
  /-- The current sessions are twins, and driven like the replaced ones. -/
  current : Option.Rel (fun s t => s.Driven capacity ∧ Twin s t) whole.current alone.current

namespace Beside

variable {capacity : Option Nat} {whole alone : Service StrategyTree} {verifier : Verifier}
  {wholeFactory aloneFactory : Factory StrategyTree}

/-- Both services have a current session, and these are twins, or neither has one. -/
theorem current_cases (beside : Beside capacity whole alone) :
    (whole.current = none ∧ alone.current = none) ∨ ∃ s t, whole.current = some s ∧
      alone.current = some t ∧ s.Driven capacity ∧ Twin s t := by
  have hcurrent := beside.current
  generalize whole.current = session at hcurrent
  generalize alone.current = other at hcurrent
  cases hcurrent with
  | none => exact Or.inl ⟨rfl, rfl⟩
  | some related => exact Or.inr ⟨_, _, rfl, rfl, related⟩

/-- A batch for the current sessions is told the same by both services. It does not matter whether
the tasks of the replaced sessions run before or after that. -/
theorem route (beside : Beside capacity whole alone)
    (makes : MakesAlike wholeFactory verifier capacity)
    (makes' : MakesAlike aloneFactory verifier capacity) (items : Batch) :
    Beside capacity (whole.route wholeFactory items).1 (alone.route aloneFactory items).1 ∧
      Signal.responses (whole.route wholeFactory items).2 ++
          duesOf wholeFactory (whole.route wholeFactory items).1.earlier =
        duesOf wholeFactory whole.earlier ++
          Signal.responses (alone.route aloneFactory items).2 := by
  rw [Service.route, Service.route]
  rcases beside.current_cases with ⟨hwhole, halone⟩ | ⟨s, t, hwhole, halone, hdriven, htwin⟩
  · rw [hwhole, halone]
    exact ⟨beside, (List.append_nil _).symm⟩
  · obtain ⟨hnext, htold⟩ := htwin.append verifier items
    have hcomm := duesOf_comm wholeFactory beside.driven hdriven items
    rw [makes.checks] at hcomm
    rw [hwhole, halone, makes.checks, makes'.checks]
    dsimp only
    rw [htold]
    exact ⟨⟨beside.live, beside.live', beside.driven, beside.first,
      .some ⟨hdriven.append verifier items, hnext⟩⟩, hcomm⟩

/-- When every task runs, the replaced sessions tell what is left to tell, and then both services
tell the same. -/
theorem drain (beside : Beside capacity whole alone)
    (makes : MakesAlike wholeFactory verifier capacity)
    (makes' : MakesAlike aloneFactory verifier capacity) :
    Beside capacity (whole.drain wholeFactory).1 (alone.drain aloneFactory).1 ∧
      Signal.responses (whole.drain wholeFactory).2 ++
          duesOf wholeFactory (whole.drain wholeFactory).1.earlier =
        duesOf wholeFactory whole.earlier ++ Signal.responses (alone.drain aloneFactory).2 := by
  obtain ⟨hservice, -, hsignals⟩ := drain_eq wholeFactory whole
  obtain ⟨hservice', -, hsignals'⟩ := drain_eq aloneFactory alone
  have hdriven := driven_runTasks wholeFactory beside.driven
  have hsettled := duesOf_runTasks wholeFactory whole.earlier
  rw [hsignals, hsignals', hservice, hservice', beside.first]
  rw [Service.sessions, Service.sessions, beside.first, List.nil_append]
  dsimp only
  rw [hsettled, List.append_nil]
  rcases beside.current_cases with ⟨hwhole, halone⟩ | ⟨s, t, hwhole, halone, hcurrent, htwin⟩
  · rw [hwhole, halone]
    refine ⟨⟨beside.live, beside.live', hdriven, rfl, .none⟩, ?_⟩
    rw [Option.toList_none, List.append_nil]
    exact (List.append_nil _).symm
  · obtain ⟨hnext, htold⟩ := htwin.runTask verifier
    have hmore := duesOf_concat wholeFactory whole.earlier s
    have hone := duesOf_concat aloneFactory [] t
    rw [makes.checks] at hmore
    rw [makes'.checks, htold] at hone
    rw [hwhole, halone, makes.checks, makes'.checks]
    refine ⟨⟨beside.live, beside.live', hdriven, rfl,
      .some ⟨hcurrent.runTask verifier, hnext⟩⟩, ?_⟩
    exact hmore.trans (congrArg _ hone.symm)

/-- A session that is opened replaces the current one, which will tell what it would have told by
the end of its segment. In a fresh service its twin is the first one. -/
theorem opened (beside : Beside capacity whole alone)
    (makes : MakesAlike wholeFactory verifier capacity)
    (makes' : MakesAlike aloneFactory verifier capacity) {s t : Session StrategyTree}
    (driven : s.Driven capacity) (twin : Twin s t) :
    Beside capacity (whole.opened s) (Service.opened {} t) ∧
      duesOf wholeFactory (whole.opened s).earlier =
        duesOf wholeFactory whole.earlier ++ Signal.responses (alone.drain aloneFactory).2 := by
  obtain ⟨-, -, hsignals⟩ := drain_eq aloneFactory alone
  rw [hsignals, Service.sessions, beside.first, List.nil_append, Service.opened, Service.opened,
    if_pos beside.live]
  rcases beside.current_cases with ⟨hwhole, halone⟩ | ⟨l, p, hwhole, halone, hdriven, htwin⟩
  · rw [hwhole, halone]
    refine ⟨⟨beside.live, rfl, ?_, rfl, .some ⟨driven, twin⟩⟩, ?_⟩
    · intro other hother
      exact beside.driven other (by simpa using hother)
    · simp [duesOf, Service.runTasks, Signal.responses]
  · obtain ⟨-, htold⟩ := htwin.runTask verifier
    have hmore := duesOf_concat wholeFactory whole.earlier l.release
    have hone := duesOf_concat aloneFactory [] p
    rw [makes.checks, runTask_release, ← htold] at hmore
    rw [makes'.checks] at hone
    rw [hwhole, halone]
    refine ⟨⟨beside.live, rfl, ?_, rfl, .some ⟨driven, twin⟩⟩, ?_⟩
    · intro other hother
      rcases List.mem_append.mp hother with hold | hnew
      · exact beside.driven other hold
      · obtain rfl := List.mem_singleton.mp hnew
        exact hdriven.release
    · exact hmore.trans (congrArg _ hone.symm)

/-- A batch that opens a block ends a segment of the run and begins another one. -/
theorem opening (beside : Beside capacity whole alone)
    (makes : MakesAlike wholeFactory verifier capacity)
    (makes' : MakesAlike aloneFactory verifier capacity) {items : Batch}
    (opens : opensBlock items = true) :
    Beside capacity (whole.receive wholeFactory items).2.1
        (Service.receive aloneFactory {} items).2.1 ∧
      Signal.responses (whole.receive wholeFactory items).2.2 ++
          duesOf wholeFactory (whole.receive wholeFactory items).2.1.earlier =
        duesOf wholeFactory whole.earlier ++ Signal.responses (alone.drain aloneFactory).2 ++
          Signal.responses (Service.receive aloneFactory {} items).2.2 := by
  obtain ⟨header, hbegins⟩ := (opensBlock_iff items).mp opens
  obtain ⟨trees, hcreate, halike⟩ := makes.creates whole.sessions.length header
  obtain ⟨trees', hcreate', halike'⟩ :=
    makes'.creates ({} : Service StrategyTree).sessions.length header
  have htwin := Twin.start halike halike' header capacity
  have hdriven := Driven.start header trees capacity
  obtain ⟨hopened, hdues⟩ := beside.opened makes makes' hdriven htwin
  obtain ⟨hrouted, htold⟩ := hopened.route makes makes' items
  rw [receive_eq, receive_eq, hbegins]
  simp only [hcreate, hcreate']
  rw [responses_opening, responses_opening, ← hdues]
  exact ⟨hrouted, htold⟩

/-- Every other batch and every run of the tasks keeps the services beside each other. -/
theorem step (beside : Beside capacity whole alone)
    (makes : MakesAlike wholeFactory verifier capacity)
    (makes' : MakesAlike aloneFactory verifier capacity) {step : ServiceStep}
    (deferring : (∃ items, step = .receive items) ∨ step = .drain)
    (continues : step.opens = false) :
    Beside capacity (whole.step wholeFactory step).2.1 (alone.step aloneFactory step).2.1 ∧
      Signal.responses (whole.step wholeFactory step).2.2 ++
          duesOf wholeFactory (whole.step wholeFactory step).2.1.earlier =
        duesOf wholeFactory whole.earlier ++
          Signal.responses (alone.step aloneFactory step).2.2 := by
  rcases deferring with ⟨items, rfl⟩ | rfl
  · rw [Service.step, Service.step, receive_eq, receive_eq]
    have hcloses : opensBlock items = false := continues
    rw [opensBlock] at hcloses
    cases hbegins : beginning items with
    | nothing => exact ⟨beside, (List.append_nil _).symm⟩
    | inside => exact beside.route makes makes' items
    | unreadable error => exact ⟨beside, (List.append_nil _).symm⟩
    | opening header =>
      rw [hbegins] at hcloses
      exact absurd hcloses.symm Bool.false_ne_true
  · exact beside.drain makes makes'

/-- From services beside each other, what is still published in a run is what the replaced sessions
have left to tell, then the rest of the last segment, then the segments that follow. The induction
runs over the steps. -/
theorem run (beside : Beside capacity whole alone)
    (makes : MakesAlike wholeFactory verifier capacity)
    (makes' : MakesAlike aloneFactory verifier capacity) (steps : List ServiceStep)
    (deferring : ∀ step ∈ steps, (∃ items, step = .receive items) ∨ step = .drain) :
    Signal.responses (whole.run wholeFactory (steps ++ [.drain])).2.2 =
      duesOf wholeFactory whole.earlier ++
        Signal.responses (alone.run aloneFactory ((cutAtHeaders steps).1 ++ [.drain])).2.2 ++
        (cutAtHeaders steps).2.flatMap (publishedBy aloneFactory) := by
  have hends : ∀ (factory : Factory StrategyTree) (service : Service StrategyTree),
      Signal.responses (service.run factory [.drain]).2.2 =
        Signal.responses (service.drain factory).2 := by
    intro factory service
    rw [responses_run_cons]
    exact List.append_nil _
  induction steps generalizing whole alone with
  | nil =>
    obtain ⟨-, htold⟩ := beside.drain makes makes'
    have hsettled : duesOf wholeFactory (whole.drain wholeFactory).1.earlier = [] := by
      rw [(drain_eq wholeFactory whole).1]
      exact duesOf_runTasks wholeFactory whole.earlier
    rw [hsettled, List.append_nil] at htold
    rw [cutAtHeaders, List.nil_append, hends, hends, htold, List.flatMap_nil, List.append_nil]
  | cons step steps ih =>
    have hlater := fun other h => deferring other (List.mem_cons_of_mem step h)
    rw [List.cons_append, responses_run_cons]
    cases hopens : step.opens with
    | false =>
      obtain ⟨hnext, htold⟩ := beside.step makes makes' (deferring step List.mem_cons_self) hopens
      rw [cutAtHeaders_continues hopens, ih hnext hlater, List.cons_append, responses_run_cons,
        ← List.append_assoc, ← List.append_assoc, htold]
      simp only [List.append_assoc]
    | true =>
      rcases deferring step List.mem_cons_self with ⟨items, rfl⟩ | rfl
      · obtain ⟨hnext, htold⟩ := beside.opening makes makes' hopens
        rw [cutAtHeaders_opens hopens, List.flatMap_cons, publishedBy, List.cons_append,
          responses_run_cons, List.nil_append, hends, Service.step, Service.step]
        dsimp only
        rw [ih hnext hlater, ← List.append_assoc, ← List.append_assoc, htold]
        simp only [List.append_assoc]
      · exact absurd hopens Bool.false_ne_true

end Beside

/-- As many batches open a block as steps hand in such a batch. -/
theorem countP_receivedIn (steps : List ServiceStep) :
    (receivedIn steps).countP opensBlock = steps.countP ServiceStep.opens := by
  induction steps with
  | nil => rfl
  | cons step steps ih =>
    rw [List.countP_cons, ← ih]
    cases step with
    | receive items => exact List.countP_cons
    | work position count => rfl
    | drain => rfl
    | stopRuntime => rfl

variable {settings : VerificationSettings} {hasRuntime : Bool} {verifier : Verifier}
  {schedule schedule' : PoolSchedule} {factory whole alone : Factory StrategyTree}

/-- Without room for the queues nothing is published. -/
theorem publishedBy_crowded
    (made : Factory.new settings hasRuntime verifier schedule = .ok factory)
    (crowded : ¬ settings.Roomy) (steps : List ServiceStep) : publishedBy factory steps = [] := by
  have hidle : ({} : Service StrategyTree).current = none := rfl
  exact (makesNone_of_crowded made crowded).run hidle rfl (steps ++ [.drain])

/-- At most one response is published for every batch that opens a block. -/
theorem length_publishedBy_le
    (made : Factory.new settings hasRuntime verifier schedule = .ok factory)
    (steps : List ServiceStep) :
    (publishedBy factory steps).length ≤ steps.countP ServiceStep.opens := by
  by_cases hroomy : settings.Roomy
  · have hstart : Balanced ({} : Service StrategyTree).verifications 0 [] := Balanced.start
    have hbalanced := (hstart.run factory (steps ++ [.drain])).sessions_eq
    have hsessions := (makes_of_roomy made hroomy).length_sessions (steps ++ [.drain])
    have hdrain : [ServiceStep.drain].countP ServiceStep.opens = 0 := rfl
    rw [countP_receivedIn, List.countP_append, hdrain, Nat.add_zero] at hsessions
    rw [List.nil_append] at hbalanced
    rw [publishedBy, ← hsessions, hbalanced]
    exact Nat.le_add_right _ _
  · rw [publishedBy_crowded made hroomy]
    exact Nat.zero_le _

/-- Steps none of which opens a block hand in no such batch. -/
theorem countP_opens_eq_zero {steps : List ServiceStep}
    (closed : ∀ step ∈ steps, step.opens = false) : steps.countP ServiceStep.opens = 0 := by
  rw [List.countP_eq_zero]
  intro step hstep
  rw [closed step hstep]
  exact Bool.false_ne_true

/-- A segment publishes at most one response. -/
theorem length_publishedBy_segment
    (made : Factory.new settings hasRuntime verifier schedule = .ok factory)
    {segment : List ServiceStep} (isSegment : IsSegment segment) :
    (publishedBy factory segment).length ≤ 1 := by
  obtain ⟨step, rest, rfl, hopens, hrest⟩ := isSegment
  have hcount := length_publishedBy_le made (step :: rest)
  rwa [List.countP_cons, countP_opens_eq_zero hrest, if_pos hopens] at hcount

/-- Without a batch that opens a block nothing is published. -/
theorem publishedBy_front
    (made : Factory.new settings hasRuntime verifier schedule = .ok factory)
    {front : List ServiceStep} (closed : ∀ step ∈ front, step.opens = false) :
    publishedBy factory front = [] := by
  have hcount := length_publishedBy_le made front
  rw [countP_opens_eq_zero closed] at hcount
  exact List.length_eq_zero_iff.mp (Nat.le_zero.mp hcount)

/-- A factory made from valid settings with room for the queues makes its sessions alike. -/
theorem makesAlike_of_roomy
    (made : Factory.new settings hasRuntime verifier schedule = .ok factory)
    (roomy : settings.Roomy) : MakesAlike factory verifier settings.capacity? :=
  ⟨(factory_new_ok made).1, create_of_roomy made roomy⟩

/-- A run publishes what its segments publish, each taken alone by a fresh service. -/
theorem publishedBy_eq
    (made : Factory.new settings hasRuntime verifier schedule = .ok whole)
    (madeAlone : Factory.new settings hasRuntime verifier schedule' = .ok alone)
    (steps : List ServiceStep)
    (deferring : ∀ step ∈ steps, (∃ items, step = .receive items) ∨ step = .drain) :
    publishedBy whole steps = (cutAtHeaders steps).2.flatMap (publishedBy alone) := by
  by_cases hroomy : settings.Roomy
  · have hstart : Beside settings.capacity? {} {} :=
      ⟨rfl, rfl, fun _ h => absurd h List.not_mem_nil, rfl, .none⟩
    have hfront := publishedBy_front madeAlone (cutAtHeaders_parts steps).1
    rw [publishedBy] at hfront
    have hrun := hstart.run (makesAlike_of_roomy made hroomy)
      (makesAlike_of_roomy madeAlone hroomy) steps deferring
    rw [hfront] at hrun
    exact hrun
  · rw [publishedBy_crowded made hroomy, eq_comm, List.flatMap_eq_nil_iff]
    exact fun segment _ => publishedBy_crowded madeAlone hroomy segment

/-- A batch is answered with a parse failure exactly if it begins with a header that cannot be
read. -/
theorem parseFailure_iff
    (made : Factory.new settings hasRuntime verifier schedule = .ok factory)
    (service : Service StrategyTree) (items : Batch) :
    (∃ item reason, (service.receive factory items).1 =
        .error (.refused (.parseFailure item reason))) ↔
      ∃ error, beginning items = .unreadable error := by
  rw [receive_eq]
  constructor
  · rintro ⟨item, reason, hanswer⟩
    cases hbegins : beginning items with
    | nothing =>
      rw [hbegins] at hanswer
      cases hanswer
    | inside =>
      rw [hbegins] at hanswer
      cases hanswer
    | unreadable error => exact ⟨error, rfl⟩
    | opening header =>
      rw [hbegins] at hanswer
      dsimp only at hanswer
      by_cases hroomy : settings.Roomy
      · obtain ⟨trees, hcreate, -⟩ := create_of_roomy made hroomy service.sessions.length header
        rw [hcreate] at hanswer
        cases hanswer
      · rw [create_of_crowded made hroomy] at hanswer
        cases hanswer
  · rintro ⟨error, hbegins⟩
    rw [hbegins]
    exact ⟨_, _, rfl⟩

/-- A batch with a header that cannot be read leaves a service as it is and tells nothing, so the
run goes on as if the batch had not been received. -/
theorem run_without_unreadable (factory : Factory StrategyTree) {items : Batch}
    {error : RecordError} (unreadable : beginning items = .unreadable error)
    (before after : List ServiceStep) (service : Service StrategyTree) :
    ∃ answers last signals,
      service.run factory (before ++ after) =
        ((service.run factory before).1 ++ answers, last, signals) ∧
      service.run factory (before ++ .receive items :: after) =
        ((service.run factory before).1 ++ .error (parseFailure error) :: answers, last,
          signals) := by
  refine ⟨_, _, _, service_run_append factory service before after, ?_⟩
  rw [service_run_append, Service.run, Service.step, receive_eq, unreadable]
  rfl

/-- A run of a service, with inline sessions or with sessions that have tasks, is cut before every
batch that opens a block. After a last run of the tasks the service has published what each segment
publishes when a fresh service takes it alone, in order, and that is at most one response for each;
the steps before the first segment publish nothing. This holds wherever batches overflow a queue,
checks of signatures crash, blocks fail or are replaced, and whichever way the pool of either
service schedules its jobs. A batch that is answered with a parse failure is one whose header cannot
be read. It leaves every session as it is and tells nothing, and without it the run has the same
other answers, leads to the same service and tells the same. -/
theorem blocks_do_not_interfere
    (made : Factory.new settings hasRuntime verifier schedule = .ok whole)
    (madeAlone : Factory.new settings hasRuntime verifier schedule' = .ok alone)
    (steps : List ServiceStep)
    (deferring : ∀ step ∈ steps, (∃ items, step = .receive items) ∨ step = .drain) :
    ∃ front segments, cutAtHeaders steps = (front, segments) ∧
      front ++ segments.flatten = steps ∧
      (∀ step ∈ front, step.opens = false) ∧
      (∀ segment ∈ segments, IsSegment segment) ∧
      publishedBy whole steps = segments.flatMap (publishedBy alone) ∧
      publishedBy whole front = [] ∧
      (∀ segment ∈ segments, (publishedBy alone segment).length ≤ 1) ∧
      (∀ (service : Service StrategyTree) items,
        (∃ item reason, (service.receive whole items).1 =
          .error (.refused (.parseFailure item reason))) ↔
            ∃ error, beginning items = .unreadable error) ∧
      ∀ items error, beginning items = .unreadable error →
        ∀ (service : Service StrategyTree) before after,
        service.receive whole items = (.error (parseFailure error), service, []) ∧
        ∃ answers last signals,
          service.run whole (before ++ after) =
            ((service.run whole before).1 ++ answers, last, signals) ∧
          service.run whole (before ++ .receive items :: after) =
            ((service.run whole before).1 ++ .error (parseFailure error) :: answers, last,
              signals) := by
  obtain ⟨hfront, hsegments⟩ := cutAtHeaders_parts steps
  refine ⟨_, _, rfl, cutAtHeaders_joined steps, hfront, hsegments,
    publishedBy_eq made madeAlone steps deferring, publishedBy_front made hfront, ?_,
    parseFailure_iff made, ?_⟩
  · intro segment hsegment
    exact length_publishedBy_segment madeAlone (hsegments segment hsegment)
  · intro items error hunreadable service before after
    refine ⟨?_, run_without_unreadable whole hunreadable before after service⟩
    rw [receive_eq, hunreadable]

/-- Two brief blocks, with a run of the tasks after the first, publish what each of them publishes
alone. -/
theorem blocks_do_not_interfere_brief : ∃ factory,
    Factory.new .sequential false (fun _ _ => .ok true) = .ok factory ∧
    publishedBy factory [.receive briefBlock, .drain, .receive briefBlock] =
      publishedBy factory [.receive briefBlock, .drain] ++
        publishedBy factory [.receive briefBlock] := by
  obtain ⟨factory, made⟩ : ∃ factory,
    Factory.new .sequential false (fun _ _ => .ok true) = .ok factory := ⟨_, rfl⟩
  have hopens : (ServiceStep.receive briefBlock).opens = true :=
    (opensBlock_iff briefBlock).mpr ⟨_, beginning_ofHeader ⟨0, .zero, 0⟩ _⟩
  have hcut : cutAtHeaders [.receive briefBlock, .drain, .receive briefBlock] =
      ([], [[.receive briefBlock, .drain], [.receive briefBlock]]) := by
    rw [cutAtHeaders_opens hopens, cutAtHeaders_continues rfl, cutAtHeaders_opens hopens]
    rfl
  obtain ⟨front, segments, hparts, -, -, -, hpublished, -⟩ := blocks_do_not_interfere made made
    [.receive briefBlock, .drain, .receive briefBlock] (by simp)
  obtain ⟨-, rfl⟩ := Prod.mk.inj (hcut.symm.trans hparts)
  refine ⟨factory, made, ?_⟩
  rw [hpublished, List.flatMap_cons, List.flatMap_singleton]

end BlockIntake
