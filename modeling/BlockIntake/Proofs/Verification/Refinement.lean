import BlockIntake.Proofs.Verification.Acknowledged
import BlockIntake.Proofs.Verification.CatchUp

/-!
# Deferred sessions tell the same

A service whose sessions have tasks may let batches wait. As long as no queue overflows, it owes at
any time what a service with inline sessions has told already and it has not: what its sessions
tell when the batches that wait are handled, the oldest session first. Receiving a batch adds to
what the last session owes, and running the tasks pays everything. So once the tasks have run, both
services have answered and told the same, and their sessions are the same.
-/

namespace BlockIntake

open Merkle Session

/-- The same responses are told, in the same order, and the same counts, in whatever order. -/
structure TellAlike (signals other : List Signal) : Prop where
  /-- The responses are the same. -/
  responses : Signal.responses signals = Signal.responses other
  /-- The counts are the same. -/
  tallies : (Signal.tallies signals).Perm (Signal.tallies other)

namespace TellAlike

variable {signals other more others : List Signal}

/-- What is told in the same order is told alike. -/
theorem of_same (same : TellSame signals other) : TellAlike signals other :=
  ⟨same.2, same.1 ▸ List.Perm.refl _⟩

/-- What is told alike twice over is told alike. -/
theorem trans (alike : TellAlike signals other) (alike' : TellAlike other more) :
    TellAlike signals more :=
  ⟨alike.responses.trans alike'.responses, alike.tallies.trans alike'.tallies⟩

/-- What is told alike later is told alike. -/
theorem append (alike : TellAlike signals other) (alike' : TellAlike more others) :
    TellAlike (signals ++ more) (other ++ others) := by
  constructor
  · rw [responses_append, responses_append, alike.responses, alike'.responses]
  · rw [tallies_append, tallies_append]
    exact alike.tallies.append alike'.tallies

/-- A count may come sooner or later among what is told. -/
theorem swap (tally : Tally) (signals : List Signal) :
    TellAlike (signals ++ [.tally tally]) ([.tally tally] ++ signals) := by
  constructor
  · rw [responses_append, responses_append]
    exact List.append_nil _
  · rw [tallies_append, tallies_append]
    exact List.perm_append_comm

end TellAlike

/-- The order of counts does not matter for the counters. -/
theorem ofTallies_perm {tallies others : List Tally} (h : tallies.Perm others) :
    Metrics.ofTallies tallies = Metrics.ofTallies others := by
  have hcomm : RightCommutative Metrics.add :=
    ⟨fun metrics tally other => by cases tally <;> cases other <;> rfl⟩
  exact h.foldl_eq _

/-- The order of counts does not matter for the exported counters. -/
theorem exportedCounters_perm {tallies others : List Tally} (h : tallies.Perm others) :
    exportedCounters tallies = exportedCounters others := by
  have hfailures : ∀ code, failuresWith code tallies = failuresWith code others := fun code =>
    h.count_eq _
  simp only [exportedCounters, ofTallies_perm h, hfailures]

/-- What the sessions of a service tell when every batch that waits is handled, the oldest session
first. -/
def Service.owed (verifier : Verifier) (service : Service StrategyTree) : List Signal :=
  service.sessions.flatMap (Session.owed verifier)

/-- A service whose sessions have tasks follows one whose sessions are inline: session follows
session, and once what is owed is told, both have told alike. -/
structure Trails (verifier : Verifier) (late prompt : Service StrategyTree)
    (toldLate toldPrompt : List Signal) : Prop where
  /-- The tasks have a runtime. -/
  live : late.runtimeLive = true
  /-- The runtime of the other service exists too. -/
  live' : prompt.runtimeLive = true
  /-- The replaced sessions follow each other. -/
  earlier : List.Forall₂ (Follows verifier) late.earlier prompt.earlier
  /-- The current sessions follow each other, and the one with a task is held. -/
  current : Option.Rel (fun l p => l.held = true ∧ Follows verifier l p) late.current prompt.current
  /-- What one has told and what the other has told or owes is alike. -/
  told : TellAlike toldPrompt (toldLate ++ late.owed verifier)

/-- A warning tells nothing. -/
theorem silent_replacementWarning (service : Service StrategyTree) (block : UInt64) :
    Silent (service.replacementWarning block) := by
  rw [Service.replacementWarning]
  cases service.current with
  | none => exact ⟨rfl, rfl⟩
  | some previous =>
    dsimp only
    split <;> exact ⟨rfl, rfl⟩

/-- Factories that make sessions of the two kinds. -/
structure Paired (verifier : Verifier) (late prompt : Factory StrategyTree) : Prop where
  /-- One has signatures checked as given. -/
  checks : late.verifier = verifier
  /-- So has the other. -/
  checks' : prompt.verifier = verifier
  /-- The sessions they make follow each other. -/
  creates : ∀ earlier earlier' header, ∃ l p, late.create earlier header = .ok l ∧
    prompt.create earlier' header = .ok p ∧ l.held = true ∧ l.waiting = [] ∧ Follows verifier l p

/-- Draining a service runs the tasks of its sessions, the oldest first. -/
theorem drain_eq (factory : Factory StrategyTree) (service : Service StrategyTree) :
    (service.drain factory).1 =
        { service with
          earlier := (Service.runTasks factory service.earlier).1
          current := service.current.map fun session => (session.runTask factory.verifier).1 } ∧
      (service.drain factory).1.sessions = (Service.runTasks factory service.sessions).1 ∧
      (service.drain factory).2 = (Service.runTasks factory service.sessions).2 := by
  rw [Service.drain, Service.sessions, Service.sessions]
  cases hcurrent : service.current with
  | none =>
    simp
  | some session =>
    have htasks : Service.runTasks factory (service.earlier ++ (some session).toList) = _ :=
      runTasks_concat factory service.earlier session
    rw [htasks]
    exact ⟨rfl, rfl, rfl⟩

namespace Trails

variable {verifier : Verifier} {late prompt : Service StrategyTree}
  {toldLate toldPrompt : List Signal} {lateFactory promptFactory : Factory StrategyTree}

/-- Both services have a current session, and the one follows the other, or neither has one. -/
theorem current_cases (trails : Trails verifier late prompt toldLate toldPrompt) :
    (late.current = none ∧ prompt.current = none) ∨ ∃ l p, late.current = some l ∧
      prompt.current = some p ∧ l.held = true ∧ Follows verifier l p := by
  have hcurrent := trails.current
  generalize late.current = session at hcurrent
  generalize prompt.current = other at hcurrent
  cases hcurrent with
  | none => exact Or.inl ⟨rfl, rfl⟩
  | some related => exact Or.inr ⟨_, _, rfl, rfl, related⟩

/-- The sessions follow each other. -/
theorem sessions (trails : Trails verifier late prompt toldLate toldPrompt) :
    List.Forall₂ (Follows verifier) late.sessions prompt.sessions := by
  rw [Service.sessions, Service.sessions]
  refine List.rel_append trails.earlier ?_
  rcases trails.current_cases with ⟨hlate, hprompt⟩ | ⟨l, p, hlate, hprompt, -, hfollows⟩
  · rw [hlate, hprompt]
    exact .nil
  · rw [hlate, hprompt]
    exact .cons hfollows .nil

/-- Both services log something. -/
theorem log (trails : Trails verifier late prompt toldLate toldPrompt) {signals more : List Signal}
    (silent : Silent signals) (silent' : Silent more) :
    Trails verifier late prompt (toldLate ++ signals) (toldPrompt ++ more) := by
  have htold : TellSame (toldLate ++ late.owed verifier)
      (toldLate ++ signals ++ late.owed verifier) :=
    ((TellSame.refl toldLate).append_silent silent).symm.append (.refl _)
  have hmore := (TellSame.refl toldPrompt).append_silent silent'
  exact ⟨trails.live, trails.live', trails.earlier, trails.current,
    (TellAlike.of_same hmore).trans (trails.told.trans (.of_same htold))⟩

/-- Both services count the same. -/
theorem count (trails : Trails verifier late prompt toldLate toldPrompt)
    {signals more : List Signal} (silent : Silent signals) (silent' : Silent more) (tally : Tally) :
    Trails verifier late prompt (toldLate ++ (signals ++ [.tally tally]))
      (toldPrompt ++ (more ++ [.tally tally])) := by
  have hlogged := trails.log silent silent'
  have hcount := hlogged.told.append (TellAlike.of_same (.refl [.tally tally]))
  have hearly := (TellAlike.of_same (.refl (toldLate ++ signals))).append
    (TellAlike.swap tally (late.owed verifier))
  rw [List.append_assoc _ (late.owed verifier)] at hcount
  have hall := hcount.trans hearly
  rw [List.append_assoc toldPrompt, ← List.append_assoc (toldLate ++ signals),
    List.append_assoc toldLate] at hall
  exact ⟨trails.live, trails.live', trails.earlier, trails.current, hall⟩

/-- A batch is handed to the current sessions. -/
theorem route (trails : Trails verifier late prompt toldLate toldPrompt)
    (paired : Paired verifier lateFactory promptFactory) (items : Batch)
    (kept : ∀ session ∈ (late.route lateFactory items).1.sessions, ¬ session.Overflowed) :
    Trails verifier (late.route lateFactory items).1 (prompt.route promptFactory items).1
      (toldLate ++ (late.route lateFactory items).2)
      (toldPrompt ++ (prompt.route promptFactory items).2) := by
  rw [Service.route, Service.route, paired.checks, paired.checks']
  rw [Service.route, paired.checks] at kept
  rcases trails.current_cases with ⟨hlate, hprompt⟩ | ⟨l, p, hlate, hprompt, hheld, hfollows⟩
  · rw [hlate, hprompt]
    exact trails.log ⟨rfl, rfl⟩ ⟨rfl, rfl⟩
  · rw [hlate] at kept
    rw [hlate, hprompt]
    have hkept : ¬ (l.append verifier items).1.Overflowed :=
      kept _ (List.mem_append_right _ (List.mem_singleton_self _))
    obtain ⟨hnext, hheld', hsilent, howes⟩ := hfollows.append hheld items hkept
    have htold := trails.told.append (TellAlike.of_same (.refl (p.append verifier items).2))
    -- What is told by the one is owed by the last session of the other.
    have hfirst : TellSame toldLate (toldLate ++ (l.append verifier items).2) :=
      ((TellSame.refl toldLate).append_silent hsilent).symm
    have hall := hfirst.append
      ((TellSame.refl (late.earlier.flatMap (Session.owed verifier))).append howes)
    refine ⟨trails.live, trails.live', trails.earlier, .some ⟨hheld', hnext⟩, ?_⟩
    simp only [Service.owed, Service.sessions, hlate, Option.toList_some, List.flatMap_append,
      List.flatMap_singleton, List.append_assoc] at htold hall ⊢
    exact htold.trans (.of_same hall)

/-- A session is opened on both sides. -/
theorem opened (trails : Trails verifier late prompt toldLate toldPrompt)
    {l p : Session StrategyTree} (held : l.held = true) (idle : l.waiting = [])
    (follows : Follows verifier l p) :
    Trails verifier (late.opened l) (prompt.opened p) toldLate toldPrompt := by
  have howed : (late.opened l).owed verifier = late.owed verifier := by
    have hnothing := owed_of_idle idle verifier
    rw [Service.owed, Service.owed, Service.sessions, Service.sessions, Service.opened,
      if_pos trails.live]
    cases late.current with
    | none => simp [hnothing]
    | some session =>
      have hreleased : session.release.owed verifier = session.owed verifier := rfl
      simp [hnothing, hreleased]
  refine ⟨trails.live, trails.live', ?_, ?_, howed ▸ trails.told⟩
  · rw [Service.opened, Service.opened]
    refine List.rel_append trails.earlier ?_
    rcases trails.current_cases with ⟨hlate, hprompt⟩ | ⟨l, p, hlate, hprompt, -, hreplaced⟩
    · rw [hlate, hprompt]
      exact .nil
    · rw [hlate, hprompt]
      exact .cons hreplaced.release .nil
  · rw [Service.opened, Service.opened, if_pos trails.live, if_pos trails.live']
    exact .some ⟨held, follows⟩

/-- A batch that is received has the same answer on both sides. -/
theorem receive (trails : Trails verifier late prompt toldLate toldPrompt)
    (paired : Paired verifier lateFactory promptFactory) (items : Batch)
    (kept : ∀ session ∈ (late.receive lateFactory items).2.1.sessions, ¬ session.Overflowed) :
    (prompt.receive promptFactory items).1 = (late.receive lateFactory items).1 ∧
      Trails verifier (late.receive lateFactory items).2.1
        (prompt.receive promptFactory items).2.1
        (toldLate ++ (late.receive lateFactory items).2.2)
        (toldPrompt ++ (prompt.receive promptFactory items).2.2) := by
  cases items with
  | nil => exact ⟨rfl, trails.log ⟨rfl, rfl⟩ ⟨rfl, rfl⟩⟩
  | cons first rest =>
    rw [Service.receive] at kept ⊢
    rw [Service.receive]
    by_cases hkind : first.kind ≠ .blockHeader
    · simp only [if_pos hkind] at kept ⊢
      exact ⟨trivial, trails.route paired (first :: rest) kept⟩
    · simp only [if_neg hkind] at kept ⊢
      cases hheader : first.header with
      | error error => exact ⟨rfl, trails.log ⟨rfl, rfl⟩ ⟨rfl, rfl⟩⟩
      | ok header =>
        obtain ⟨l, p, hlate, hprompt, hheld, hidle, hfollows⟩ :=
          paired.creates late.sessions.length prompt.sessions.length header
        simp only [hheader, hlate, hprompt] at kept ⊢
        have hcounted := trails.count (silent_replacementWarning late header.number)
          (silent_replacementWarning prompt header.number) .received
        have hopened := hcounted.opened hheld hidle hfollows
        have hrouted := hopened.route paired (first :: rest) kept
        rw [List.append_assoc toldLate, List.append_assoc toldPrompt] at hrouted
        exact ⟨trivial, hrouted⟩

/-- Running the tasks of sessions tells what is owed, in order, and then nothing waits. The
induction runs over the sessions. -/
theorem runTasks {sessions others : List (Session StrategyTree)}
    (follows : List.Forall₂ (Follows verifier) sessions others)
    (checks : lateFactory.verifier = verifier) :
    List.Forall₂ (Follows verifier) (Service.runTasks lateFactory sessions).1 others ∧
      (∀ session ∈ (Service.runTasks lateFactory sessions).1, session.waiting = []) ∧
      TellSame (sessions.flatMap (Session.owed verifier))
        (Service.runTasks lateFactory sessions).2 := by
  induction follows with
  | nil => exact ⟨.nil, fun session h => absurd h List.not_mem_nil, .refl []⟩
  | cons first _ ih =>
    obtain ⟨hfollows, hidle, htold⟩ := ih
    obtain ⟨hnext, -, hnothing, hfirst⟩ := first.runTask
    rw [Service.runTasks, checks, List.flatMap_cons]
    refine ⟨.cons hnext hfollows, ?_, hfirst.append htold⟩
    intro session hsession
    rcases List.mem_cons.mp hsession with rfl | hrest
    · exact hnothing
    · exact hidle session hrest

/-- A session that nothing waits for owes nothing, nor do several. -/
theorem flatMap_owed_of_idle {sessions : List (Session StrategyTree)}
    (idle : ∀ session ∈ sessions, session.waiting = []) :
    sessions.flatMap (Session.owed verifier) = [] := by
  rw [List.flatMap_eq_nil_iff]
  exact fun session hsession => owed_of_idle (idle session hsession) verifier

/-- Running the tasks pays everything that is owed. -/
theorem drain (trails : Trails verifier late prompt toldLate toldPrompt)
    (checks : lateFactory.verifier = verifier) :
    Trails verifier (late.drain lateFactory).1 prompt
        (toldLate ++ (late.drain lateFactory).2) toldPrompt ∧
      ∀ session ∈ (late.drain lateFactory).1.sessions, session.waiting = [] := by
  have htold := trails.told
  obtain ⟨hearlier, -, -⟩ := runTasks trails.earlier checks
  obtain ⟨-, hidle, hpaid⟩ := runTasks trails.sessions checks
  obtain ⟨hservice, hsessions, hsignals⟩ := drain_eq lateFactory late
  rw [← hsessions] at hidle
  rw [← hsignals] at hpaid
  have hnothing : (late.drain lateFactory).1.owed verifier = [] := flatMap_owed_of_idle hidle
  have hall : TellAlike toldPrompt (toldLate ++ (late.drain lateFactory).2) :=
    htold.trans (.of_same ((TellSame.refl toldLate).append hpaid))
  refine ⟨⟨?_, trails.live', ?_, ?_, ?_⟩, hidle⟩
  · rw [hservice]
    exact trails.live
  · rw [hservice]
    exact hearlier
  · rw [hservice, checks]
    rcases trails.current_cases with ⟨hlate, hprompt⟩ | ⟨l, p, hlate, hprompt, hheld, hfollows⟩
    · rw [hlate, hprompt]
      exact .none
    · obtain ⟨hnext, hstays, -, -⟩ := hfollows.runTask
      rw [hlate, hprompt]
      exact .some ⟨hstays.trans hheld, hnext⟩
  · rw [hnothing, List.append_nil]
    exact hall

/-- A run of receiving batches and running the tasks has the same answers as receiving the same
batches. -/
theorem run (trails : Trails verifier late prompt toldLate toldPrompt)
    (paired : Paired verifier lateFactory promptFactory) (steps : List ServiceStep)
    (deferring : ∀ step ∈ steps, (∃ items, step = .receive items) ∨ step = .drain)
    (kept : ∀ front, front <+: steps →
      ∀ session ∈ (late.run lateFactory front).2.1.sessions, ¬ session.Overflowed) :
    (prompt.run promptFactory ((receivedIn steps).map .receive)).1 =
        (late.run lateFactory steps).1 ∧
      Trails verifier (late.run lateFactory steps).2.1
        (prompt.run promptFactory ((receivedIn steps).map .receive)).2.1
        (toldLate ++ (late.run lateFactory steps).2.2)
        (toldPrompt ++ (prompt.run promptFactory ((receivedIn steps).map .receive)).2.2) := by
  induction steps generalizing late prompt toldLate toldPrompt with
  | nil =>
    have hsilent : Silent [] := ⟨rfl, rfl⟩
    exact ⟨rfl, trails.log hsilent hsilent⟩
  | cons step steps ih =>
    have hlater : ∀ step ∈ steps, (∃ items, step = .receive items) ∨ step = .drain :=
      fun other h => deferring other (List.mem_cons_of_mem _ h)
    have hkept : ∀ front, front <+: steps → ∀ session ∈
        ((late.step lateFactory step).2.1.run lateFactory front).2.1.sessions,
        ¬ session.Overflowed :=
      fun front hfront => kept (step :: front) ((List.prefix_cons_inj step).mpr hfront)
    rcases deferring step List.mem_cons_self with ⟨items, rfl⟩ | rfl
    · obtain ⟨hanswer, hnext⟩ := trails.receive paired items (hkept [] List.nil_prefix)
      obtain ⟨hanswers, hlast⟩ := ih hnext hlater hkept
      rw [List.append_assoc toldLate, List.append_assoc toldPrompt] at hlast
      refine ⟨?_, hlast⟩
      change [(prompt.receive promptFactory items).1] ++
          ((prompt.receive promptFactory items).2.1.run promptFactory
            ((receivedIn steps).map .receive)).1 =
        [(late.receive lateFactory items).1] ++
          ((late.receive lateFactory items).2.1.run lateFactory steps).1
      rw [hanswer, hanswers]
    · obtain ⟨hnext, -⟩ := trails.drain paired.checks
      obtain ⟨hanswers, hlast⟩ := ih hnext hlater hkept
      rw [List.append_assoc toldLate] at hlast
      exact ⟨hanswers, hlast⟩

end Trails

/-- Valid settings make factories of the two kinds, if a queue can be as long as asked for. -/
theorem paired_of_new {syncSettings asyncSettings : VerificationSettings}
    {hasRuntime hasRuntime' : Bool} {verifier : Verifier} {schedule schedule' : PoolSchedule}
    {sync async : Factory StrategyTree} (isSync : syncSettings.sessionType = .sync)
    (isAsync : asyncSettings.sessionType = .async)
    (room : asyncSettings.queueCapacity ≤ TaskQueue.mostWaiting)
    (madeSync : Factory.new syncSettings hasRuntime verifier schedule = .ok sync)
    (madeAsync : Factory.new asyncSettings hasRuntime' verifier schedule' = .ok async) :
    Paired verifier async sync := by
  obtain ⟨hchecks, hruntime, htrees⟩ := factory_new_ok madeAsync
  obtain ⟨hchecks', -, htrees'⟩ := factory_new_ok madeSync
  obtain ⟨htype, hcapacity⟩ := factory_new_settings madeAsync
  obtain ⟨htype', -⟩ := factory_new_settings madeSync
  rw [isAsync] at htype
  rw [isSync] at htype'
  have hroom : ¬ TaskQueue.mostWaiting < async.queueCapacity := by
    rw [hcapacity]
    exact Nat.not_lt_of_le room
  refine ⟨hchecks, hchecks', fun earlier earlier' header => ?_⟩
  obtain ⟨trees, heq, halike⟩ := htrees earlier
  obtain ⟨trees', heq', halike'⟩ := htrees' earlier'
  refine ⟨queued header trees async.queueCapacity, inline header trees', ?_, ?_, rfl, rfl,
    follows_new halike halike' verifier header async.queueCapacity⟩
  · simp only [Factory.create, heq, htype, hruntime htype, orRefuse, ok_bind, spawn,
      if_neg hroom, orCrash_ok]
  · simp only [Factory.create, heq', htype', orRefuse, ok_bind, pure_eq_ok]

/-- Steps are taken one after the other. -/
theorem service_run_append (factory : Factory StrategyTree) (service : Service StrategyTree)
    (front back : List ServiceStep) :
    service.run factory (front ++ back) =
      ((service.run factory front).1 ++ ((service.run factory front).2.1.run factory back).1,
        ((service.run factory front).2.1.run factory back).2.1,
        (service.run factory front).2.2 ++
          ((service.run factory front).2.1.run factory back).2.2) := by
  induction front generalizing service with
  | nil => rfl
  | cons step front ih => simp only [List.cons_append, Service.run, ih, List.append_assoc]

/-- A session that has nothing waiting has come as far as an inline session. -/
structure CameAsFar (late prompt : Session StrategyTree) : Prop where
  /-- Nothing waits. -/
  idle : late.waiting = []
  /-- The block is the same. -/
  block : late.verification.block = prompt.verification.block
  /-- The state is the same. -/
  state : late.verification.state = prompt.verification.state
  /-- The result is the same. -/
  result : late.verification.result = prompt.verification.result

/-- A session that follows another has come as far if nothing waits. -/
theorem Session.Follows.cameAsFar {verifier : Verifier} {late prompt : Session StrategyTree}
    (follows : Follows verifier late prompt) (idle : late.waiting = []) :
    CameAsFar late prompt := by
  have hagree := follows.agree_of_idle idle
  exact ⟨idle, hagree.block.symm, hagree.state.symm, hagree.result.symm⟩

/-- Where nothing waits, every session has come as far as the one it follows. -/
theorem Trails.cameAsFar {verifier : Verifier} {late prompt : Service StrategyTree}
    {toldLate toldPrompt : List Signal}
    (trails : Trails verifier late prompt toldLate toldPrompt)
    (idle : ∀ session ∈ late.sessions, session.waiting = []) :
    List.Forall₂ CameAsFar late.sessions prompt.sessions ∧
      late.currentBlock = prompt.currentBlock := by
  constructor
  · have hsessions := trails.sessions
    generalize late.sessions = sessions at hsessions idle
    generalize prompt.sessions = others at hsessions
    induction hsessions with
    | nil => exact .nil
    | cons first _ ih =>
      exact .cons (first.cameAsFar (idle _ List.mem_cons_self))
        (ih fun session h => idle session (List.mem_cons_of_mem _ h))
  · rw [Service.currentBlock, Service.currentBlock]
    rcases trails.current_cases with ⟨hlate, hprompt⟩ | ⟨l, p, hlate, hprompt, -, hfollows⟩
    · rw [hlate, hprompt, Option.map_none]
    · have hmem : l ∈ late.sessions := by
        rw [Service.sessions, hlate]
        exact List.mem_append_right _ (List.mem_singleton_self l)
      have hfar := hfollows.cameAsFar (idle l hmem)
      rw [hlate, hprompt, Option.map_some, Option.map_some, hfar.block, hfar.state]

/-- Two services over factories made from valid settings receive the same batches, the one with
sessions that have tasks and the other with inline sessions. The tasks run at any time, and at the
end, and no queue overflows. Then every batch has had the same answer, the same responses were
published in the same order, the same was counted, the current sessions are for the same block and
in the same state, and every session, replaced or not, has come as far. The checks of signatures
may crash, and the trees may be of different kinds. -/
theorem async_refines_sync {syncSettings asyncSettings : VerificationSettings}
    {hasRuntime hasRuntime' : Bool} {verifier : Verifier} {schedule schedule' : PoolSchedule}
    {sync async : Factory StrategyTree} (isSync : syncSettings.sessionType = .sync)
    (isAsync : asyncSettings.sessionType = .async)
    (room : asyncSettings.queueCapacity ≤ TaskQueue.mostWaiting)
    (madeSync : Factory.new syncSettings hasRuntime verifier schedule = .ok sync)
    (madeAsync : Factory.new asyncSettings hasRuntime' verifier schedule' = .ok async)
    (steps : List ServiceStep)
    (deferring : ∀ step ∈ steps, (∃ items, step = .receive items) ∨ step = .drain)
    (kept : ∀ front, front <+: steps →
      ∀ session ∈ (Service.run async {} front).2.1.sessions, ¬ session.Overflowed) :
    ∃ answers late prompt told told',
      Service.run async {} (steps ++ [.drain]) = (answers, late, told) ∧
      Service.run sync {} ((receivedIn steps).map .receive) = (answers, prompt, told') ∧
      Signal.responses told = Signal.responses told' ∧
      Metrics.ofTallies (Signal.tallies told) = Metrics.ofTallies (Signal.tallies told') ∧
      exportedCounters (Signal.tallies told) = exportedCounters (Signal.tallies told') ∧
      late.currentBlock = prompt.currentBlock ∧
      List.Forall₂ CameAsFar late.sessions prompt.sessions := by
  have hpaired := paired_of_new isSync isAsync room madeSync madeAsync
  have hstart : Trails verifier ({} : Service StrategyTree) {} [] [] :=
    ⟨rfl, rfl, .nil, .none, .of_same (.refl [])⟩
  obtain ⟨hanswers, htrails⟩ := hstart.run hpaired steps deferring kept
  obtain ⟨hlast, hidle⟩ := htrails.drain hpaired.checks
  obtain ⟨hsessions, hcurrent⟩ := hlast.cameAsFar hidle
  have hnothing : (((Service.run async {} steps).2.1.drain async).1).owed verifier = [] :=
    Trails.flatMap_owed_of_idle hidle
  have htold := hlast.told
  rw [hnothing, List.append_nil, List.nil_append, List.nil_append] at htold
  have hrun : Service.run async {} (steps ++ [.drain]) =
      ((Service.run async {} steps).1, ((Service.run async {} steps).2.1.drain async).1,
        (Service.run async {} steps).2.2 ++ ((Service.run async {} steps).2.1.drain async).2) := by
    rw [service_run_append]
    simp [Service.run, Service.step]
  have hsync : Service.run sync {} ((receivedIn steps).map .receive) =
      ((Service.run async {} steps).1, (Service.run sync {} ((receivedIn steps).map .receive)).2) :=
    Prod.ext hanswers rfl
  exact ⟨_, _, _, _, _, hrun, hsync, htold.responses.symm, (ofTallies_perm htold.tallies).symm,
    (exportedCounters_perm htold.tallies).symm, hcurrent, hsessions⟩

/-- A brief block that is received in two batches is verified alike by a service with tasks and
combining trees and by one with inline sessions and trees that keep their leaves. -/
theorem async_refines_sync_brief : ∃ sync async,
    Factory.new .sequential false (fun _ _ => .ok true) = .ok sync ∧
    Factory.new {} true (fun _ _ => .ok true) = .ok async ∧
    ∃ answers late prompt told told',
      Service.run async {} [.receive [.ofHeader ⟨0, .zero, 0⟩],
        .receive [.ofProof ⟨0, .zero, .zero, []⟩], .drain] = (answers, late, told) ∧
      Service.run sync {} [.receive [.ofHeader ⟨0, .zero, 0⟩],
        .receive [.ofProof ⟨0, .zero, .zero, []⟩]] = (answers, prompt, told') ∧
      Signal.responses told = Signal.responses told' ∧
      late.currentBlock = prompt.currentBlock := by
  obtain ⟨sync, madeSync⟩ : ∃ sync, Factory.new .sequential false (fun _ _ => .ok true) =
    .ok sync := ⟨_, rfl⟩
  obtain ⟨async, madeAsync, trees, hcreate⟩ : ∃ async,
      Factory.new {} true (fun _ _ => .ok true) = .ok async ∧ ∃ trees,
        async.create 0 ⟨0, .zero, 0⟩ = .ok (.queued ⟨0, .zero, 0⟩ trees 1024) :=
    ⟨_, rfl, _, rfl⟩
  have hheader : (Item.ofHeader ⟨0, .zero, 0⟩).header = .ok ⟨0, .zero, 0⟩ := by decide
  have hkind : (Item.ofHeader ⟨0, .zero, 0⟩).kind = .blockHeader := rfl
  have hkind' : (Item.ofProof ⟨0, .zero, .zero, []⟩).kind ≠ .blockHeader := by decide
  have kept : ∀ front : List ServiceStep, front <+: [.receive [.ofHeader ⟨0, .zero, 0⟩],
      .receive [.ofProof ⟨0, .zero, .zero, []⟩]] →
      ∀ session ∈ (Service.run async {} front).2.1.sessions, ¬ session.Overflowed := by
    intro front hfront session hsession
    rcases List.prefix_cons_iff.mp hfront with rfl | ⟨back, rfl, hback⟩
    · exact absurd hsession List.not_mem_nil
    · rcases List.prefix_cons_iff.mp hback with rfl | ⟨rest, rfl, hrest⟩
      · simp [Service.run, Service.step, Service.receive, hkind, hheader, hcreate,
          Service.opened, Service.route, Session.append, queued, Service.sessions] at hsession
        simp [hsession, Overflowed]
      · obtain rfl := List.prefix_nil.mp hrest
        simp [Service.run, Service.step, Service.receive, hkind, hkind', hheader, hcreate,
          Service.opened, Service.route, Session.append, queued, Service.sessions] at hsession
        simp [hsession, Overflowed]
  obtain ⟨answers, late, prompt, told, told', hasync, hsync, hresponses, -, -, hcurrent, -⟩ :=
    async_refines_sync rfl rfl (by decide) madeSync madeAsync
      [.receive [.ofHeader ⟨0, .zero, 0⟩], .receive [.ofProof ⟨0, .zero, .zero, []⟩]]
      (by simp) kept
  exact ⟨sync, async, madeSync, madeAsync, answers, late, prompt, told, told', hasync, hsync,
    hresponses, hcurrent⟩

/-- With a queue that is asked to be longer than any can be, there is no session, although no queue
overflows, and so the answers are not the same. -/
theorem async_refines_sync_no_room : ∃ sync async,
    Factory.new .sequential false (fun _ _ => .ok true) = .ok sync ∧
    Factory.new { sessionType := .async, hasher := .naive, queueCapacity := 18446744073709551615 }
      true (fun _ _ => .ok true) = .ok async ∧
    (∀ front, front <+: [.receive [.ofHeader ⟨0, .zero, 0⟩]] →
      ∀ session ∈ (Service.run async {} front).2.1.sessions, ¬ session.Overflowed) ∧
    (Service.run async {} [.receive [.ofHeader ⟨0, .zero, 0⟩], .drain]).1 ≠
      (Service.run sync {} [.receive [.ofHeader ⟨0, .zero, 0⟩]]).1 := by
  obtain ⟨sync, madeSync, trees, hsync⟩ : ∃ sync,
      Factory.new .sequential false (fun _ _ => .ok true) = .ok sync ∧ ∃ trees,
        sync.create 0 ⟨0, .zero, 0⟩ = .ok (.inline ⟨0, .zero, 0⟩ trees) := ⟨_, rfl, _, rfl⟩
  obtain ⟨async, madeAsync, hasync⟩ : ∃ async,
      Factory.new { sessionType := .async, hasher := .naive, queueCapacity := 18446744073709551615 }
        true (fun _ _ => .ok true) = .ok async ∧
        async.create 0 ⟨0, .zero, 0⟩ =
          .error (.crashed (.noRoom 18446744073709551615)) := by
    refine ⟨_, rfl, ?_⟩
    have hroom : TaskQueue.mostWaiting < 18446744073709551615 := by decide
    simp [Factory.create, VerificationSettings.newTree, orRefuse, spawn, hroom]
  have hheader : (Item.ofHeader ⟨0, .zero, 0⟩).header = .ok ⟨0, .zero, 0⟩ := by decide
  have hkind : (Item.ofHeader ⟨0, .zero, 0⟩).kind = .blockHeader := rfl
  have hsessions : ({} : Service StrategyTree).sessions.length = 0 := rfl
  refine ⟨sync, async, madeSync, madeAsync, ?_, ?_⟩
  · intro front hfront session hsession
    rcases List.prefix_cons_iff.mp hfront with rfl | ⟨back, rfl, hback⟩
    · exact absurd hsession List.not_mem_nil
    · obtain rfl := List.prefix_nil.mp hback
      simp [Service.run, Service.step, Service.receive, hkind, hheader, hasync,
        Service.sessions] at hsession
  · simp [Service.run, Service.step, Service.receive, hkind, hheader, hsessions, hasync, hsync]

end BlockIntake
