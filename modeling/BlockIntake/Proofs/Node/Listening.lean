import BlockIntake.Node.Demo
import BlockIntake.Proofs.Broadcast
import BlockIntake.Proofs.Verification.WholeBlock

/-!
# What is heard of a node

A node publishes the responses of its service and counts what there is to count. Its logger reads
the responses too, but that changes nothing for anybody else who listens. So whoever has heard every
response to the blocks before, and waits for the response to a block whose batches the node has
received, hears just that one, whether it was there already or comes when the tasks have run.
-/

namespace BlockIntake

open Merkle

namespace Node

variable {node : Node} {receiver position : Nat} {responses : List Response}

/-- Signals are taken in, in order. -/
theorem foldl_absorb (node : Node) (signals : List Signal) :
    signals.foldl absorb node =
      { node with
        events := node.events ++ Signal.logs signals
        tallies := node.tallies ++ Signal.tallies signals
        notifier := (Signal.responses signals).foldl Notifier.publish node.notifier } := by
  induction signals generalizing node with
  | nil => simp [Signal.logs, Signal.tallies, Signal.responses]
  | cons signal signals ih =>
    rw [List.foldl_cons, ih]
    cases signal <;> simp [absorb, Signal.logs, Signal.tallies, Signal.responses]

/-- Nothing changes if a node is given the service that it has. -/
theorem withService_self {service : SelectedService StrategyTree} (h : node.service = service) :
    ({ node with service } : Node) = node := by
  rw [← h]

/-- The node has published these responses, and no others. -/
structure Published (node : Node) (responses : List Response) : Prop where
  /-- All of them are counted. -/
  count : node.notifier.published = responses.length
  /-- The last ones are kept. -/
  keeps : node.notifier.channel.Keeps responses

/-- Whoever reads with this receiver has come this far among the responses that the node has
published. -/
structure Heard (node : Node) (receiver position : Nat) (responses : List Response) : Prop
    extends Published node responses where
  /-- The receiver has come this far. -/
  reads : node.notifier.channel.ReadsAt receiver position
  /-- It is not the one of the logger. -/
  apart : node.logger ≠ some receiver

namespace Heard

/-- The service may change. -/
theorem withService (heard : node.Heard receiver position responses)
    (service : SelectedService StrategyTree) :
    ({ node with service } : Node).Heard receiver position responses :=
  ⟨⟨heard.count, heard.keeps⟩, heard.reads, heard.apart⟩

/-- A response is published. -/
theorem absorb (heard : node.Heard receiver position responses) (signal : Signal) :
    (node.absorb signal).Heard receiver position (responses ++ Signal.responses [signal]) := by
  cases signal with
  | log event =>
    have hnone : Signal.responses [.log event] = [] := rfl
    rw [hnone, List.append_nil]
    exact ⟨⟨heard.count, heard.keeps⟩, heard.reads, heard.apart⟩
  | tally tally =>
    have hnone : Signal.responses [.tally tally] = [] := rfl
    rw [hnone, List.append_nil]
    exact ⟨⟨heard.count, heard.keeps⟩, heard.reads, heard.apart⟩
  | respond response =>
    obtain ⟨hkeeps, -, hcursors⟩ := heard.keeps.send heard.reads response
    refine ⟨⟨?_, hkeeps⟩, ?_, heard.apart⟩
    · rw [List.length_append, ← heard.count]
      rfl
    · rw [Node.absorb, Notifier.publish, Broadcast.ReadsAt, hcursors]
      exact heard.reads

/-- The responses among signals are published, in order. -/
theorem foldl_absorb (heard : node.Heard receiver position responses) (signals : List Signal) :
    (signals.foldl Node.absorb node).Heard receiver position
      (responses ++ Signal.responses signals) := by
  induction signals generalizing node responses with
  | nil =>
    have hnone : Signal.responses [] = [] := rfl
    rw [hnone, List.append_nil]
    exact heard
  | cons signal signals ih =>
    have hsplit : Signal.responses (signal :: signals) =
        Signal.responses [signal] ++ Signal.responses signals :=
      responses_append [signal] signals
    rw [List.foldl_cons, hsplit, ← List.append_assoc]
    exact ih (heard.absorb signal)

/-- Others may have read on. -/
theorem of_read (heard : node.Heard receiver position responses) {channel : Broadcast Response}
    (read : Broadcast.ReadBy (node.logger = some ·) node.notifier.channel channel)
    (events : List LogEvent) :
    ({ node with notifier := { node.notifier with channel }, events } : Node).Heard receiver
      position responses := by
  refine ⟨⟨heard.count, read.keeps heard.keeps⟩, ?_, heard.apart⟩
  rw [Broadcast.ReadsAt, read.cursors receiver heard.apart]
  exact heard.reads

/-- Who has heard everything finds nothing new. -/
theorem receive_nothing (heard : node.Heard receiver responses.length responses) :
    node.notifier.receive receiver = (.empty, node.notifier) := by
  have hreceive := heard.keeps.receive heard.reads (Nat.le_add_right _ _)
  rw [List.getElem?_eq_none le_rfl] at hreceive
  rw [Notifier.receive, hreceive]

/-- Who has heard everything but the last response hears that one next. -/
theorem receive_last {response : Response}
    (heard : node.Heard receiver responses.length (responses ++ [response])) :
    ∃ channel, node.notifier.receive receiver =
        (.value response, { node.notifier with channel }) ∧
      ({ node with notifier := { node.notifier with channel } } : Node).Heard receiver
        (responses.length + 1) (responses ++ [response]) := by
  have hroom := heard.keeps.room
  have hrecent : (responses ++ [response]).length ≤
      responses.length + node.notifier.channel.slots := by
    rw [List.length_append, List.length_singleton]
    omega
  have hreceive := heard.keeps.receive heard.reads hrecent
  rw [List.getElem?_concat_length] at hreceive
  have hreceiver : receiver < node.notifier.channel.cursors.length :=
    (List.getElem?_eq_some_iff.mp heard.reads).1
  refine ⟨{ node.notifier.channel with
    cursors := node.notifier.channel.cursors.set receiver (some (responses.length + 1)) }, ?_,
    ⟨heard.count, ?_⟩, ?_, heard.apart⟩
  · rw [Notifier.receive, hreceive]
  · exact ⟨heard.keeps.live, hroom, heard.keeps.sent, heard.keeps.kept⟩
  · exact List.getElem?_set_self hreceiver

end Heard

/-- A logger that reads changes nothing but the log and what it reads next. -/
theorem exists_runLoggerWithin {logger : Nat} (steps : Nat) (logs : node.logger = some logger) :
    ∃ channel events, node.runLoggerWithin logger steps =
        { node with notifier := { node.notifier with channel }, events } ∧
      Broadcast.ReadBy (node.logger = some ·) node.notifier.channel channel := by
  induction steps generalizing node with
  | zero => exact ⟨node.notifier.channel, node.events, rfl, .refl _ _⟩
  | succ steps ih =>
    rw [runLoggerWithin, Notifier.receive]
    dsimp only
    cases (node.notifier.channel.receive logger).1.logged with
    | none => exact ⟨node.notifier.channel, node.events, rfl, .refl _ _⟩
    | some event =>
      have hfirst : Broadcast.ReadBy (node.logger = some ·) node.notifier.channel _ :=
        .receive logs node.notifier.channel
      have hnext := @ih { node with
        notifier := { node.notifier with channel := (node.notifier.channel.receive logger).2 }
        events := node.events ++ [event] } logs
      obtain ⟨channel, events, hrest, hread⟩ := hnext
      exact ⟨channel, events, hrest, hfirst.trans hread⟩

/-- A turn of the logger changes nothing but the log and what it reads next. -/
theorem exists_runLogger (node : Node) :
    ∃ channel events, node.runLogger =
        { node with notifier := { node.notifier with channel }, events } ∧
      Broadcast.ReadBy (node.logger = some ·) node.notifier.channel channel := by
  obtain hlogger | ⟨logger, hlogger⟩ := Option.eq_none_or_eq_some node.logger
  · have hsame : node.runLogger = node := by rw [runLogger, hlogger]
    exact ⟨node.notifier.channel, node.events, hsame, .refl _ _⟩
  · have hturn : node.runLogger = node.runLoggerWithin logger turnLength := by
      rw [runLogger, hlogger]
    rw [hturn]
    exact exists_runLoggerWithin turnLength hlogger

/-- Nor does its last turn. -/
theorem exists_finishLogger (node : Node) :
    ∃ channel events, node.finishLogger =
        { node with notifier := { node.notifier with channel }, events } ∧
      Broadcast.ReadBy (node.logger = some ·) node.notifier.channel channel := by
  obtain hlogger | ⟨logger, hlogger⟩ := Option.eq_none_or_eq_some node.logger
  · have hsame : node.finishLogger = node := by rw [finishLogger, hlogger]
    exact ⟨node.notifier.channel, node.events, hsame, .refl _ _⟩
  · have hturn : node.finishLogger =
        node.runLoggerWithin logger (node.notifier.channel.kept.length + 1) := by
      rw [finishLogger, hlogger]
    rw [hturn]
    exact exists_runLoggerWithin _ hlogger

/-- The last turns of what waits change nothing either, where only the logger has a turn. -/
theorem exists_lastTurns (quiet : node.runTasks = node.runLogger) :
    ∃ channel events, node.runTasks.finishLogger =
        { node with notifier := { node.notifier with channel }, events } ∧
      Broadcast.ReadBy (node.logger = some ·) node.notifier.channel channel := by
  obtain ⟨middle, logged, hturn, hfirst⟩ := exists_runLogger node
  obtain ⟨channel, events, hlast, hrest⟩ := exists_finishLogger
    { node with notifier := { node.notifier with channel := middle }, events := logged }
  rw [quiet, hturn, hlast]
  exact ⟨channel, events, rfl, hfirst.trans hrest⟩

/-- The service of the node verifies, and it is settled. -/
def Settled (node : Node) : Prop :=
  ∃ service : Service StrategyTree, node.service = .verifying service ∧ service.Settled

/-- Running what waits, where nothing does, is a turn of the logger. -/
theorem Settled.runTasks (settled : node.Settled) : node.runTasks = node.runLogger := by
  obtain ⟨service, hservice, hsettled⟩ := settled
  rw [Node.runTasks, hservice, SelectedService.drain, hsettled.drain]
  exact congrArg Node.runLogger (withService_self hservice)

section Accepting

/-- A node whose service verifies nothing stays as it is when it receives batches. -/
theorem foldlM_receive_accepting (accepting : node.service = .accepting) (number : UInt64)
    (batches : List Batch) :
    batches.foldlM (fun node batch => node.receive number batch) node = .ok node := by
  induction batches with
  | nil => rfl
  | cons items batches ih =>
    have hone : node.receive number items = .ok node := by
      rw [receive, accepting]
      exact congrArg Except.ok (withService_self accepting)
    rw [List.foldlM_cons, hone, ok_bind, ih]

/-- It has no tasks. -/
theorem runTasks_accepting (accepting : node.service = .accepting) :
    node.runTasks = node.runLogger := by
  rw [Node.runTasks, accepting]
  exact congrArg Node.runLogger (withService_self accepting)

end Accepting

section Blocks

variable {service last : Service StrategyTree} {batches : List Batch} {signals : List Signal}

/-- A node that receives batches takes in what its service tells of them. -/
theorem foldlM_receive (number : UInt64) (verifying : node.service = .verifying service)
    (received : service.run node.factory (batches.map .receive) =
      (batches.map fun _ => .ok (), last, signals)) :
    batches.foldlM (fun node batch => node.receive number batch) node =
      .ok (signals.foldl absorb { node with service := .verifying last }) := by
  induction batches generalizing node service signals with
  | nil =>
    obtain ⟨-, hrest⟩ := Prod.mk.inj received
    obtain ⟨rfl, rfl⟩ := Prod.mk.inj hrest
    rw [List.foldlM_nil, List.foldl_nil, withService_self verifying]
    rfl
  | cons items batches ih =>
    rw [List.map_cons, List.map_cons, Service.run, Service.step] at received
    dsimp only at received
    generalize hfirst : service.receive node.factory items = first at received
    obtain ⟨answer, middle, told⟩ := first
    dsimp only at received
    generalize hrest : middle.run node.factory (batches.map .receive) = rest at received
    obtain ⟨answers, final, more⟩ := rest
    dsimp only [Option.toList_some, List.cons_append, List.nil_append] at received
    obtain ⟨hanswers, hlast⟩ := Prod.mk.inj received
    obtain ⟨rfl, rfl⟩ := Prod.mk.inj hlast
    obtain ⟨rfl, rfl⟩ := List.cons.inj hanswers
    have hone : node.receive number items =
        .ok (told.foldl absorb { node with service := .verifying middle }) := by
      rw [receive, verifying, SelectedService.receive, hfirst]
    have hverifying : (told.foldl absorb { node with service := .verifying middle }).service =
        .verifying middle := by rw [foldl_absorb]
    have hfactory : (told.foldl absorb { node with service := .verifying middle }).factory =
        node.factory := by rw [foldl_absorb]
    rw [← hfactory] at hrest
    rw [List.foldlM_cons, hone, ok_bind, ih hverifying hrest, List.foldl_append]
    simp only [foldl_absorb]

/-- A node has taken in signals, and its service is now this one. -/
structure TookIn (node : Node) (last : Service StrategyTree) (signals : List Signal) (next : Node) :
    Prop where
  /-- The settings are the same. -/
  settings : next.settings = node.settings
  /-- So is the factory of sessions. -/
  factory : next.factory = node.factory
  /-- The service is this one. -/
  service : next.service = .verifying last
  /-- The counts were added. -/
  tallies : next.tallies = node.tallies ++ Signal.tallies signals
  /-- The responses were published. -/
  heard : ∀ {receiver position responses}, node.Heard receiver position responses →
    next.Heard receiver position (responses ++ Signal.responses signals)

/-- A node takes in the signals of its service. -/
theorem tookIn_foldl_absorb (node : Node) (last : Service StrategyTree) (signals : List Signal) :
    node.TookIn last signals (signals.foldl absorb { node with service := .verifying last }) := by
  refine ⟨?_, ?_, ?_, ?_, fun heard => (heard.withService _).foldl_absorb signals⟩
  all_goals rw [foldl_absorb]

namespace TookIn

variable {next final : Node} {more : List Signal} {service' : Service StrategyTree}

/-- More signals are taken in later. -/
theorem trans (first : node.TookIn service signals next) (second : next.TookIn last more final) :
    node.TookIn last (signals ++ more) final := by
  refine ⟨second.settings.trans first.settings, second.factory.trans first.factory, second.service,
    ?_, fun heard => ?_⟩
  · rw [second.tallies, first.tallies, tallies_append, List.append_assoc]
  · rw [responses_append, ← List.append_assoc]
    exact second.heard (first.heard heard)

/-- A turn of the logger takes nothing back. -/
theorem runLogger (took : node.TookIn last signals next) :
    node.TookIn last signals next.runLogger := by
  obtain ⟨channel, events, hnext, hread⟩ := exists_runLogger next
  rw [hnext]
  exact ⟨took.settings, took.factory, took.service, took.tallies,
    fun heard => (took.heard heard).of_read hread events⟩

end TookIn

/-- Running what waits takes in what the tasks of the service tell. -/
theorem tookIn_runTasks (verifying : node.service = .verifying service) :
    node.TookIn (service.drain node.factory).1 (service.drain node.factory).2 node.runTasks := by
  have htook := tookIn_foldl_absorb node (service.drain node.factory).1
    (service.drain node.factory).2
  have hrun : node.runTasks = ((service.drain node.factory).2.foldl absorb
      { node with service := .verifying (service.drain node.factory).1 }).runLogger := by
    rw [runTasks, verifying]
    rfl
  rw [hrun]
  exact htook.runLogger

/-- Where there is nothing to hear, the demo has to wait. -/
theorem mustWait_of_heard (heard : node.Heard receiver responses.length responses) (streak : Nat) :
    node.mustWait receiver streak = true := by
  rw [mustWait, heard.receive_nothing]
  exact Bool.or_true _

/-- A node that has responded to one more block, when its response was heard. -/
structure Responded (node : Node) (receiver : Nat) (responses : List Response)
    (response : Response) (next : Node) : Prop where
  /-- The settings are the same. -/
  settings : next.settings = node.settings
  /-- So is the factory of sessions. -/
  factory : next.factory = node.factory
  /-- The service is settled. -/
  settled : next.Settled
  /-- The block and the response were counted. -/
  tallies : next.tallies = node.tallies ++ [.received, tallyOf response]
  /-- The response was heard. -/
  heard : next.Heard receiver (responses.length + 1) (responses ++ [response])

/-- Once the response to a block can be heard, perhaps after waiting, the demo goes on with it. -/
theorem TookIn.respond {received ready : Node} {response : Response} {streak : Nat}
    (took : node.TookIn last signals ready) (settled : last.Settled)
    (heard : node.Heard receiver responses.length responses)
    (tallies : Signal.tallies signals = [.received, tallyOf response])
    (responds : Signal.responses signals = [response])
    (waited : (if received.mustWait receiver streak then received.runTasks else received) = ready)
    (number : UInt64) :
    ∃ turn next, received.awaitResponse receiver streak number = .ok (response, turn, next) ∧
      node.Responded receiver responses response next := by
  have hheard := took.heard heard
  have htallies := took.tallies
  rw [responds] at hheard
  rw [tallies] at htallies
  obtain ⟨channel, hreceive, hlast⟩ := hheard.receive_last
  refine ⟨(if received.mustWait receiver streak then 0 else streak) + 1,
    { ready with notifier := { ready.notifier with channel } }, ?_, took.settings,
    took.factory, ⟨last, took.service, settled⟩, htallies, hlast⟩
  rw [awaitResponse, waited, hreceive]

variable {accepts : Digest → Bytes → Bool} {header : BlockHeader} {hash : Digest}

/-- A node with inline sessions acknowledges a whole block as it receives the last batch. -/
theorem Heard.respond_inline (heard : node.Heard receiver responses.length responses)
    (settled : node.Settled) (stream : SignedStream accepts header hash batches)
    (makes : MakesAlike node.factory (certain accepts) none) (number : UInt64) (streak : Nat) :
    ∃ received, batches.foldlM (fun node batch => node.receive number batch) node = .ok received ∧
      received.settings = node.settings ∧ ∃ turn next, received.awaitResponse receiver streak number =
          .ok (.acknowledged ⟨header.number, hash, false⟩, turn, next) ∧
        node.Responded receiver responses (.acknowledged ⟨header.number, hash, false⟩) next := by
  obtain ⟨service, hservice, hsettled⟩ := settled
  obtain ⟨last, signals, hrun, hlast, htallies, hresponses⟩ := hsettled.receive_inline stream makes
  have hreceived := foldlM_receive number hservice hrun
  have htook := tookIn_foldl_absorb node last signals
  have hcounted : Signal.tallies signals =
      [.received, tallyOf (.acknowledged ⟨header.number, hash, false⟩)] := htallies
  generalize signals.foldl Node.absorb { node with service := .verifying last } = received at *
  refine ⟨received, hreceived, htook.settings, ?_⟩
  -- The tasks have nothing left to do, whether or not the demo has to wait.
  have hwaited := tookIn_runTasks htook.service
  rw [hlast.drain] at hwaited
  by_cases hwaits : received.mustWait receiver streak = true
  · have hready := htook.trans hwaited
    rw [List.append_nil] at hready
    exact hready.respond hlast heard hcounted hresponses (if_pos hwaits) number
  · exact htook.respond hlast heard hcounted hresponses (if_neg hwaits) number

/-- A node whose sessions have tasks responds to a whole block when the demo waits. -/
theorem Heard.respond_queued (heard : node.Heard receiver responses.length responses)
    (settled : node.Settled) (stream : SignedStream accepts header hash batches) {capacity : Nat}
    (makes : MakesAlike node.factory (certain accepts) (some capacity)) (number : UInt64)
    (streak : Nat) :
    ∃ received, batches.foldlM (fun node batch => node.receive number batch) node = .ok received ∧
      received.settings = node.settings ∧ ∃ turn next, received.awaitResponse receiver streak number =
          .ok (responseTo header.number hash (batches.length ≤ max capacity 1), turn, next) ∧
        node.Responded receiver responses
          (responseTo header.number hash (batches.length ≤ max capacity 1)) next := by
  obtain ⟨service, hservice, hsettled⟩ := settled
  obtain ⟨last, signals, hrun, htallies, hresponses, hlast, hone⟩ :=
    hsettled.receive_queued stream makes
  have hreceived := foldlM_receive number hservice hrun
  have htook := tookIn_foldl_absorb node last signals
  generalize signals.foldl Node.absorb { node with service := .verifying last } = received at *
  refine ⟨received, hreceived, htook.settings, ?_⟩
  have hnothing := htook.heard heard
  rw [hresponses, List.append_nil] at hnothing
  have hwaits := mustWait_of_heard hnothing streak
  have hready := htook.trans (tookIn_runTasks htook.service)
  rw [htook.factory] at hready
  refine hready.respond hlast heard ?_ ?_ (if_pos hwaits) number
  · rw [tallies_append, htallies, hone.tallies]
    rfl
  · rw [responses_append, hresponses, hone.responses]
    rfl

/-- A node responds to a whole block. If its sessions have tasks, the block fails when its batches
find no room. -/
theorem Heard.respond (heard : node.Heard receiver responses.length responses)
    (settled : node.Settled) (stream : SignedStream accepts header hash batches)
    {capacity : Option Nat} (makes : MakesAlike node.factory (certain accepts) capacity)
    {room : Prop} [Decidable room]
    (enough : room ↔ ∀ most ∈ capacity, batches.length ≤ max most 1) (number : UInt64)
    (streak : Nat) :
    ∃ received, batches.foldlM (fun node batch => node.receive number batch) node = .ok received ∧
      received.settings = node.settings ∧ ∃ turn next,
        received.awaitResponse receiver streak number =
          .ok (responseTo header.number hash room, turn, next) ∧
        node.Responded receiver responses (responseTo header.number hash room) next := by
  cases capacity with
  | none =>
    have hroom : room := enough.mpr fun _ h => by cases h
    rw [responseTo, if_pos hroom]
    exact heard.respond_inline settled stream makes number streak
  | some capacity =>
    have hroom : room ↔ batches.length ≤ max capacity 1 := by
      rw [enough]
      exact ⟨fun h => h capacity rfl, fun h most hmost => Option.some.inj hmost ▸ h⟩
    have hsame : responseTo header.number hash room =
        responseTo header.number hash (batches.length ≤ max capacity 1) := if_congr hroom rfl rfl
    rw [hsame]
    exact heard.respond_queued settled stream makes number streak

end Blocks

end Node

end BlockIntake
