import BlockIntake.Proofs.Node.Blocks
import BlockIntake.Proofs.Node.Listening

/-!
# What a demo reports

A demo streams its blocks one after the other. If the service of the node verifies, it has exactly
one response to each of them before it goes on to the next, and what kind of response it is depends
on the settings alone: all blocks are acknowledged, or all of them fail because there are more
batches in a block than can wait. A service that accepts everything responds to nothing. Either way
the report, the counters and the notifier agree. All of this is so as long as the number of items is
a 64-bit integer; a demo with more of them crashes when it adds up those of its blocks.
-/

namespace BlockIntake

open Merkle

namespace NodeSettings

variable {settings : NodeSettings}

/-- Sessions keep up with the blocks of the demo: they handle batches as these are appended, or
their queues have room for all batches of a block. -/
def KeepsUp (settings : NodeSettings) : Prop :=
  settings.verification.sessionType = .sync ∨
    blockLength settings.demo.eventsPerBlock ⌈/⌉ settings.demo.itemsPerBatch ≤
      settings.verification.queueCapacity

instance : Decidable settings.KeepsUp :=
  inferInstanceAs (Decidable (_ ∨ _))

/-- The response to a block of the demo. -/
def responseTo (settings : NodeSettings) (block : ProducedBlock) : Response :=
  BlockIntake.responseTo block.number block.hash settings.KeepsUp

/-- Valid settings have what a demo needs. -/
theorem validate_ok (valid : settings.validate = .ok ()) :
    settings.verification.validate = .ok () ∧ 0 < settings.demo.itemsPerBatch := by
  obtain ⟨⟨⟩, hverification, hrest⟩ := exists_of_bind_ok valid
  constructor
  · cases h : settings.verification.validate with
    | ok => rfl
    | error error =>
      rw [h] at hverification
      cases hverification
  · by_contra hzero
    have hnone : settings.demo.itemsPerBatch = 0 := by omega
    rw [if_pos hnone] at hrest
    cases hrest

/-- With valid settings a queue has room for a batch. -/
theorem queueCapacity_pos (valid : settings.validate = .ok ()) :
    0 < settings.verification.queueCapacity := by
  have hverification := (validate_ok valid).1
  by_contra hzero
  have hnone : settings.verification.queueCapacity = 0 := by omega
  rw [VerificationSettings.validate, hnone] at hverification
  split at hverification <;> cases hverification

/-- Sessions keep up with the demo if all batches of a block may wait. -/
theorem keepsUp_iff (valid : settings.validate = .ok ()) :
    settings.KeepsUp ↔ ∀ most ∈ settings.verification.capacity?,
      blockLength settings.demo.eventsPerBlock ⌈/⌉ settings.demo.itemsPerBatch ≤ max most 1 := by
  have hpositive := queueCapacity_pos valid
  have hmost : max settings.verification.queueCapacity 1 = settings.verification.queueCapacity := by
    omega
  rw [KeepsUp, VerificationSettings.capacity?]
  cases settings.verification.sessionType with
  | sync => exact iff_of_true (Or.inl rfl) fun _ h => by cases h
  | async =>
    constructor
    · rintro (hsync | hroom) most hsome
      · cases hsync
      · obtain rfl := Option.some.inj hsome
        rw [hmost]
        exact hroom
    · intro hroom
      have hone := hroom _ rfl
      rw [hmost] at hone
      exact Or.inr hone

/-- With valid settings a factory can be made where there is a runtime. -/
theorem exists_factory (valid : settings.validate = .ok ()) (verifier : Verifier)
    (schedule : PoolSchedule) :
    ∃ factory, Factory.new settings.verification true verifier schedule = .ok factory := by
  have hruntime : ¬ (settings.verification.sessionType = .async ∧ true = false) :=
    fun h => Bool.noConfusion h.2
  simp only [Factory.new, (validate_ok valid).1, Except.mapError, ok_bind, if_neg hruntime,
    pure_eq_ok]
  exact ⟨_, rfl⟩

end NodeSettings

/-- Streaming blocks one after the other keeps what streaming a single one keeps, up to the given
number of blocks. -/
theorem Demo.exists_steps {Inv : List ProducedBlock → Demo → Prop} {most : Nat}
    (step : ∀ {done demo}, Inv done demo → done.length < most →
      ∃ block next, demo.producer.next = .ok (block, next.producer) ∧ demo.step = .ok next ∧
        Inv (done ++ [block]) next)
    (count : Nat) {done : List ProducedBlock} {demo : Demo} (inv : Inv done demo)
    (within : done.length + count ≤ most) :
    ∃ blocks rest, demo.producer.take count = .ok (blocks, rest) ∧ blocks.length = count ∧
      ∀ number ≤ count, ∃ next, Demo.steps number demo = .ok next ∧
        Inv (done ++ blocks.take number) next := by
  induction count generalizing done demo with
  | zero =>
    refine ⟨[], demo.producer, rfl, rfl, fun number h => ⟨demo, ?_, ?_⟩⟩
    · obtain rfl := Nat.le_zero.mp h
      rfl
    · rw [List.take_nil, List.append_nil]
      exact inv
  | succ count ih =>
    obtain ⟨block, next, hnext, hstep, hinv⟩ := step inv (by omega)
    have hwithin : (done ++ [block]).length + count ≤ most := by
      rw [List.length_append, List.length_singleton]
      omega
    obtain ⟨blocks, rest, htake, hlength, hall⟩ := ih hinv hwithin
    refine ⟨block :: blocks, rest, ?_, congrArg (· + 1) hlength, fun number h => ?_⟩
    · rw [Producer.take, hnext, ok_bind]
      dsimp only
      rw [htake]
      rfl
    · cases number with
      | zero =>
        rw [List.take_zero, List.append_nil]
        exact ⟨demo, rfl, inv⟩
      | succ number =>
        obtain ⟨last, hlast, hkept⟩ := hall number (by omega)
        rw [List.append_assoc] at hkept
        refine ⟨last, ?_, hkept⟩
        rw [Demo.steps, hstep, ok_bind, hlast]

namespace Demo

variable {settings : NodeSettings} {demo : Demo} {done : List ProducedBlock} {count : Nat}

/-- A demo has streamed so many blocks. -/
structure Streamed (settings : NodeSettings) (count : Nat) (demo : Demo) : Prop where
  /-- The node has these settings. -/
  same : demo.node.settings = settings
  /-- The blocks have the shape that the settings give them. -/
  shape : demo.producer.eventsPerBlock = settings.demo.eventsPerBlock ∧
    demo.producer.itemsPerBatch = settings.demo.itemsPerBatch
  /-- The next block is the one after those. -/
  number : demo.producer.nextNumber.toNat = count
  /-- The report has the number of all blocks. -/
  blocks : demo.report.blocks = settings.demo.blocks
  /-- It has the number of items so far. -/
  items : demo.report.items = count * blockLength settings.demo.eventsPerBlock

/-- The next block is a whole block, and when it is streamed one more has been. -/
theorem Streamed.next (streamed : demo.Streamed settings count)
    (valid : settings.validate = .ok ()) (time : 1700000000 + count * 2 < UInt64.size)
    (leaves : ∀ side, sideLength settings.demo.eventsPerBlock side ≤ maxLeaves) :
    ∃ block header producer, demo.producer.next = .ok (block, producer) ∧
      block.number = header.number ∧ block.number.toNat = count ∧
      SignedStream (fun hash signature => signature == hash.bytes) header block.hash
        block.batches ∧
      block.batches.length =
        blockLength settings.demo.eventsPerBlock ⌈/⌉ settings.demo.itemsPerBatch ∧
      demo.report.items + block.itemCount =
        (count + 1) * blockLength settings.demo.eventsPerBlock ∧
      ∀ next : Demo, next.node.settings = demo.node.settings → next.producer = producer →
        next.report.blocks = demo.report.blocks →
        next.report.items = demo.report.items + block.itemCount →
        next.Streamed settings (count + 1) := by
  obtain ⟨hevents, hbatch⟩ := streamed.shape
  have htime : 1700000000 + demo.producer.nextNumber.toNat * 2 < UInt64.size := by
    rw [streamed.number]
    exact time
  have hroom : ∀ side, sideLength demo.producer.eventsPerBlock side ≤ maxLeaves := by
    rw [hevents]
    exact leaves
  obtain ⟨block, header, proof, hnext, hands⟩ := Producer.exists_next htime hroom
  have hpositive : 0 < demo.producer.itemsPerBatch := by
    rw [hbatch]
    exact (NodeSettings.validate_ok valid).2
  have hlength := hands.length_batches hpositive
  rw [hevents, hbatch] at hlength
  have hcount : block.number.toNat = count := by
    rw [hands.number]
    exact streamed.number
  have htotal : demo.report.items + block.itemCount =
      (count + 1) * blockLength settings.demo.eventsPerBlock := by
    rw [hands.itemCount, streamed.items, hevents, Nat.succ_mul]
  refine ⟨block, header, _, hnext, hands.number.trans hands.opened.1.symm, hcount,
    hands.stream hroom, hlength, htotal, ?_⟩
  intro next hsettings hproducer hblocks hitems
  refine ⟨hsettings.trans streamed.same, ?_, ?_, hblocks.trans streamed.blocks,
    hitems.trans htotal⟩
  · rw [hproducer]
    exact streamed.shape
  · have hsize : UInt64.size = 2 ^ 64 := rfl
    have hone : (1 : UInt64).toNat = 1 := rfl
    rw [hproducer, UInt64.toNat_add, streamed.number, hone]
    omega

/-- A block whose items are too many to be counted with those before is a crash. -/
theorem Streamed.crashes (streamed : demo.Streamed settings count)
    (valid : settings.validate = .ok ()) (time : 1700000000 + count * 2 < UInt64.size)
    (leaves : ∀ side, sideLength settings.demo.eventsPerBlock side ≤ maxLeaves)
    (full : UInt64.size ≤ (count + 1) * blockLength settings.demo.eventsPerBlock) :
    demo.step = .error (.crashed .sumOverflow) := by
  obtain ⟨block, header, producer, hnext, -, -, -, -, htotal, -⟩ := streamed.next valid time leaves
  rw [← htotal] at full
  rw [Demo.step, hnext]
  simp only [Except.mapError, ok_bind, checkedSum_of_le full, orCrash_error, error_bind]

/-- A demo whose node has responded to every block so far. -/
structure Answered (settings : NodeSettings) (done : List ProducedBlock) (demo : Demo) : Prop
    extends Streamed settings done.length demo where
  /-- The blocks are numbered in order. -/
  numbers : done.map (·.number.toNat) = List.range done.length
  /-- The node makes its sessions as the settings have it. -/
  makes : MakesAlike demo.node.factory Verifier.hashEcho settings.verification.capacity?
  /-- No task runs. -/
  settled : demo.node.Settled
  /-- The responses were published in the order of the blocks, and the demo has heard them. -/
  heard : demo.node.Heard demo.receiver (done.map settings.responseTo).length
    (done.map settings.responseTo)
  /-- Either all blocks were acknowledged or none. -/
  acknowledged : demo.report.acknowledged = if settings.KeepsUp then done.length else 0
  /-- The others have failed. -/
  failed : demo.report.failed = if settings.KeepsUp then 0 else done.length
  /-- The counters of the node agree with the report. -/
  metrics : demo.node.metrics =
    ⟨done.length, demo.report.acknowledged, demo.report.failed⟩

/-- The response to a block is counted. -/
theorem count_responseTo (report : DemoReport) (block : ProducedBlock) (room : Prop)
    [Decidable room] :
    Demo.count report block (responseTo block.number block.hash room) =
      .ok { report with
        acknowledged := report.acknowledged + if room then 1 else 0
        failed := report.failed + if room then 0 else 1 } := by
  rw [responseTo]
  split <;> simp [Demo.count]

/-- The response to a block is counted by the node as well. -/
theorem ofTallies_responseTo (tallies : List Tally) (number : UInt64) (hash : Digest) (room : Prop)
    [Decidable room] :
    Metrics.ofTallies (tallies ++ [.received, tallyOf (responseTo number hash room)]) =
      ⟨(Metrics.ofTallies tallies).received + 1,
        (Metrics.ofTallies tallies).verified + if room then 1 else 0,
        (Metrics.ofTallies tallies).failed + if room then 0 else 1⟩ := by
  rw [Metrics.ofTallies, List.foldl_append, responseTo]
  split <;> rfl

/-- One more block has been streamed, and its response was heard and counted. -/
theorem Answered.concat (answered : demo.Answered settings done) {block : ProducedBlock}
    {next : Demo} (streamed : next.Streamed settings (done.length + 1))
    (number : block.number.toNat = done.length)
    (responded : demo.node.Responded next.receiver (done.map settings.responseTo)
      (settings.responseTo block) next.node)
    (acknowledged : next.report.acknowledged =
      demo.report.acknowledged + if settings.KeepsUp then 1 else 0)
    (failed : next.report.failed = demo.report.failed + if settings.KeepsUp then 0 else 1) :
    next.Answered settings (done ++ [block]) := by
  have hmore : (done ++ [block]).length = done.length + 1 := by
    rw [List.length_append, List.length_singleton]
  have hmetrics : next.node.metrics =
      ⟨done.length + 1, next.report.acknowledged, next.report.failed⟩ := by
    rw [Node.metrics, responded.tallies, NodeSettings.responseTo, ofTallies_responseTo,
      ← Node.metrics, answered.metrics, acknowledged, failed]
  refine ⟨?_, ?_, ?_, responded.settled, ?_, ?_, ?_, ?_⟩
  · rw [hmore]
    exact streamed
  · rw [hmore, List.range_succ, List.map_append, answered.numbers, List.map_singleton, number]
  · rw [responded.factory]
    exact answered.makes
  · rw [List.map_append, List.length_append]
    exact responded.heard
  · rw [hmore, acknowledged, answered.acknowledged]
    split <;> rfl
  · rw [hmore, failed, answered.failed]
    split <;> rfl
  · rw [hmore]
    exact hmetrics

/-- Streaming one more block has one more response. -/
theorem Answered.step (answered : demo.Answered settings done)
    (production : settings.verification.serviceType = .production)
    (valid : settings.validate = .ok ()) (time : 1700000000 + done.length * 2 < UInt64.size)
    (leaves : ∀ side, sideLength settings.demo.eventsPerBlock side ≤ maxLeaves)
    (fits : (done.length + 1) * blockLength settings.demo.eventsPerBlock < UInt64.size) :
    ∃ block next, demo.producer.next = .ok (block, next.producer) ∧ demo.step = .ok next ∧
      next.Answered settings (done ++ [block]) := by
  obtain ⟨block, header, producer, hnext, hnumber, hcounted, hstream, hlength, htotal,
    hstreamed⟩ := answered.next valid time leaves
  have hitems := checkedSum_of_lt (htotal.trans_lt fits)
  have henough : settings.KeepsUp ↔
      ∀ most ∈ settings.verification.capacity?, block.batches.length ≤ max most 1 := by
    rw [hlength]
    exact NodeSettings.keepsUp_iff valid
  obtain ⟨received, hreceived, hsettings, turn, node, hawait, hresponded⟩ :=
    answered.heard.respond answered.settled hstream answered.makes henough block.number demo.streak
  rw [← hnumber] at hawait hresponded
  have hproduction : received.settings.verification.serviceType = .production := by
    rw [hsettings, answered.same]
    exact production
  have hcount := count_responseTo
    { demo.report with items := demo.report.items + block.itemCount } block settings.KeepsUp
  refine ⟨block, { demo with
    node, producer
    streak := turn
    report := { demo.report with
      items := demo.report.items + block.itemCount
      acknowledged := demo.report.acknowledged + if settings.KeepsUp then 1 else 0
      failed := demo.report.failed + if settings.KeepsUp then 0 else 1 } }, hnext, ?_, ?_⟩
  · rw [Demo.step, hnext]
    simp only [Except.mapError, ok_bind, hitems, orCrash_ok, hreceived, hproduction, hawait,
      orRefuse_ok, hcount, pure_eq_ok]
  · exact answered.concat (hstreamed _ hresponded.settings rfl rfl rfl) hcounted hresponded rfl rfl

/-- A demo of a node that accepts everything. -/
structure Untouched (settings : NodeSettings) (node : Node) (done : List ProducedBlock)
    (demo : Demo) : Prop extends Streamed settings done.length demo where
  /-- The node is as it was. -/
  untouched : demo.node = node
  /-- No block was acknowledged. -/
  acknowledged : demo.report.acknowledged = 0
  /-- None has failed. -/
  failed : demo.report.failed = 0

/-- Streaming one more block leaves the node alone. -/
theorem Untouched.step {node : Node} (untouched : demo.Untouched settings node done)
    (accepting : node.service = .accepting)
    (noOp : settings.verification.serviceType = .noOp)
    (valid : settings.validate = .ok ()) (time : 1700000000 + done.length * 2 < UInt64.size)
    (leaves : ∀ side, sideLength settings.demo.eventsPerBlock side ≤ maxLeaves)
    (fits : (done.length + 1) * blockLength settings.demo.eventsPerBlock < UInt64.size) :
    ∃ block next, demo.producer.next = .ok (block, next.producer) ∧ demo.step = .ok next ∧
      next.Untouched settings node (done ++ [block]) := by
  obtain ⟨block, header, producer, hnext, -, -, -, -, htotal, hstreamed⟩ :=
    untouched.next valid time leaves
  have hitems := checkedSum_of_lt (htotal.trans_lt fits)
  have haccepting : demo.node.service = .accepting := by
    rw [untouched.untouched]
    exact accepting
  have hreceived := Node.foldlM_receive_accepting haccepting block.number block.batches
  have hnoOp : demo.node.settings.verification.serviceType = .noOp := by
    rw [untouched.same]
    exact noOp
  refine ⟨block, { demo with
    producer
    report := { demo.report with items := demo.report.items + block.itemCount } }, hnext, ?_, ?_⟩
  · rw [Demo.step, hnext]
    simp only [Except.mapError, ok_bind, hitems, orCrash_ok, hreceived, hnoOp, pure_eq_ok]
  · refine ⟨?_, untouched.untouched, untouched.acknowledged, untouched.failed⟩
    rw [List.length_append, List.length_singleton]
    exact hstreamed _ rfl rfl rfl rfl

end Demo

/-- A node that has done nothing yet. -/
structure Node.Fresh (settings : NodeSettings) (node : Node) : Prop where
  /-- It has these settings. -/
  same : node.settings = settings
  /-- Its service is the one that the settings select. -/
  service : node.service = .ofType settings.verification.serviceType
  /-- Nothing is counted. -/
  tallies : node.tallies = []
  /-- Nothing is published. -/
  published : node.Published []
  /-- The logger, if there is one, has subscribed. -/
  logger : ∀ logger, node.logger = some logger → logger < node.notifier.channel.cursors.length

namespace Node.Fresh

variable {settings : NodeSettings} {node : Node}

/-- The logger may be started. -/
theorem startLogger (fresh : node.Fresh settings) : node.startLogger.Fresh settings := by
  refine ⟨fresh.same, fresh.service, fresh.tallies,
    ⟨fresh.published.count, fresh.published.keeps.subscribe.1⟩, ?_⟩
  intro logger hlogger
  obtain rfl := Option.some.inj hlogger
  have hmore : node.startLogger.notifier.channel.cursors.length =
      node.notifier.channel.cursors.length + 1 := List.length_append
  rw [hmore]
  exact Nat.lt_succ_self _

/-- A demo has streamed no block when it starts. -/
theorem streamed_start (fresh : node.Fresh settings) (valid : settings.validate = .ok ()) :
    (Demo.start node).Streamed settings 0 := by
  have hpositive := (NodeSettings.validate_ok valid).2
  have hblocks : (Demo.start node).report.blocks = settings.demo.blocks := by
    rw [← fresh.same]
    rfl
  refine ⟨fresh.same, ⟨?_, ?_⟩, rfl, hblocks, (Nat.zero_mul _).symm⟩
  · rw [← fresh.same]
    rfl
  · have hbatch : (Demo.start node).producer.itemsPerBatch =
        max settings.demo.itemsPerBatch 1 := by
      rw [← fresh.same]
      rfl
    rw [hbatch]
    omega

/-- A demo of a node that verifies has nothing to answer when it starts. -/
theorem answered_start (fresh : node.Fresh settings) (valid : settings.validate = .ok ())
    (production : settings.verification.serviceType = .production)
    (makes : MakesAlike node.factory Verifier.hashEcho settings.verification.capacity?) :
    (Demo.start node).Answered settings [] := by
  obtain ⟨hkeeps, hreads⟩ := fresh.published.keeps.subscribe
  have hservice : node.service = .verifying {} := by
    rw [fresh.service, production, SelectedService.ofType]
  have hmetrics : node.metrics = ⟨0, 0, 0⟩ := by
    rw [Node.metrics, fresh.tallies]
    rfl
  refine ⟨fresh.streamed_start valid, rfl, makes, ⟨{}, hservice, rfl, fun _ h => by cases h⟩,
    ⟨⟨fresh.published.count, hkeeps⟩, hreads, ?_⟩, (ite_self 0).symm, (ite_self 0).symm, hmetrics⟩
  intro hlogger
  exact Nat.lt_irrefl _ (fresh.logger _ hlogger)

/-- A demo of a node that accepts everything has not touched it when it starts. -/
theorem untouched_start (fresh : node.Fresh settings) (valid : settings.validate = .ok ()) :
    (Demo.start node).Untouched settings (Demo.start node).node [] :=
  ⟨fresh.streamed_start valid, rfl, rfl, rfl⟩

end Node.Fresh

section Making

variable {settings : NodeSettings} {source : ThreadSource} (valid : settings.validate = .ok ())
  (starts : ∀ threads ∈ settings.hashingThreads, ∃ started, source.start threads = .ok started)
  (kept : settings.notifierCapacity ≤ Notifier.mostKept)

include valid starts kept

/-- With valid settings, threads for the pool and room for the responses a node can be made. -/
theorem NodeSettings.exists_node : ∃ node, Node.new settings true source = .ok node ∧
    Factory.new settings.verification true Verifier.hashEcho = .ok node.factory ∧
    node.Fresh settings := by
  obtain ⟨factory, hfactory⟩ := exists_factory valid Verifier.hashEcho fun _ _ => []
  obtain ⟨pool, hpool⟩ := WorkerPool.exists_ofThreads starts
  have hnode : Node.new settings true source = .ok
      { settings, factory
        notifier := .new settings.notifierCapacity
        service := .ofType settings.verification.serviceType
        events := [.serviceReady settings.verification] } := by
    simp only [Node.new, valid, hpool, Notifier.create_of_le kept, hfactory, Except.mapError,
      orRefuse_ok, orCrash_ok, ok_bind, pure_eq_ok]
  refine ⟨_, hnode, hfactory, rfl, rfl, rfl,
    ⟨rfl, Broadcast.keeps_new settings.notifierCapacity⟩, ?_⟩
  intro logger hlogger
  cases hlogger

/-- The node may be given a factory for whatever order in which the pool finishes its jobs. -/
theorem NodeSettings.exists_fresh (schedule : PoolSchedule) :
    ∃ base factory, Node.new settings true source = .ok base ∧
      Factory.new settings.verification true Verifier.hashEcho schedule = .ok factory ∧
      ({ base with factory } : Node).Fresh settings := by
  obtain ⟨base, hbase, -, fresh⟩ := exists_node valid starts kept
  obtain ⟨factory, hfactory⟩ := exists_factory valid Verifier.hashEcho schedule
  exact ⟨base, factory, hbase, hfactory, fresh.same, fresh.service, fresh.tallies,
    ⟨fresh.published.count, fresh.published.keeps⟩, fresh.logger⟩

end Making

namespace Demo

variable {settings : NodeSettings} {node : Node} {count : Nat}

/-- When all blocks are streamed and no task is left, a demo comes to its end with the report,
the counters and the published responses that it has by then. -/
theorem exists_run {demo : Demo} (steps : Demo.steps node.settings.demo.blocks (start node) =
      .ok demo)
    (quiet : ∀ notifier, ({ demo.node with notifier } : Node).runTasks =
      ({ demo.node with notifier } : Node).runLogger) :
    ∃ last, Demo.run node = .ok (demo.report, last) ∧ last.metrics = demo.node.metrics ∧
      ∀ responses, demo.node.Published responses → last.Published responses := by
  obtain ⟨channel, events, hlast, hread⟩ :=
    Node.exists_lastTurns (quiet (demo.node.notifier.unsubscribe demo.receiver))
  refine ⟨{ demo.node with notifier := { demo.node.notifier with channel }, events }, ?_, rfl,
    fun responses published => ⟨published.count, hread.keeps ?_⟩⟩
  · rw [Demo.run, steps, ok_bind]
    exact congrArg (fun last => Except.ok (demo.report, last)) hlast
  · have hkeeps := published.keeps
    exact ⟨hkeeps.live, hkeeps.room, hkeeps.sent, hkeeps.kept⟩

/-- What the demo of a node that verifies leaves behind. -/
structure Accounted (settings : NodeSettings) (node : Node) (report : DemoReport) (last : Node) :
    Prop where
  /-- Either all blocks were acknowledged or none. -/
  acknowledged : report.acknowledged = if settings.KeepsUp then settings.demo.blocks else 0
  /-- The others have failed. -/
  failed : report.failed = if settings.KeepsUp then 0 else settings.demo.blocks
  /-- The counters of the node agree with the report. -/
  metrics : last.metrics = ⟨settings.demo.blocks, report.acknowledged, report.failed⟩
  /-- After every block of the producer exactly one response to it has been published, and nothing
  was published at the end. -/
  published : ∃ blocks rest,
    (Producer.new settings.demo.eventsPerBlock settings.demo.itemsPerBatch).take
      settings.demo.blocks = .ok (blocks, rest) ∧
    blocks.map (·.number.toNat) = List.range settings.demo.blocks ∧
    (∀ count ≤ settings.demo.blocks, ∃ demo, Demo.steps count (Demo.start node) = .ok demo ∧
      demo.node.Published ((blocks.take count).map settings.responseTo)) ∧
    last.Published (blocks.map settings.responseTo)

/-- Blocks streamed one after the other. -/
theorem steps_add (count more : Nat) (demo : Demo) :
    steps (count + more) demo = steps count demo >>= steps more := by
  induction count generalizing demo with
  | zero => rw [Nat.zero_add, steps, ok_bind]
  | succ count ih =>
    rw [Nat.succ_add, steps, steps]
    cases demo.step with
    | error fault => rfl
    | ok next => exact ih next

/-- The items of one more block fit if those of all blocks do. -/
theorem items_fit {events done most : Nat} (hless : done < most)
    (fits : most * blockLength events < UInt64.size) :
    (done + 1) * blockLength events < UInt64.size :=
  (Nat.mul_le_mul_right _ hless).trans_lt fits

section Runs

variable (fresh : node.Fresh settings) (valid : settings.validate = .ok ())
  (times : ∀ number < settings.demo.blocks, 1700000000 + number * 2 < UInt64.size)
  (leaves : ∀ side, sideLength settings.demo.eventsPerBlock side ≤ maxLeaves)

include fresh valid times leaves

/-- A node that verifies responds to as many blocks as have items that fit. -/
theorem exists_answered (production : settings.verification.serviceType = .production)
    (makes : MakesAlike node.factory Verifier.hashEcho settings.verification.capacity?)
    (within : count ≤ settings.demo.blocks)
    (fits : count * blockLength settings.demo.eventsPerBlock < UInt64.size) :
    ∃ blocks rest, (start node).producer.take count = .ok (blocks, rest) ∧
      blocks.length = count ∧ ∀ number ≤ count, ∃ next, steps number (start node) = .ok next ∧
        next.Answered settings (blocks.take number) :=
  exists_steps (fun answered hless => answered.step production valid
    (times _ (hless.trans_le within)) leaves (items_fit hless fits))
    count (fresh.answered_start valid production makes) (Nat.zero_add _).le

/-- A node that accepts everything is not touched by as many blocks as have items that fit. -/
theorem exists_untouched (noOp : settings.verification.serviceType = .noOp)
    (within : count ≤ settings.demo.blocks)
    (fits : count * blockLength settings.demo.eventsPerBlock < UInt64.size) :
    ∃ blocks rest, (start node).producer.take count = .ok (blocks, rest) ∧
      blocks.length = count ∧ ∀ number ≤ count, ∃ next, steps number (start node) = .ok next ∧
        next.Untouched settings (start node).node (blocks.take number) := by
  have haccepting : node.service = .accepting := by
    rw [fresh.service, noOp, SelectedService.ofType]
  exact exists_steps (fun untouched hless => untouched.step haccepting noOp valid
    (times _ (hless.trans_le within)) leaves (items_fit hless fits))
    count (fresh.untouched_start valid) (Nat.zero_add _).le

/-- The demo of a node that verifies, if the items of all blocks fit. -/
theorem run_of_production (production : settings.verification.serviceType = .production)
    (makes : MakesAlike node.factory Verifier.hashEcho settings.verification.capacity?)
    (fits : settings.demo.blocks * blockLength settings.demo.eventsPerBlock < UInt64.size) :
    ∃ report last, Demo.run node = .ok (report, last) ∧
      report.blocks = settings.demo.blocks ∧
      report.items = settings.demo.blocks * blockLength settings.demo.eventsPerBlock ∧
      Accounted settings node report last := by
  obtain ⟨blocks, rest, htake, hlength, hall⟩ :=
    exists_answered fresh valid times leaves production makes le_rfl fits
  have hproducer : (Demo.start node).producer =
      .new settings.demo.eventsPerBlock settings.demo.itemsPerBatch := by
    rw [← fresh.same]
    rfl
  rw [hproducer] at htake
  obtain ⟨demo, hsteps, hanswered⟩ := hall settings.demo.blocks le_rfl
  rw [← hlength, List.take_length] at hanswered
  rw [← fresh.same] at hsteps
  obtain ⟨last, hrun, hmetrics, hpublished⟩ :=
    exists_run hsteps fun notifier => Node.Settled.runTasks hanswered.settled
  refine ⟨demo.report, last, hrun, hanswered.blocks, ?_, ?_, ?_, ?_, blocks, rest, htake, ?_,
    fun count hcount => ?_, hpublished _ hanswered.heard.toPublished⟩
  · rw [hanswered.items, hlength]
  · rw [hanswered.acknowledged, hlength]
  · rw [hanswered.failed, hlength]
  · rw [hmetrics, hanswered.metrics, hlength]
  · rw [hanswered.numbers, hlength]
  · obtain ⟨next, hnext, hmiddle⟩ := hall count hcount
    exact ⟨next, hnext, hmiddle.heard.toPublished⟩

/-- The demo of a node that accepts everything, if the items of all blocks fit. -/
theorem run_of_noOp (noOp : settings.verification.serviceType = .noOp)
    (fits : settings.demo.blocks * blockLength settings.demo.eventsPerBlock < UInt64.size) :
    ∃ report last, Demo.run node = .ok (report, last) ∧
      report.blocks = settings.demo.blocks ∧
      report.items = settings.demo.blocks * blockLength settings.demo.eventsPerBlock ∧
      report.acknowledged = 0 ∧ report.failed = 0 ∧ last.metrics = {} ∧ last.Published [] := by
  obtain ⟨blocks, rest, -, hlength, hall⟩ :=
    exists_untouched fresh valid times leaves noOp le_rfl fits
  obtain ⟨demo, hsteps, huntouched⟩ := hall settings.demo.blocks le_rfl
  rw [← hlength, List.take_length] at huntouched
  rw [← fresh.same] at hsteps
  have hservice : demo.node.service = .accepting := by
    rw [huntouched.untouched]
    exact fresh.service.trans (by rw [noOp, SelectedService.ofType])
  obtain ⟨last, hrun, hmetrics, hpublished⟩ :=
    exists_run hsteps fun notifier => Node.runTasks_accepting hservice
  refine ⟨demo.report, last, hrun, huntouched.blocks, ?_, huntouched.acknowledged,
    huntouched.failed, ?_, hpublished [] ?_⟩
  · rw [huntouched.items, hlength]
  · rw [hmetrics, huntouched.untouched, Node.metrics]
    exact congrArg Metrics.ofTallies fresh.tallies
  · rw [huntouched.untouched]
    exact ⟨fresh.published.count, fresh.published.keeps.subscribe.1⟩

/-- As many blocks are streamed as have items that fit. -/
theorem exists_streamed
    (makes : MakesAlike node.factory Verifier.hashEcho settings.verification.capacity?)
    (within : count ≤ settings.demo.blocks)
    (fits : count * blockLength settings.demo.eventsPerBlock < UInt64.size) :
    ∃ demo, steps count (start node) = .ok demo ∧ demo.Streamed settings count := by
  cases htype : settings.verification.serviceType with
  | production =>
    obtain ⟨blocks, rest, -, hlength, hall⟩ :=
      exists_answered fresh valid times leaves htype makes within fits
    obtain ⟨demo, hsteps, hanswered⟩ := hall count le_rfl
    rw [← hlength, List.take_length] at hanswered
    exact ⟨demo, hsteps, hlength ▸ hanswered.toStreamed⟩
  | noOp =>
    obtain ⟨blocks, rest, -, hlength, hall⟩ :=
      exists_untouched fresh valid times leaves htype within fits
    obtain ⟨demo, hsteps, huntouched⟩ := hall count le_rfl
    rw [← hlength, List.take_length] at huntouched
    exact ⟨demo, hsteps, hlength ▸ huntouched.toStreamed⟩

/-- The demo of a node crashes if the items of all blocks do not fit: the first block that has too
many is streamed after all that fit. -/
theorem run_overflows
    (makes : MakesAlike node.factory Verifier.hashEcho settings.verification.capacity?)
    (full : UInt64.size ≤ settings.demo.blocks * blockLength settings.demo.eventsPerBlock) :
    Demo.run node = .error (.crashed .sumOverflow) := by
  have hpositive : 0 < blockLength settings.demo.eventsPerBlock := by
    rw [blockLength]
    omega
  obtain ⟨count, hcount⟩ :
      ∃ count, count = (UInt64.size - 1) / blockLength settings.demo.eventsPerBlock := ⟨_, rfl⟩
  have hsize : 0 < UInt64.size := by decide
  have hfits : count * blockLength settings.demo.eventsPerBlock < UInt64.size := by
    have hle := Nat.div_mul_le_self (UInt64.size - 1) (blockLength settings.demo.eventsPerBlock)
    rw [← hcount] at hle
    omega
  have hfull : UInt64.size ≤ (count + 1) * blockLength settings.demo.eventsPerBlock := by
    have hlt := Nat.lt_mul_div_succ (UInt64.size - 1) hpositive
    rw [← hcount, Nat.mul_comm] at hlt
    omega
  have hless : count < settings.demo.blocks :=
    Nat.lt_of_mul_lt_mul_right (hfits.trans_le full)
  obtain ⟨demo, hsteps, hstreamed⟩ :=
    exists_streamed fresh valid times leaves makes hless.le hfits
  have hcrash := hstreamed.crashes valid (times count hless) leaves hfull
  obtain ⟨rest, hrest⟩ := Nat.exists_eq_add_of_lt hless
  have hblocks : node.settings.demo.blocks = count + (rest + 1) := by
    rw [fresh.same, hrest, Nat.add_assoc]
  rw [Demo.run, hblocks, steps_add, hsteps, ok_bind, steps, hcrash]
  rfl

end Runs

/-- A demo is accounted for exactly. Every block is streamed, whatever the order in which the pool
finishes its jobs, if the items of all blocks can be counted in 64 bits. With a service that
verifies, all blocks are acknowledged if sessions keep up and all of them fail otherwise, the
counters of the node agree with the report, and after every block exactly one response to it has
been published. With a service that accepts everything, nothing else is counted and nothing is
published. If there are more items the demo crashes. -/
theorem run_is_accounted_for (settings : NodeSettings) (schedule : PoolSchedule)
    (source : ThreadSource) (valid : settings.validate = .ok ())
    (times : ∀ number < settings.demo.blocks, 1700000000 + number * 2 < UInt64.size)
    (leaves : ∀ side, sideLength settings.demo.eventsPerBlock side ≤ maxLeaves)
    (starts : ∀ threads ∈ settings.hashingThreads, ∃ started, source.start threads = .ok started)
    (kept : settings.notifierCapacity ≤ Notifier.mostKept)
    (roomy : settings.verification.Roomy) :
    ∃ base factory, Node.new settings true source = .ok base ∧
      Factory.new settings.verification true Verifier.hashEcho schedule = .ok factory ∧
      ∀ node ∈ [{ base with factory }, ({ base with factory } : Node).startLogger],
        (settings.demo.blocks * blockLength settings.demo.eventsPerBlock < UInt64.size →
          ∃ report last, Demo.run node = .ok (report, last) ∧
            report.blocks = settings.demo.blocks ∧
            report.items = settings.demo.blocks * blockLength settings.demo.eventsPerBlock ∧
            match settings.verification.serviceType with
            | .production => Accounted settings node report last
            | .noOp =>
              report.acknowledged = 0 ∧ report.failed = 0 ∧ last.metrics = {} ∧
                last.Published []) ∧
        (UInt64.size ≤ settings.demo.blocks * blockLength settings.demo.eventsPerBlock →
          Demo.run node = .error (.crashed .sumOverflow)) := by
  obtain ⟨base, factory, hbase, hfactory, hfresh⟩ :=
    NodeSettings.exists_fresh valid starts kept schedule
  have hmakes := makesAlike_of_roomy hfactory roomy
  refine ⟨base, factory, hbase, hfactory, fun node hnode => ?_⟩
  have hnode' : node.Fresh settings ∧ node.factory = factory := by
    rcases List.mem_cons.mp hnode with rfl | hlogged
    · exact ⟨hfresh, rfl⟩
    · obtain rfl := List.mem_singleton.mp hlogged
      exact ⟨hfresh.startLogger, rfl⟩
  obtain ⟨hstart, rfl⟩ := hnode'
  refine ⟨fun fits => ?_, run_overflows hstart valid times leaves hmakes⟩
  cases htype : settings.verification.serviceType with
  | production => exact run_of_production hstart valid times leaves htype hmakes fits
  | noOp => exact run_of_noOp hstart valid times leaves htype fits

/-- Two blocks of eight items each, in batches of two, where so many batches may wait. The pool has
three threads of its own. -/
def twoBlocks (capacity : Nat) : NodeSettings where
  verification := { sessionType := .async, queueCapacity := capacity }
  demo := { blocks := 2, itemsPerBatch := 2, eventsPerBlock := 1 }
  hashingThreads := some 3

/-- Both blocks fail if only three of their four batches may wait. -/
theorem run_is_accounted_for_two :
    (twoBlocks 3).validate = .ok () ∧
    (∀ number < 2, 1700000000 + number * 2 < UInt64.size) ∧
    (∀ side, sideLength 1 side ≤ maxLeaves) ∧
    (∀ threads ∈ (twoBlocks 3).hashingThreads,
      ∃ started, ({} : ThreadSource).start threads = .ok started) ∧
    (twoBlocks 3).notifierCapacity ≤ Notifier.mostKept ∧
    (twoBlocks 3).verification.Roomy ∧
    ∃ base factory, Node.new (twoBlocks 3) true {} = .ok base ∧
      Factory.new (twoBlocks 3).verification true Verifier.hashEcho (fun _ _ => []) = .ok factory ∧
      2 * blockLength 1 < UInt64.size ∧
      ∃ report last, Demo.run { base with factory } = .ok (report, last) ∧
        report.blocks = 2 ∧ report.items = 16 ∧ report.acknowledged = 0 ∧ report.failed = 2 ∧
        last.metrics = ⟨2, 0, 2⟩ ∧ last.notifier.published = 2 := by
  have valid : (twoBlocks 3).validate = .ok () := rfl
  have times : ∀ number < 2, 1700000000 + number * 2 < UInt64.size := by decide
  have leaves : ∀ side, sideLength 1 side ≤ maxLeaves := by
    intro side
    cases side <;> decide
  have starts : ∀ threads ∈ (twoBlocks 3).hashingThreads,
      ∃ started, ({} : ThreadSource).start threads = .ok started := fun threads _ => ⟨threads, rfl⟩
  have kept : (twoBlocks 3).notifierCapacity ≤ Notifier.mostKept := by decide
  have roomy : (twoBlocks 3).verification.Roomy := fun _ => by decide
  have fits : 2 * blockLength 1 < UInt64.size := by decide
  refine ⟨valid, times, leaves, starts, kept, roomy, ?_⟩
  obtain ⟨base, factory, hbase, hfactory, hruns⟩ :=
    run_is_accounted_for (twoBlocks 3) (fun _ _ => []) {} valid times leaves starts kept roomy
  obtain ⟨hcounts, -⟩ := hruns { base with factory } List.mem_cons_self
  obtain ⟨report, last, hrun, hblocks, hitems, hacknowledged, hfailed, hmetrics, blocks, -, -,
    hnumbers, -, hpublished⟩ := hcounts fits
  have hlate : ¬ (twoBlocks 3).KeepsUp := by decide
  rw [if_neg hlate] at hacknowledged hfailed
  have hlength := congrArg List.length hnumbers
  rw [List.length_map, List.length_range] at hlength
  have hcount := hpublished.count
  rw [List.length_map, hlength] at hcount
  rw [hacknowledged, hfailed] at hmetrics
  exact ⟨base, factory, hbase, hfactory, fits, report, last, hrun, hblocks, hitems, hacknowledged,
    hfailed, hmetrics, hcount⟩

/-- Blocks of three items each, so many that their items are too many for 64 bits, although the times
of the blocks are not. -/
def manyBlocks : NodeSettings where
  verification := { serviceType := .noOp, sessionType := .sync, hasher := .naive }
  demo := { blocks := 7000000000000000000, itemsPerBatch := 1, eventsPerBlock := 0 }

/-- A demo whose settings are valid, whose times and trees are within their bounds, and whose node
can be made, crashes nevertheless when it has streamed more items than can be counted. -/
theorem run_overflows_many :
    manyBlocks.validate = .ok () ∧
    (∀ number < manyBlocks.demo.blocks, 1700000000 + number * 2 < UInt64.size) ∧
    (∀ side, sideLength manyBlocks.demo.eventsPerBlock side ≤ maxLeaves) ∧
    manyBlocks.hashingThreads = none ∧
    manyBlocks.notifierCapacity ≤ Notifier.mostKept ∧
    manyBlocks.verification.Roomy ∧
    ∃ node, Node.new manyBlocks true = .ok node ∧
      Demo.run node = .error (.crashed .sumOverflow) ∧
      ¬ ∃ report last, Demo.run node = .ok (report, last) := by
  have valid : manyBlocks.validate = .ok () := rfl
  have times : ∀ number < manyBlocks.demo.blocks, 1700000000 + number * 2 < UInt64.size := by
    intro number hnumber
    have hblocks : number < 7000000000000000000 := hnumber
    have hsize : UInt64.size = 18446744073709551616 := rfl
    omega
  have leaves : ∀ side, sideLength manyBlocks.demo.eventsPerBlock side ≤ maxLeaves := by
    intro side
    cases side <;> decide
  have kept : manyBlocks.notifierCapacity ≤ Notifier.mostKept := by decide
  have roomy : manyBlocks.verification.Roomy := fun hasync => by cases hasync
  have starts : ∀ threads ∈ manyBlocks.hashingThreads,
      ∃ started, ({} : ThreadSource).start threads = .ok started := fun threads _ => ⟨threads, rfl⟩
  obtain ⟨node, hnode, hfactory, hfresh⟩ := NodeSettings.exists_node valid starts kept
  have hcrash := run_overflows hfresh valid times leaves (makesAlike_of_roomy hfactory roomy)
    (by decide)
  refine ⟨valid, times, leaves, rfl, kept, roomy, node, hnode, hcrash, ?_⟩
  rintro ⟨report, last, hrun⟩
  rw [hcrash] at hrun
  cases hrun

end Demo

end BlockIntake
