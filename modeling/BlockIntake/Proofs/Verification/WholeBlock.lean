import BlockIntake.Proofs.Verification.Deferred
import BlockIntake.Proofs.Verification.Isolation
import BlockIntake.Proofs.Verification.Verdict

/-!
# Whole blocks, one after the other

A service may be given all batches of a signed block before any task runs. A session that handles
batches when they are appended has acknowledged the block by then. One with a task acknowledges it
when the task has run, unless there were more batches than its queue has room for; then it ends with
a failure instead. Either way the block has had exactly one response, and the service is as ready
for the next block as it was for this one.
-/

namespace BlockIntake

open Merkle

/-- The batches of a whole block: the first begins with the header and no other does, only the last
ends with a proof, which is for the block, and the signature is good for the hash. -/
structure SignedStream (accepts : Digest → Bytes → Bool) (header : BlockHeader) (hash : Digest)
    (batches : List Batch) : Prop where
  /-- The block is opened by its first batch, and no other one opens a block. -/
  opens : ∃ first rest, batches = first :: rest ∧ beginning first = .opening header ∧
    ∀ items ∈ rest, beginning items = .inside
  /-- It is closed by its last batch. -/
  closes : ∃ front last, batches = front ++ [last] ∧ (∀ items ∈ front, ¬ EndsWithProof items) ∧
    EndsWithProof last
  /-- The trees have room for its items. -/
  fits : Fits batches.flatten
  /-- It deserves to be verified. -/
  deserves : Verdict accepts header.number batches.flatten (.verified header.number hash)

/-- The response to a whole block: it is acknowledged if its batches found room, and has failed
otherwise. -/
def responseTo (number : UInt64) (hash : Digest) (room : Prop) [Decidable room] : Response :=
  if room then .acknowledged ⟨number, hash, false⟩ else .ended ⟨number, .internalError⟩

/-- What is counted for the response to a whole block. -/
def tallyOf : Response → Tally
  | .acknowledged _ => .verified
  | .ended eos => .failed eos.code

/-- Exactly one response is told, and what is counted for it. -/
structure TellsOne (response : Response) (signals : List Signal) : Prop where
  /-- The response. -/
  responses : Signal.responses signals = [response]
  /-- The count. -/
  tallies : Signal.tallies signals = [tallyOf response]

/-- A verified block was acknowledged. -/
theorem Told.tellsOne {number : UInt64} {hash : Digest} {state : SessionState}
    {signals : List Signal} (told : Told number state (some (.verified number hash))
      (Signal.tallies signals) (Signal.responses signals)) :
    TellsOne (.acknowledged ⟨number, hash, false⟩) signals := by
  generalize htallies : Signal.tallies signals = tallies at told
  generalize hresponses : Signal.responses signals = responses at told
  generalize hresult : some (VerificationResult.verified number hash) = result at told
  cases told with
  | running => cases hresult
  | completed found =>
    have hsame := Option.some.inj hresult
    simp only [VerificationResult.verified, VerificationResult.mk.injEq,
      Outcome.verified.injEq] at hsame
    obtain ⟨-, rfl⟩ := hsame
    exact ⟨hresponses, htallies⟩
  | failed error =>
    have hsame := Option.some.inj hresult
    simp [VerificationResult.verified, VerificationResult.failed] at hsame

/-- Handling the batches of a whole block acknowledges it. -/
theorem SignedStream.handleAll {accepts : Digest → Bytes → Bool} {header : BlockHeader}
    {hash : Digest} {batches : List Batch} (stream : SignedStream accepts header hash batches)
    {v : Verification StrategyTree} (track : v.OnTrack []) (block : v.block = header.number) :
    (v.handleAll (certain accepts) batches).1.state ≠ .running ∧
      TellsOne (.acknowledged ⟨header.number, hash, false⟩)
        (v.handleAll (certain accepts) batches).2 := by
  obtain ⟨front, last, rfl, hopen, hclosing⟩ := stream.closes
  obtain ⟨result, hverdict, hafter⟩ :=
    track.handleAll_closing hopen hclosing stream.fits accepts
  obtain ⟨-, hresult⟩ := hafter []
  rw [block] at hverdict
  obtain rfl := hverdict.unique stream.deserves
  have hsound : v.Sound := iff_of_true track.running track.pending
  have hadvances :=
    Verification.advances_handleAll (certain accepts) hsound (front ++ [last])
  have htold := hadvances.told track.pending hresult
  rw [block] at htold
  exact ⟨htold.state_ne_running, htold.tellsOne⟩

/-- What is told in the same order tells the same response. -/
theorem TellsOne.of_same {response : Response} {signals other : List Signal}
    (one : TellsOne response signals) (same : TellSame signals other) : TellsOne response other :=
  ⟨same.2.symm.trans one.responses, same.1.symm.trans one.tallies⟩

namespace Session

section Queue

variable {σ : Type} [TreeHasher σ] {s : Session σ} {queue : TaskQueue}

/-- Appending does not let go of a session. -/
theorem held_append (s : Session σ) (verifier : Verifier) (items : Batch) :
    (s.append verifier items).1.held = s.held := by
  rw [append]
  dsimp only
  split
  · rfl
  · cases s.drive with
    | inline => rfl
    | queued queue =>
      dsimp only
      split
      · rfl
      · split <;> rfl

/-- Nothing runs in a session that rests. -/
theorem Rests.runTask (rests : s.Rests) (verifier : Verifier) : s.runTask verifier = (s, []) := by
  rw [Session.runTask, runTaskFor]
  cases hdrive : s.drive with
  | inline => rfl
  | queued queue => exact if_pos (rests queue hdrive)

/-- The batches that are appended to a session with a task wait as far as there is room. The
induction runs over the batches. -/
theorem run_queued (drive : s.drive = .queued queue) (live : queue.live = true)
    (held : s.held = true) (running : s.verification.state = .running)
    (room : queue.waiting.length ≤ queue.capacity) (verifier : Verifier) (batches : List Batch) :
    (s.run verifier (batches.map .append)).2.1 =
        { s with drive := .queued { queue with
            waiting := queue.waiting ++ batches.take (queue.capacity - queue.waiting.length)
            overflowed := queue.overflowed ||
              decide (queue.capacity < queue.waiting.length + batches.length) } } ∧
      Silent (s.run verifier (batches.map .append)).2.2 := by
  induction batches generalizing s queue with
  | nil =>
    have hroom : ¬ queue.capacity < queue.waiting.length + 0 := by omega
    simp only [List.map_nil, run, List.take_nil, List.append_nil, List.length_nil,
      decide_eq_false hroom, Bool.or_false, ← drive]
    exact ⟨trivial, rfl, rfl⟩
  | cons items batches ih =>
    have hlive : ¬ queue.live = false := by
      rw [live]
      exact Bool.noConfusion
    rw [List.map_cons, run, Session.step, if_pos held, append, if_neg (not_not.mpr running), drive]
    dsimp only
    rw [if_neg hlive]
    by_cases hfull : queue.capacity ≤ queue.waiting.length
    · have hnone : queue.capacity - queue.waiting.length = 0 := by omega
      have hlost : queue.capacity < queue.waiting.length + (items :: batches).length := by
        rw [List.length_cons]
        omega
      rw [if_pos hfull]
      obtain ⟨hlast, htallies, hresponses⟩ :=
        ih (s := { s with drive := .queued { queue with overflowed := true } }) rfl live held
          running room
      dsimp only at hlast htallies hresponses ⊢
      rw [hlast, hnone, decide_eq_true hlost]
      refine ⟨by simp, ?_, ?_⟩
      · rw [tallies_append, htallies]
        rfl
      · rw [responses_append, hresponses]
        rfl
    · have hmore : queue.capacity - queue.waiting.length =
          queue.capacity - (queue.waiting ++ [items]).length + 1 := by
        rw [List.length_append, List.length_singleton]
        omega
      have hcount : queue.waiting.length + (items :: batches).length =
          (queue.waiting ++ [items]).length + batches.length := by
        rw [List.length_cons, List.length_append, List.length_singleton]
        omega
      have hroom : (queue.waiting ++ [items]).length ≤ queue.capacity := by
        rw [List.length_append, List.length_singleton]
        omega
      rw [if_neg hfull]
      obtain ⟨hlast, hsilent⟩ :=
        ih (s := { s with drive := .queued { queue with waiting := queue.waiting ++ [items] } })
          rfl live held running hroom
      dsimp only at hlast hsilent ⊢
      rw [hlast, hmore, hcount, List.take_succ_cons, List.append_assoc]
      exact ⟨rfl, hsilent⟩

/-- A session that has lost a batch fails when its task runs, if a batch waits. -/
theorem runTask_overflowed (drive : s.drive = .queued queue) (live : queue.live = true)
    (overflowed : queue.overflowed = true) (pending : s.verification.result = none)
    (waits : queue.waiting ≠ []) (verifier : Verifier) :
    (s.runTask verifier).1.Rests ∧
      TellsOne (.ended ⟨s.verification.block, .internalError⟩) (s.runTask verifier).2 := by
  have hwaiting : s.waiting = queue.waiting := by rw [waiting, drive]
  have hlive : ¬ queue.live = false := by
    rw [live]
    exact Bool.noConfusion
  have hpending : ¬ s.verification.result.isSome = true := by simp [pending]
  obtain ⟨items, rest, hsplit⟩ := List.exists_cons_of_ne_nil waits
  rw [Session.runTask, runTaskFor, drive, hwaiting]
  dsimp only
  rw [if_neg hlive, List.take_length, overflowed, hsplit, workOff, if_pos rfl, Verification.fail,
    if_neg hpending]
  refine ⟨?_, rfl, rfl⟩
  intro other hother
  obtain rfl := Drive.queued.inj hother
  rfl

end Queue

section Stream

variable {accepts : Digest → Bytes → Bool} {header : BlockHeader} {hash : Digest}
  {batches : List Batch} {trees : BlockTrees StrategyTree}

/-- The verification of a new session over empty trees has hashed nothing. -/
theorem onTrack_start (alike : AlikeTrees trees ⟨{}, {}⟩) (header : BlockHeader) :
    (⟨header.number, trees, .running, none⟩ : Verification StrategyTree).OnTrack [] :=
  ⟨rfl, rfl, ⟨{}, {}⟩, rfl, alike⟩

/-- An inline session has acknowledged a whole block once all its batches were appended. -/
theorem run_whole_inline (stream : SignedStream accepts header hash batches)
    (alike : AlikeTrees trees ⟨{}, {}⟩) :
    ((inline header trees).run (certain accepts) (batches.map .append)).2.1.Rests ∧
      TellsOne (.acknowledged ⟨header.number, hash, false⟩)
        ((inline header trees).run (certain accepts) (batches.map .append)).2.2 := by
  obtain ⟨-, htold⟩ := stream.handleAll (onTrack_start alike header) rfl
  have hrun := run_inline (s := inline header trees) rfl rfl (certain accepts) batches
  rw [hrun]
  exact ⟨fun queue hqueue => Drive.noConfusion hqueue, htold⟩

/-- A session with a task has told nothing when the batches of a whole block were appended. When the
task has run, the block was acknowledged if there was room for all its batches, and has failed
otherwise. -/
theorem run_whole_queued (stream : SignedStream accepts header hash batches)
    (alike : AlikeTrees trees ⟨{}, {}⟩) (capacity : Nat) :
    let appended := (queued header trees capacity).run (certain accepts) (batches.map .append)
    Silent appended.2.2 ∧ (appended.2.1.runTask (certain accepts)).1.Rests ∧
      TellsOne (responseTo header.number hash (batches.length ≤ max capacity 1))
        (appended.2.1.runTask (certain accepts)).2 := by
  intro appended
  obtain ⟨hsession, hsilent⟩ := run_queued (s := queued header trees capacity) rfl rfl rfl rfl
    (Nat.zero_le _) (certain accepts) batches
  refine ⟨hsilent, ?_⟩
  rw [hsession]
  clear hsession hsilent appended
  dsimp only
  rw [List.nil_append, List.length_nil, Nat.sub_zero, Nat.zero_add, Bool.false_or]
  by_cases hroom : batches.length ≤ max capacity 1
  · have hkept : ¬ max capacity 1 < batches.length := not_lt.mpr hroom
    rw [decide_eq_false hkept, List.take_of_length_le hroom, responseTo, if_pos hroom]
    have htended : Tended
        { queued header trees capacity with
          drive := .queued { capacity := max capacity 1, waiting := batches } }
        { capacity := max capacity 1, waiting := batches } :=
      ⟨rfl, rfl, fun _ => rfl, fun h => absurd h Bool.noConfusion, fun _ _ => rfl⟩
    obtain ⟨hended, htold⟩ := stream.handleAll (onTrack_start alike header) rfl
    obtain ⟨⟨queue, hlast⟩, -, -, hcaughtUp, hpaid⟩ := htended.runTask (certain accepts)
    refine ⟨hlast.rests ?_, htold.of_same hpaid⟩
    rw [hcaughtUp]
    exact hended
  · have hlost : max capacity 1 < batches.length := not_le.mp hroom
    rw [decide_eq_true hlost, responseTo, if_neg hroom]
    refine runTask_overflowed rfl rfl rfl rfl ?_ (certain accepts)
    intro hnone
    have hlength := congrArg List.length hnone
    rw [List.length_take, List.length_nil] at hlength
    omega

end Stream

end Session

open Session

section Reception

variable {factory : Factory StrategyTree} {service : Service StrategyTree}
  {accepts : Digest → Bytes → Bool} {header : BlockHeader} {hash : Digest} {batches : List Batch}
  {capacity : Option Nat}

/-- The runtime is there, but all sessions are at rest. -/
structure Service.Settled (service : Service StrategyTree) : Prop where
  /-- New sessions get their tasks. -/
  live : service.runtimeLive = true
  /-- No task runs. -/
  rests : ∀ session ∈ service.sessions, session.Rests

/-- Nothing runs in sessions that rest. -/
theorem runTasks_of_rests (factory : Factory StrategyTree) {sessions : List (Session StrategyTree)}
    (rests : ∀ session ∈ sessions, session.Rests) :
    Service.runTasks factory sessions = (sessions, []) := by
  induction sessions with
  | nil => rfl
  | cons first sessions ih =>
    have hfirst := (rests first List.mem_cons_self).runTask factory.verifier
    have hrest := ih fun session h => rests session (List.mem_cons_of_mem _ h)
    rw [Service.runTasks, hfirst, hrest]
    rfl

/-- Where the replaced sessions rest, only the current one runs. -/
theorem drain_of_rests (factory : Factory StrategyTree) {earlier : List (Session StrategyTree)}
    (rests : ∀ session ∈ earlier, session.Rests) (session : Session StrategyTree) :
    Service.drain factory { earlier, current := some session } =
      ({ earlier, current := some (session.runTask factory.verifier).1 },
        (session.runTask factory.verifier).2) := by
  rw [Service.drain, runTasks_of_rests factory rests]
  rfl

/-- Nothing runs in a service that is settled. -/
theorem Service.Settled.drain (settled : service.Settled) (factory : Factory StrategyTree) :
    service.drain factory = (service, []) := by
  obtain ⟨earlier, current, runtimeLive⟩ := service
  have hearlier : Service.runTasks factory earlier = (earlier, []) :=
    runTasks_of_rests factory fun session h => settled.rests session (List.mem_append_left _ h)
  rw [Service.drain, hearlier]
  cases current with
  | none => rfl
  | some session =>
    have hsession := settled.rests session (List.mem_append_right _ (List.mem_singleton_self _))
    simp only [hsession.runTask, List.append_nil]

/-- A service whose sessions rest is settled. -/
theorem settled_of_rests {earlier : List (Session StrategyTree)} {session : Session StrategyTree}
    (rests : ∀ session ∈ earlier, session.Rests) (current : session.Rests) :
    Service.Settled { earlier, current := some session } := by
  refine ⟨rfl, fun other hother => ?_⟩
  rcases List.mem_append.mp hother with hearlier | hcurrent
  · exact rests other hearlier
  · obtain rfl := List.mem_singleton.mp hcurrent
    exact current

/-- Batches that open no block are handed to the current session, in order. -/
theorem run_inside {session : Session StrategyTree} (current : service.current = some session)
    (held : session.held = true) (inside : ∀ items ∈ batches, beginning items = .inside) :
    service.run factory (batches.map .receive) =
      (batches.map fun _ => .ok (),
        { service with
          current := some (session.run factory.verifier (batches.map .append)).2.1 },
        (session.run factory.verifier (batches.map .append)).2.2) := by
  induction batches generalizing service session with
  | nil =>
    simp only [List.map_nil, Service.run, run, ← current]
  | cons items batches ih =>
    have hreceive := receive_eq factory service items
    rw [inside items List.mem_cons_self] at hreceive
    dsimp only at hreceive
    rw [Service.route, current] at hreceive
    have hheld : (session.append factory.verifier items).1.held = true := by
      rw [held_append]
      exact held
    have hrest := @ih { service with current := some (session.append factory.verifier items).1 }
      (session.append factory.verifier items).1 rfl hheld
      fun other h => inside other (List.mem_cons_of_mem _ h)
    simp only [List.map_cons, Service.run, Service.step, hreceive, hrest, run, Session.step,
      if_pos held, Option.toList_some, List.singleton_append]

/-- A settled service that is given the batches of a whole block answers them all, releases the
session before it and hands all of them to a new one. -/
theorem Service.Settled.run_whole (settled : service.Settled)
    (stream : SignedStream accepts header hash batches)
    (makes : MakesAlike factory (certain accepts) capacity) :
    ∃ trees earlier warnings, AlikeTrees trees ⟨{}, {}⟩ ∧
      (∀ session ∈ earlier, session.Rests) ∧ Silent warnings ∧
      service.run factory (batches.map .receive) =
        (batches.map fun _ => .ok (),
          { earlier
            current := some ((Session.start header trees capacity).run (certain accepts)
              (batches.map .append)).2.1 },
          warnings ++ [.tally .received] ++
            ((Session.start header trees capacity).run (certain accepts)
              (batches.map .append)).2.2) := by
  obtain ⟨first, rest, rfl, hopens, hinside⟩ := stream.opens
  obtain ⟨trees, hcreate, halike⟩ := makes.creates service.sessions.length header
  have hheld : (Session.start header trees capacity).held = true := by cases capacity <;> rfl
  refine ⟨trees, service.earlier ++ (service.current.map Session.release).toList,
    service.replacementWarning header.number, halike, ?_,
    silent_replacementWarning service header.number, ?_⟩
  · intro session hsession
    rcases List.mem_append.mp hsession with hearlier | hreleased
    · exact settled.rests session (List.mem_append_left _ hearlier)
    · obtain ⟨replaced, hreplaced, rfl⟩ := Option.map_eq_some_iff.mp (Option.mem_toList.mp hreleased)
      have hmem : replaced ∈ service.sessions := by simp [Service.sessions, hreplaced]
      exact fun queue hqueue => settled.rests replaced hmem queue hqueue
  · have hreceive := receive_eq factory service first
    rw [hopens] at hreceive
    dsimp only at hreceive
    rw [hcreate] at hreceive
    simp only [Service.opened, settled.live, if_true, Service.route, makes.checks] at hreceive
    have hrest : Service.run factory
        { earlier := service.earlier ++ (service.current.map Session.release).toList
          current := some ((Session.start header trees capacity).append (certain accepts) first).1 }
        (rest.map .receive) = _ := run_inside rfl ((held_append _ _ _).trans hheld) hinside
    rw [makes.checks] at hrest
    simp only [List.map_cons, Service.run, Service.step, hreceive, hrest, Session.run, Session.step,
      if_pos hheld, Option.toList_some, List.cons_append, List.nil_append,
      List.append_assoc]

/-- A service with inline sessions has acknowledged a whole block once it has received all its
batches. -/
theorem Service.Settled.receive_inline (settled : service.Settled)
    (stream : SignedStream accepts header hash batches)
    (makes : MakesAlike factory (certain accepts) none) :
    ∃ last signals, service.run factory (batches.map .receive) =
        (batches.map fun _ => .ok (), last, signals) ∧ last.Settled ∧
      Signal.tallies signals = [.received, .verified] ∧
      Signal.responses signals = [.acknowledged ⟨header.number, hash, false⟩] := by
  obtain ⟨trees, earlier, warnings, halike, hearlier, ⟨htallies, hresponses⟩, hrun⟩ :=
    settled.run_whole stream makes
  obtain ⟨hrests, hone⟩ := run_whole_inline stream halike
  refine ⟨_, _, hrun, settled_of_rests hearlier hrests, ?_, ?_⟩
  · rw [tallies_append, tallies_append, htallies, Session.start, hone.tallies]
    rfl
  · rw [responses_append, responses_append, hresponses, Session.start, hone.responses]
    rfl

/-- A service with tasks has responded to nothing when it has received the batches of a whole block.
Once the tasks have run, it has responded to the block. -/
theorem Service.Settled.receive_queued (settled : service.Settled) {capacity : Nat}
    (stream : SignedStream accepts header hash batches)
    (makes : MakesAlike factory (certain accepts) (some capacity)) :
    ∃ last signals, service.run factory (batches.map .receive) =
        (batches.map fun _ => .ok (), last, signals) ∧
      Signal.tallies signals = [.received] ∧ Signal.responses signals = [] ∧
      (last.drain factory).1.Settled ∧
      TellsOne (responseTo header.number hash (batches.length ≤ max capacity 1))
        (last.drain factory).2 := by
  obtain ⟨trees, earlier, warnings, halike, hearlier, ⟨htallies, hresponses⟩, hrun⟩ :=
    settled.run_whole stream makes
  obtain ⟨⟨hnothing, hnobody⟩, hrests, hone⟩ := run_whole_queued stream halike capacity
  refine ⟨_, _, hrun, ?_, ?_, ?_⟩
  · rw [tallies_append, tallies_append, htallies, Session.start, hnothing]
    rfl
  · rw [responses_append, responses_append, hresponses, Session.start, hnobody]
    rfl
  · rw [drain_of_rests factory hearlier, makes.checks]
    exact ⟨settled_of_rests hearlier hrests, hone⟩

end Reception

end BlockIntake
