import BlockIntake.Proofs.Verification.Handling

/-!
# Batches that wait

In a session with a task some batches have been handled and others still wait. As long as no batch
was lost to a full queue, handling those that wait leads to where handling all of them at once would
have led, and this is what the task does, however many batches it takes at a time. So once nothing
waits the session is where an inline session is that was given the same batches, whatever its trees
and its check of signatures do, and whether or not its owner has let go of it.
-/

namespace BlockIntake

open Merkle

namespace Session

section Task

variable {σ : Type} {s t : Session σ} {queue : TaskQueue}

/-- A session has lost no batch, and its task is there as long as it is needed. -/
structure Tended (s : Session σ) (queue : TaskQueue) : Prop where
  /-- The session has a task that works off the queue. -/
  drive : s.drive = .queued queue
  /-- No batch was lost to a full queue. -/
  kept : queue.overflowed = false
  /-- The task ends with the verification. -/
  running : queue.live = true → s.verification.state = .running
  /-- Nothing waits for a task that has ended. -/
  idle : queue.live = false → queue.waiting = []
  /-- The task does not end before the verification while the session is held. -/
  needed : s.held = true → s.verification.state = .running → queue.live = true

/-- What waits is what is in the queue. -/
theorem Tended.waiting_eq (tended : s.Tended queue) : s.waiting = queue.waiting := by
  rw [waiting, tended.drive]

/-- A session that has ended has nothing waiting. -/
theorem Tended.waiting_of_ended (tended : s.Tended queue)
    (ended : s.verification.state ≠ .running) : s.waiting = [] := by
  have hlive : queue.live = false := by
    cases hlive : queue.live with
    | false => rfl
    | true => exact absurd (tended.running hlive) ended
  rw [tended.waiting_eq]
  exact tended.idle hlive

/-- It makes no difference to the task whether the result was looked for, or the session let go
of. -/
theorem Tended.of_same (tended : s.Tended queue) (verification : t.verification = s.verification)
    (drive : t.drive = s.drive) (held : t.held = true → s.held = true) : t.Tended queue := by
  refine ⟨drive.trans tended.drive, tended.kept, ?_, tended.idle, ?_⟩
  · rw [verification]
    exact tended.running
  · rw [verification]
    exact fun hheld => tended.needed (held hheld)

/-- The task of a session is gone, or it has none. -/
def Rests (s : Session σ) : Prop := ∀ queue, s.drive = .queued queue → queue.live = false

/-- A session that has lost nothing rests once it has ended. -/
theorem Tended.rests (tended : s.Tended queue) (ended : s.verification.state ≠ .running) :
    s.Rests := by
  intro other hother
  obtain rfl : queue = other := Drive.queued.inj (tended.drive.symm.trans hother)
  cases hlive : queue.live with
  | false => rfl
  | true => exact absurd (tended.running hlive) ended

/-- Looking for the result changes at most that the result was read. -/
theorem exists_pollResult (s : Session σ) : ∃ read, s.pollResult.2 = { s with read } := by
  rw [pollResult]
  split
  · exact ⟨s.read, rfl⟩
  · split
    · exact ⟨s.read, rfl⟩
    · split
      · exact ⟨true, rfl⟩
      · exact ⟨s.read, rfl⟩

/-- A new session has lost nothing. -/
theorem tended_queued (header : BlockHeader) (trees : BlockTrees σ) (capacity : Nat) :
    (queued header trees capacity).Tended { capacity := max capacity 1 } :=
  ⟨rfl, rfl, fun _ => rfl, fun _ => rfl, fun _ _ => rfl⟩

end Task

variable {σ : Type} [TreeHasher σ] {s t : Session σ} {queue : TaskQueue} {verifier : Verifier}

/-- The verification of a session once the batches that wait have been handled. -/
def caughtUp (verifier : Verifier) (s : Session σ) : Verification σ :=
  (s.verification.handleAll verifier s.waiting).1

/-- What a session tells when the batches that wait are handled. -/
def owed (verifier : Verifier) (s : Session σ) : List Signal :=
  (s.verification.handleAll verifier s.waiting).2

/-- Where nothing waits, the session has caught up. -/
theorem caughtUp_of_idle (idle : s.waiting = []) (verifier : Verifier) :
    s.caughtUp verifier = s.verification := by
  rw [caughtUp, idle]
  rfl

/-- Where nothing waits, nothing is owed. -/
theorem owed_of_idle (idle : s.waiting = []) (verifier : Verifier) : s.owed verifier = [] := by
  rw [owed, idle]
  rfl

/-- A batch that is appended to a session that runs waits, or is lost if the queue is full. -/
theorem Tended.append_eq (tended : s.Tended queue) (held : s.held = true)
    (running : s.verification.state = .running) (verifier : Verifier) (items : Batch) :
    s.append verifier items =
      if queue.capacity ≤ queue.waiting.length then
        ({ s with drive := .queued { queue with overflowed := true } },
          [.log (.queueFull s.verification.block items.length)])
      else
        ({ s with drive := .queued { queue with waiting := queue.waiting ++ [items] } }, []) := by
  have hlive : ¬ queue.live = false := by
    rw [tended.needed held running]
    exact Bool.noConfusion
  rw [append, if_neg (not_not.mpr running), tended.drive]
  dsimp only
  rw [if_neg hlive]

/-- A session is given batches and tells something on the way to another one. Nothing is lost and
the queue keeps its length. Both sessions catch up to the same verification, if the first one then
handles the batches, and what is told or owed by the second one is what the first one owed and
would tell of them. -/
structure Leads (verifier : Verifier) (capacity : Nat) (s : Session σ) (batches : List Batch)
    (t : Session σ) (told : List Signal) : Prop where
  /-- Nothing is lost. -/
  tended : ∃ queue : TaskQueue, queue.capacity = capacity ∧ t.Tended queue
  /-- All batches lead to the same verification. -/
  caughtUp : t.caughtUp verifier = ((s.caughtUp verifier).handleAll verifier batches).1
  /-- All that was owed or is new has been told or is owed. -/
  told : TellSame (s.owed verifier ++ ((s.caughtUp verifier).handleAll verifier batches).2)
    (told ++ t.owed verifier)

namespace Leads

variable {capacity : Nat} {u : Session σ} {batches more : List Batch} {told signals : List Signal}

/-- Where no batches are given and the task is left alone, nothing changes. -/
theorem of_same (tended : s.Tended queue) (verification : t.verification = s.verification)
    (drive : t.drive = s.drive) (held : t.held = true → s.held = true) :
    s.Leads verifier queue.capacity [] t [] := by
  have hwaiting : t.waiting = s.waiting := by rw [waiting, waiting, drive]
  refine ⟨⟨queue, rfl, tended.of_same verification drive held⟩, ?_, ?_⟩
  · rw [Session.caughtUp, Session.caughtUp, verification, hwaiting, Verification.handleAll]
  · rw [owed, owed, verification, hwaiting, Verification.handleAll, List.append_nil]
    exact .refl _

/-- More batches lead further. -/
theorem trans (leads : s.Leads verifier capacity batches t told)
    (leads' : t.Leads verifier capacity more u signals) :
    s.Leads verifier capacity (batches ++ more) u (told ++ signals) := by
  have htold := leads.told
  have hmore := leads'.told
  have hcaughtUp := leads'.caughtUp
  rw [leads.caughtUp] at hmore hcaughtUp
  refine ⟨leads'.tended, ?_, ?_⟩
  · rw [hcaughtUp, Verification.handleAll_append]
  · rw [Verification.handleAll_append]
    have hfirst := htold.append
      (.refl ((((s.caughtUp verifier).handleAll verifier batches).1).handleAll verifier more).2)
    have hsecond := (TellSame.refl told).append hmore
    rw [List.append_assoc, List.append_assoc] at hfirst
    rw [← List.append_assoc told signals] at hsecond
    exact hfirst.trans hsecond

end Leads

/-- A batch that finds room is owed. -/
theorem Tended.append (tended : s.Tended queue) (held : s.held = true) (verifier : Verifier)
    (items : Batch)
    (room : s.verification.state = .running → s.waiting.length < queue.capacity) :
    s.Leads verifier queue.capacity [items] (s.append verifier items).1 (s.append verifier items).2 ∧
      (s.append verifier items).1.held = true ∧ Silent (s.append verifier items).2 := by
  by_cases hstate : s.verification.state ≠ .running
  · have hidle := tended.waiting_of_ended hstate
    obtain ⟨hsame, hsilent⟩ := Verification.handleAll_of_ended hstate verifier [items]
    rw [Session.append, if_pos hstate]
    refine ⟨⟨⟨queue, rfl, tended⟩, ?_, ?_⟩, held, ⟨rfl, rfl⟩⟩
    · rw [caughtUp_of_idle hidle, hsame]
    · rw [caughtUp_of_idle hidle, owed_of_idle hidle]
      exact hsilent
  · have hrunning := not_not.mp hstate
    have hwaiting := tended.waiting_eq
    have hroom : ¬ queue.capacity ≤ queue.waiting.length := by
      have := room hrunning
      rw [hwaiting] at this
      omega
    rw [tended.append_eq held hrunning, if_neg hroom]
    refine ⟨⟨⟨{ queue with waiting := queue.waiting ++ [items] }, rfl, rfl, tended.kept,
      tended.running, fun hdead => ?_, tended.needed⟩, ?_, ?_⟩, held, ⟨rfl, rfl⟩⟩
    · have hlive := tended.needed held hrunning
      exact absurd (hlive.symm.trans hdead) Bool.noConfusion
    · simp only [Session.caughtUp, waiting, tended.drive, Verification.handleAll_append]
    · simp only [owed, Session.caughtUp, waiting, tended.drive, Verification.handleAll_append]
      exact TellSame.refl _

/-- Running the task for a number of batches pays some of what is owed. If it may take all that
wait, nothing waits any more. -/
theorem Tended.runTaskFor (tended : s.Tended queue) (verifier : Verifier) (count : Nat) :
    s.Leads verifier queue.capacity [] (s.runTaskFor verifier count).1
        (s.runTaskFor verifier count).2 ∧
      (s.runTaskFor verifier count).1.held = s.held ∧
      (s.waiting.length ≤ count → (s.runTaskFor verifier count).1.waiting = []) := by
  have hwaiting := tended.waiting_eq
  rw [Session.runTaskFor, tended.drive]
  dsimp only
  cases hlive : queue.live with
  | false =>
    have hidle : s.waiting = [] := hwaiting.trans (tended.idle hlive)
    rw [if_pos rfl]
    refine ⟨⟨⟨queue, rfl, tended⟩, rfl, ?_⟩, rfl, fun _ => hidle⟩
    rw [owed_of_idle hidle]
    exact TellSame.refl []
  | true =>
    obtain ⟨hsame, htold, hruns⟩ :=
      workOff_eq verifier queue.capacity (queue.waiting.take count) (tended.running hlive)
    have hall := Verification.handleAll_append verifier s.verification (queue.waiting.take count)
      (queue.waiting.drop count)
    rw [List.take_append_drop, ← hsame] at hall
    rw [← hsame] at hruns
    have hcaughtUp : s.caughtUp verifier = (s.verification.handleAll verifier queue.waiting).1 := by
      rw [Session.caughtUp, hwaiting]
    have howed : s.owed verifier = (s.verification.handleAll verifier queue.waiting).2 := by
      rw [owed, hwaiting]
    rw [hall] at hcaughtUp howed
    rw [if_neg (by decide), tended.kept, hwaiting]
    generalize workOff verifier queue.capacity false (queue.waiting.take count) s.verification =
      out at *
    obtain ⟨runs, verification, signals⟩ := out
    dsimp only at hsame htold hruns hcaughtUp howed ⊢
    cases runs with
    | true =>
      have hrunning : verification.state = .running := hruns.mp rfl
      refine ⟨⟨⟨{ queue with
          waiting := queue.waiting.drop count
          overflowed := false
          live := !(queue.waiting.drop count).isEmpty || s.held }, rfl, ?_⟩, ?_, ?_⟩, rfl, ?_⟩
      · refine ⟨rfl, rfl, fun _ => hrunning, ?_, ?_⟩
        · intro hdead
          simpa using (Bool.or_eq_false_iff.mp hdead).1
        · intro hheld _
          exact Bool.or_eq_true_iff.mpr (Or.inr hheld)
      · exact hcaughtUp.symm
      · rw [howed, Verification.handleAll, List.append_nil]
        exact htold.append (.refl _)
      · exact fun hcount => List.drop_eq_nil_of_le hcount
    | false =>
      have hended : verification.state ≠ .running := fun h => Bool.false_ne_true (hruns.mpr h)
      obtain ⟨hstays, hsilent⟩ :=
        Verification.handleAll_of_ended hended verifier (queue.waiting.drop count)
      refine ⟨⟨⟨{ queue with waiting := [], overflowed := false, live := false }, rfl, ?_⟩, ?_, ?_⟩,
        rfl, fun _ => rfl⟩
      · exact ⟨rfl, rfl, fun h => absurd h Bool.false_ne_true, fun _ => rfl,
          fun _ hrunning => absurd hrunning hended⟩
      · exact (hcaughtUp.trans hstays).symm
      · have hall := (htold.append_silent hsilent).append (.refl [])
        rw [howed]
        exact hall

/-- Running the task until nothing waits pays all that is owed. -/
theorem Tended.runTask (tended : s.Tended queue) (verifier : Verifier) :
    (∃ last, (s.runTask verifier).1.Tended last) ∧
      (s.runTask verifier).1.held = s.held ∧ (s.runTask verifier).1.waiting = [] ∧
      (s.runTask verifier).1.verification = s.caughtUp verifier ∧
      TellSame (s.owed verifier) (s.runTask verifier).2 := by
  obtain ⟨hleads, hheld, hidle⟩ := tended.runTaskFor verifier s.waiting.length
  have hnothing := hidle le_rfl
  obtain ⟨last, -, hlast⟩ := hleads.tended
  have hcaughtUp := hleads.caughtUp
  have htold := hleads.told
  rw [caughtUp_of_idle hnothing, Verification.handleAll] at hcaughtUp
  rw [owed_of_idle hnothing, Verification.handleAll, List.append_nil, List.append_nil] at htold
  exact ⟨⟨last, hlast⟩, hheld, hnothing, hcaughtUp, htold⟩

/-- The batches that are appended while the session is held. -/
def acceptedIn : (held : Bool) → List SessionStep → List Batch
  | _, [] => []
  | held, .append items :: steps => (if held then [items] else []) ++ acceptedIn held steps
  | _, .release :: steps => acceptedIn false steps
  | held, _ :: steps => acceptedIn held steps

/-- A step leads on with the batch it appends, if there is room for it and the runtime stays. -/
theorem Tended.step (tended : s.Tended queue) (verifier : Verifier) {step : SessionStep}
    (stays : step ≠ .stopRuntime)
    (room : ∀ items, step = .append items → s.waiting.length < queue.capacity)
    (steps : List SessionStep) :
    ∃ batches, s.Leads verifier queue.capacity batches (s.step verifier step).2.1
        (s.step verifier step).2.2 ∧
      acceptedIn s.held (step :: steps) =
        batches ++ acceptedIn (s.step verifier step).2.1.held steps := by
  cases step with
  | append items =>
    rw [Session.step, acceptedIn]
    by_cases hheld : s.held = true
    · obtain ⟨hleads, hstays, -⟩ := tended.append hheld verifier items fun _ => room items rfl
      rw [if_pos hheld, if_pos hheld, hheld]
      exact ⟨[items], hleads, by rw [hstays]⟩
    · rw [if_neg hheld, if_neg hheld]
      exact ⟨[], .of_same tended rfl rfl id, rfl⟩
  | work count =>
    obtain ⟨hleads, hheld, -⟩ := tended.runTaskFor verifier count
    exact ⟨[], hleads, congrArg (acceptedIn · steps) hheld.symm⟩
  | drain =>
    obtain ⟨hleads, hheld, -⟩ := tended.runTaskFor verifier s.waiting.length
    exact ⟨[], hleads, congrArg (acceptedIn · steps) hheld.symm⟩
  | takeResult =>
    rw [Session.step]
    split
    · exact ⟨[], .of_same tended rfl rfl id, rfl⟩
    · exact ⟨[], .of_same tended rfl rfl id, rfl⟩
  | pollResult =>
    obtain ⟨read, hpolled⟩ := exists_pollResult s
    rw [Session.step]
    dsimp only
    rw [hpolled]
    exact ⟨[], .of_same tended rfl rfl id, rfl⟩
  | release => exact ⟨[], .of_same tended rfl rfl fun h => absurd h Bool.false_ne_true, rfl⟩
  | stopRuntime => exact absurd rfl stays

/-- A run leads on with the batches that are appended, if there is always room for them and the
runtime stays. The induction runs over the steps. -/
theorem Tended.run (tended : s.Tended queue) (verifier : Verifier) {steps : List SessionStep}
    (stays : .stopRuntime ∉ steps)
    (room : ∀ front items, front ++ [.append items] <+: steps →
      (s.run verifier front).2.1.waiting.length < queue.capacity) :
    s.Leads verifier queue.capacity (acceptedIn s.held steps) (s.run verifier steps).2.1
      (s.run verifier steps).2.2 := by
  induction steps generalizing s queue with
  | nil => exact .of_same tended rfl rfl id
  | cons step steps ih =>
    have hstays : step ≠ .stopRuntime := fun h => stays (h ▸ List.mem_cons_self)
    have hroom : ∀ items, step = .append items → s.waiting.length < queue.capacity := by
      rintro items rfl
      exact room [] items ⟨steps, rfl⟩
    obtain ⟨batches, hleads, haccepted⟩ := tended.step verifier hstays hroom steps
    obtain ⟨next, hcapacity, hnext⟩ := hleads.tended
    have hrest := ih hnext (fun h => stays (List.mem_cons_of_mem _ h)) fun front items hfront => by
      rw [hcapacity]
      exact room (step :: front) items (List.cons_prefix_cons.mpr ⟨rfl, hfront⟩)
    rw [hcapacity] at hrest
    rw [haccepted]
    exact hleads.trans hrest

/-- Steps that come later are taken later. -/
theorem run_append (s : Session σ) (verifier : Verifier) (front back : List SessionStep) :
    s.run verifier (front ++ back) =
      ((s.run verifier front).1 ++ ((s.run verifier front).2.1.run verifier back).1,
        ((s.run verifier front).2.1.run verifier back).2.1,
        (s.run verifier front).2.2 ++ ((s.run verifier front).2.1.run verifier back).2.2) := by
  induction front generalizing s with
  | nil => rfl
  | cons step front ih => simp only [List.cons_append, run, ih, List.append_assoc]

/-- Make a session with a task and take any steps with it: append batches, whatever they hold, run
the task at any time and for any number of batches, look for the result, let go of the session. As
long as every batch that is appended finds room in the queue and the runtime stays, the session is
in the end, after the task has run, where an inline session over the same trees is that was given
the same batches, with the same state and the same result, and the same was counted and responded.
The trees may refuse any leaf and the root, and the check of signatures may crash. The session is
made for any length of the queue that the runtime can give it. -/
theorem deferred_session_agrees (verifier : Verifier) (header : BlockHeader) (trees : BlockTrees σ)
    {capacity : Nat} (giveable : capacity ≤ TaskQueue.mostWaiting) {steps : List SessionStep}
    (stays : .stopRuntime ∉ steps)
    (room : ∀ front items, front ++ [.append items] <+: steps →
      ((queued header trees capacity).run verifier front).2.1.waiting.length < max capacity 1) :
    ∃ session answers late told answers' prompt told',
      spawn header trees capacity = .ok session ∧
      session.run verifier (steps ++ [.drain]) = (answers, late, told) ∧
      (inline header trees).run verifier ((acceptedIn true steps).map .append) =
        (answers', prompt, told') ∧
      late.verification = prompt.verification ∧
      Signal.responses told = Signal.responses told' ∧
      Signal.tallies told = Signal.tallies told' := by
  have hspawn : spawn header trees capacity = .ok (queued header trees capacity) := by
    rw [spawn, if_neg (Nat.not_lt.mpr giveable)]
  have hleads := (tended_queued header trees capacity).run verifier stays room
  have hrun := run_append (queued header trees capacity) verifier steps [.drain]
  generalize (queued header trees capacity).run verifier steps = out at hleads hrun
  obtain ⟨answers, last, told⟩ := out
  dsimp only at hleads hrun
  obtain ⟨queue, -, hlast⟩ := hleads.tended
  obtain ⟨-, -, -, hverification, hpaid⟩ := hlast.runTask verifier
  have hcaughtUp := hverification.trans hleads.caughtUp
  have htold := hleads.told.trans ((TellSame.refl told).append hpaid)
  have hlate : last.run verifier [.drain] =
      ([.done], (last.runTask verifier).1, (last.runTask verifier).2) := by
    simp only [run, Session.step, List.append_nil]
  rw [hlate] at hrun
  have hinline := run_inline (s := inline header trees) rfl rfl verifier (acceptedIn true steps)
  generalize (inline header trees).run verifier ((acceptedIn true steps).map .append) = sync at *
  obtain ⟨answers', prompt, told'⟩ := sync
  obtain ⟨rfl, rfl⟩ := Prod.mk.inj hinline
  exact ⟨_, _, _, _, _, _, _, hspawn, hrun, rfl, hcaughtUp, htold.symm.2, htold.symm.1⟩

/-- A session with room for one batch whose task runs between two batches, and which is let go of
before the task runs again, ends like an inline session. -/
theorem deferred_session_agrees_one :
    1 ≤ TaskQueue.mostWaiting ∧
    SessionStep.stopRuntime ∉
      [.append [], .drain, .append [.ofHeader ⟨0, .zero, 0⟩], .release] ∧
    ∃ session answers late told answers' prompt told',
      spawn ⟨0, .zero, 0⟩ (⟨{}, {}⟩ : BlockTrees LeafTree) 1 = .ok session ∧
      session.run (fun _ _ => .ok true) [.append [], .drain,
        .append [.ofHeader ⟨0, .zero, 0⟩], .release, .drain] = (answers, late, told) ∧
      (inline ⟨0, .zero, 0⟩ (⟨{}, {}⟩ : BlockTrees LeafTree)).run (fun _ _ => .ok true)
        [.append [], .append [.ofHeader ⟨0, .zero, 0⟩]] = (answers', prompt, told') ∧
      late.verification = prompt.verification ∧
      Signal.responses told = Signal.responses told' ∧
      Signal.tallies told = Signal.tallies told' := by
  have giveable : 1 ≤ TaskQueue.mostWaiting := by decide
  have stays : SessionStep.stopRuntime ∉
      [.append [], .drain, .append [.ofHeader ⟨0, .zero, 0⟩], .release] := by simp
  refine ⟨giveable, stays, deferred_session_agrees _ _ _ giveable stays ?_⟩
  rintro front items ⟨back, hback⟩
  -- A batch is appended at the start, and again once the task has run.
  rcases front with _ | ⟨first, _ | ⟨second, _ | ⟨third, front⟩⟩⟩
  · exact Nat.one_pos
  · simp at hback
  · simp only [List.cons_append, List.cons.injEq] at hback
    obtain ⟨rfl, rfl, -⟩ := hback
    exact Nat.one_pos
  · have hlast : front ++ SessionStep.append items :: back = [.release] := by simp_all
    rcases front with _ | ⟨fourth, front⟩
    · simp at hlast
    · simp at hlast

/-- With a queue that is asked to be longer than any can be there is no session, and so none with
the state of an inline session. -/
theorem deferred_session_no_room : ¬ ∀ capacity, 1 ≤ capacity →
    ∃ session, spawn ⟨0, .zero, 0⟩ (⟨{}, {}⟩ : BlockTrees LeafTree) capacity = .ok session ∧
      (session.run (fun _ _ => .ok true) [.append [.ofHeader ⟨0, .zero, 0⟩],
        .drain]).2.1.verification.state =
      ((inline ⟨0, .zero, 0⟩ (⟨{}, {}⟩ : BlockTrees LeafTree)).run (fun _ _ => .ok true)
        [.append [.ofHeader ⟨0, .zero, 0⟩]]).2.1.verification.state := by
  intro hall
  obtain ⟨session, hspawn, -⟩ := hall 18446744073709551615 (by decide)
  have hroom : TaskQueue.mostWaiting < 18446744073709551615 := by decide
  rw [spawn, if_pos hroom] at hspawn
  cases hspawn

end Session

end BlockIntake
