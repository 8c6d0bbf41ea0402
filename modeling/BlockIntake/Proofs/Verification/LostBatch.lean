import BlockIntake.Proofs.Verification.Ending
import BlockIntake.Proofs.Merkle.Planned
import BlockIntake.Verification.Interleaving
import BlockIntake.Verification.Verifier

/-!
# A batch that is lost while the task works

The owner of a queued session finds the queue full in one step and sets the overflow flag in
another. Once the flag is set, the next batch the task receives ends the session with a failure, so
that a block with a hole is never verified. But the task may read the flag between the two steps,
for the last batch that waits. Then nothing is left that would make it read the flag again, and the
session goes on as if no batch had been lost. This is the only way in which a loss goes unnoticed.
-/

namespace BlockIntake

open Merkle

/-- Whether a step is one of the task. -/
def AtomicStep.ofTask : AtomicStep → Bool
  | .receive | .load | .process => true
  | .check _ | .send | .flag => false

namespace SharedSession

variable {σ : Type} {verifier : Verifier} {s next start : SharedSession σ}
  {steps more : List AtomicStep}

/-- What holds between any two steps. -/
structure Coherent (s : SharedSession σ) : Prop where
  /-- At least one batch may wait. -/
  room : 0 < s.queue.capacity
  /-- The verification has a result exactly if it has ended. -/
  sound : s.verification.Sound
  /-- The task has ended with the verification, and not before. -/
  ended : s.task = .ended ↔ s.verification.state ≠ .running
  /-- An append that returns after a loss has set the flag. -/
  reported : s.lost ≠ 0 → s.queue.overflowed = true

/-- A new session is coherent. -/
theorem coherent_new (header : BlockHeader) (trees : BlockTrees σ) (capacity : Nat) :
    (new header trees capacity).Coherent := by
  refine ⟨Nat.lt_of_lt_of_le Nat.one_pos (Nat.le_max_right capacity 1), iff_of_true rfl rfl, ?_, ?_⟩
  · exact iff_of_false TaskProgress.noConfusion (fun h => h rfl)
  · intro hlost
    exact absurd rfl hlost

/-- Going on with a verification leaves the owner alone. -/
theorem owner_settle (s : SharedSession σ) (v : Verification σ) : (s.settle v).owner = s.owner := by
  rw [settle]
  split <;> rfl

/-- Going on with a verification leaves the flag alone. -/
theorem overflowed_settle (s : SharedSession σ) (v : Verification σ) :
    (s.settle v).queue.overflowed = s.queue.overflowed := by
  rw [settle]
  split <;> rfl

/-- The verification gone on with is that of the session. -/
theorem verification_settle (s : SharedSession σ) (v : Verification σ) :
    (s.settle v).verification = v := by
  rw [settle]
  split <;> rfl

/-- As long as the verification runs, the batches wait on. -/
theorem waiting_settle (s : SharedSession σ) {v : Verification σ} (running : v.state = .running) :
    (s.settle v).queue.waiting = s.queue.waiting := by
  rw [settle, if_pos running]

/-- The task of a coherent session that has not ended has a verification that runs. -/
theorem Coherent.running (coherent : s.Coherent) (working : s.task ≠ .ended) :
    s.verification.state = .running :=
  not_not.mp fun hended => working (coherent.ended.mpr hended)

/-- Going on with a sound verification keeps a session coherent. -/
theorem Coherent.settle (coherent : s.Coherent) {v : Verification σ} (sound : v.Sound) :
    (s.settle v).Coherent := by
  rw [SharedSession.settle]
  by_cases hstate : v.state = .running
  · rw [if_pos hstate]
    exact ⟨coherent.room, sound, iff_of_false TaskProgress.noConfusion (not_not.mpr hstate),
      coherent.reported⟩
  · rw [if_neg hstate]
    exact ⟨coherent.room, sound, iff_of_true rfl hstate, coherent.reported⟩

/-- The owner goes on without touching the verification or the task. -/
structure OwnerMoves (s next : SharedSession σ) : Prop where
  /-- The verification is the same. -/
  verification : next.verification = s.verification
  /-- The task is the same. -/
  task : next.task = s.task
  /-- The capacity is the same. -/
  capacity : next.queue.capacity = s.queue.capacity
  /-- Nothing that waits is taken away. -/
  waiting : s.queue.waiting <+: next.queue.waiting

/-- What a step of the owner can do. -/
inductive OwnerStep (s next : SharedSession σ) : AtomicStep → Prop where
  /-- It has nothing to report. -/
  | calm {step : AtomicStep} (lost : next.lost = s.lost)
      (flag : next.queue.overflowed = s.queue.overflowed)
      (owner : ∀ items, next.owner ≠ .refused items) : OwnerStep s next step
  /-- It finds the queue full. -/
  | refused {items : Batch} (lost : next.lost = s.lost)
      (flag : next.queue.overflowed = s.queue.overflowed) (owner : next.owner = .refused items)
      (full : s.queue.capacity ≤ s.queue.waiting.length) : OwnerStep s next .send
  /-- It sets the flag. -/
  | flagged {items : Batch} (before : s.owner = .refused items)
      (flag : next.queue.overflowed = true) (owner : next.owner = .idle) : OwnerStep s next .flag

variable [TreeHasher σ]

/-- Steps are taken one after the other. -/
theorem run?_append (s : SharedSession σ) (verifier : Verifier) (front back : List AtomicStep) :
    s.run? verifier (front ++ back) =
      (s.run? verifier front).bind fun middle => middle.run? verifier back := by
  induction front generalizing s with
  | nil => rfl
  | cons step front ih =>
    rw [List.cons_append, run?, run?]
    cases s.step? verifier step with
    | none => rfl
    | some middle => exact ih middle

/-- The last step of a run is taken where the steps before it lead. -/
theorem run?_concat {step : AtomicStep} (ran : start.run? verifier (steps ++ [step]) = some next) :
    ∃ s, start.run? verifier steps = some s ∧ s.step? verifier step = some next := by
  rw [run?_append] at ran
  obtain ⟨s, hfront, hstep⟩ := Option.bind_eq_some_iff.mp ran
  refine ⟨s, hfront, ?_⟩
  rw [run?] at hstep
  obtain ⟨last, hlast, hdone⟩ := Option.bind_eq_some_iff.mp hstep
  rw [run?] at hdone
  rw [hlast, hdone]

/-- What a step of the task can do. -/
inductive TaskStep (verifier : Verifier) (s next : SharedSession σ) : AtomicStep → Prop where
  /-- It receives a batch. -/
  | receive {items : Batch} (before : s.task = .waiting)
      (next_eq : next = { s with
        task := .received items, queue := { s.queue with waiting := s.queue.waiting.tail } }) :
      TaskStep verifier s next .receive
  /-- It reads the flag. -/
  | load {items : Batch} (before : s.task = .received items)
      (next_eq : next = { s with task := .checked items s.queue.overflowed }) :
      TaskStep verifier s next .load
  /-- It fails. -/
  | fail {items : Batch} (before : s.task = .checked items true)
      (next_eq : next = s.settle (s.verification.fail (.overflow s.queue.capacity)).1) :
      TaskStep verifier s next .process
  /-- It processes the batch. -/
  | process {items : Batch} (before : s.task = .checked items false)
      (next_eq : next = s.settle (s.verification.handle verifier items).1) :
      TaskStep verifier s next .process

/-- A step is one of the owner or one of the task. -/
theorem step?_cases {step : AtomicStep} (taken : s.step? verifier step = some next) :
    (step.ofTask = false ∧ OwnerMoves s next ∧ OwnerStep s next step) ∨
      (step.ofTask = true ∧ next.owner = s.owner ∧ TaskStep verifier s next step) := by
  cases step with
  | check items =>
    left
    rw [step?] at taken
    split at taken
    · next howner =>
      obtain rfl := Option.some.inj taken
      refine ⟨rfl, ?_, ?_⟩
      · split <;> exact ⟨rfl, rfl, rfl, List.prefix_rfl⟩
      · split
        · exact .calm rfl rfl fun _ => AppendProgress.noConfusion
        · refine .calm rfl rfl fun other => ?_
          rw [howner]
          exact AppendProgress.noConfusion
    · exact absurd taken.symm (Option.some_ne_none _)
  | send =>
    left
    rw [step?] at taken
    split at taken
    · split at taken
      · obtain rfl := Option.some.inj taken
        exact ⟨rfl, ⟨rfl, rfl, rfl, List.prefix_rfl⟩, .calm rfl rfl fun _ =>
          AppendProgress.noConfusion⟩
      · split at taken
        · next hfull =>
          obtain rfl := Option.some.inj taken
          exact ⟨rfl, ⟨rfl, rfl, rfl, List.prefix_rfl⟩, .refused rfl rfl rfl hfull⟩
        · obtain rfl := Option.some.inj taken
          exact ⟨rfl, ⟨rfl, rfl, rfl, List.prefix_append _ _⟩, .calm rfl rfl fun _ =>
            AppendProgress.noConfusion⟩
    · exact absurd taken.symm (Option.some_ne_none _)
  | flag =>
    left
    rw [step?] at taken
    split at taken
    · next howner =>
      obtain rfl := Option.some.inj taken
      exact ⟨rfl, ⟨rfl, rfl, rfl, List.prefix_rfl⟩, .flagged howner rfl rfl⟩
    · exact absurd taken.symm (Option.some_ne_none _)
  | receive =>
    right
    rw [step?] at taken
    split at taken
    · next htask hwaiting =>
      obtain rfl := Option.some.inj taken
      exact ⟨rfl, rfl, .receive htask (by rw [hwaiting]; rfl)⟩
    · exact absurd taken.symm (Option.some_ne_none _)
  | load =>
    right
    rw [step?] at taken
    split at taken
    · next htask =>
      obtain rfl := Option.some.inj taken
      exact ⟨rfl, rfl, .load htask rfl⟩
    · exact absurd taken.symm (Option.some_ne_none _)
  | process =>
    right
    rw [step?] at taken
    split at taken
    · next htask =>
      obtain rfl := Option.some.inj taken
      exact ⟨rfl, owner_settle s _, .fail htask rfl⟩
    · next htask =>
      obtain rfl := Option.some.inj taken
      exact ⟨rfl, owner_settle s _, .process htask rfl⟩
    · exact absurd taken.symm (Option.some_ne_none _)

/-- A task that takes a step has not ended. -/
theorem TaskStep.task_ne_ended {step : AtomicStep} (h : TaskStep verifier s next step) :
    s.task ≠ .ended := by
  cases h with
  | receive before _ => rw [before]; exact TaskProgress.noConfusion
  | load before _ => rw [before]; exact TaskProgress.noConfusion
  | fail before _ => rw [before]; exact TaskProgress.noConfusion
  | process before _ => rw [before]; exact TaskProgress.noConfusion

/-- A step keeps what holds between any two steps. -/
theorem Coherent.step (coherent : s.Coherent) {step : AtomicStep}
    (taken : s.step? verifier step = some next) : next.Coherent := by
  rcases step?_cases taken with ⟨-, hmoves, hstep⟩ | ⟨-, -, hstep⟩
  · refine ⟨?_, ?_, ?_, ?_⟩
    · rw [hmoves.capacity]
      exact coherent.room
    · rw [hmoves.verification]
      exact coherent.sound
    · rw [hmoves.verification, hmoves.task]
      exact coherent.ended
    · cases hstep with
      | calm lost flag owner =>
        rw [lost, flag]
        exact coherent.reported
      | refused lost flag owner full =>
        rw [lost, flag]
        exact coherent.reported
      | flagged before flag owner => exact fun _ => flag
  · have hrunning := coherent.running hstep.task_ne_ended
    cases hstep with
    | receive before next_eq =>
      subst next_eq
      exact ⟨coherent.room, coherent.sound,
        iff_of_false TaskProgress.noConfusion (not_not.mpr hrunning), coherent.reported⟩
    | load before next_eq =>
      subst next_eq
      exact ⟨coherent.room, coherent.sound,
        iff_of_false TaskProgress.noConfusion (not_not.mpr hrunning), coherent.reported⟩
    | fail before next_eq =>
      subst next_eq
      exact coherent.settle ((Verification.advances_fail coherent.sound _).sound coherent.sound)
    | process before next_eq =>
      subst next_eq
      exact coherent.settle
        ((Verification.advances_handle verifier coherent.sound _).sound coherent.sound)

/-- A run keeps what holds between any two steps. -/
theorem Coherent.run (coherent : s.Coherent) (ran : s.run? verifier steps = some next) :
    next.Coherent := by
  induction steps generalizing s with
  | nil =>
    obtain rfl := Option.some.inj ran
    exact coherent
  | cons step steps ih =>
    rw [run?] at ran
    obtain ⟨middle, hstep, hrest⟩ := Option.bind_eq_some_iff.mp ran
    exact ih (coherent.step hstep) hrest

/-- The session fails with the next batch the task goes on with: the flag is set, and the task has
not read it before that. -/
structure Doomed (s : SharedSession σ) : Prop where
  /-- The flag is set. -/
  flagged : s.queue.overflowed = true
  /-- The verification runs. -/
  running : s.verification.state = .running
  /-- The task works on no batch for which it read the flag before that. -/
  unread : ∀ items, s.task ≠ .checked items false

/-- A session that has failed stays so, and its task takes no more steps. -/
theorem failed_step (coherent : s.Coherent) (failed : s.verification.state = .failed)
    {step : AtomicStep} (taken : s.step? verifier step = some next) :
    step.ofTask = false ∧ next.verification.state = .failed := by
  rcases step?_cases taken with ⟨howner, hmoves, -⟩ | ⟨-, -, hstep⟩
  · rw [hmoves.verification]
    exact ⟨howner, failed⟩
  · have hrunning := coherent.running hstep.task_ne_ended
    rw [failed] at hrunning
    exact absurd hrunning SessionState.noConfusion

/-- A doomed session stays so until its task goes on with a batch, and then it fails. -/
theorem Doomed.step (doomed : s.Doomed) (coherent : s.Coherent) {step : AtomicStep}
    (taken : s.step? verifier step = some next) :
    (step ≠ .process ∧ next.Doomed) ∨ (step = .process ∧ next.verification.state = .failed) := by
  rcases step?_cases taken with ⟨howner, hmoves, hstep⟩ | ⟨-, -, hstep⟩
  · left
    constructor
    · rintro rfl
      cases howner
    · refine ⟨?_, ?_, ?_⟩
      · cases hstep with
        | calm lost flag owner => exact flag.trans doomed.flagged
        | refused lost flag owner full => exact flag.trans doomed.flagged
        | flagged before flag owner => exact flag
      · rw [hmoves.verification]
        exact doomed.running
      · rw [hmoves.task]
        exact doomed.unread
  · cases hstep with
    | receive before next_eq =>
      subst next_eq
      exact Or.inl ⟨AtomicStep.noConfusion, doomed.flagged, doomed.running, fun _ =>
        TaskProgress.noConfusion⟩
    | load before next_eq =>
      subst next_eq
      refine Or.inl ⟨AtomicStep.noConfusion, doomed.flagged, doomed.running, fun items h => ?_⟩
      have hflag := (TaskProgress.checked.inj h).2
      rw [doomed.flagged] at hflag
      exact Bool.noConfusion hflag
    | fail before next_eq =>
      subst next_eq
      refine Or.inr ⟨rfl, ?_⟩
      have hpending := coherent.sound.mp doomed.running
      rw [verification_settle, Verification.fail, hpending]
      rfl
    | process before _ => exact absurd before (doomed.unread _)

/-- A session that has failed stays so on every run. -/
theorem failed_run (coherent : s.Coherent) (failed : s.verification.state = .failed)
    (ran : s.run? verifier more = some next) : next.verification.state = .failed := by
  induction more generalizing s with
  | nil =>
    obtain rfl := Option.some.inj ran
    exact failed
  | cons step more ih =>
    rw [run?] at ran
    obtain ⟨middle, hstep, hrest⟩ := Option.bind_eq_some_iff.mp ran
    exact ih (coherent.step hstep) (failed_step coherent failed hstep).2 hrest

/-- A doomed session fails with the next batch its task goes on with, and runs until then. -/
theorem Doomed.run (doomed : s.Doomed) (coherent : s.Coherent)
    (ran : s.run? verifier more = some next) :
    (.process ∈ more → next.verification.state = .failed) ∧
      (.process ∉ more → next.verification.state = .running) := by
  induction more generalizing s with
  | nil =>
    obtain rfl := Option.some.inj ran
    exact ⟨fun h => absurd h List.not_mem_nil, fun _ => doomed.running⟩
  | cons step more ih =>
    rw [run?] at ran
    obtain ⟨middle, hstep, hrest⟩ := Option.bind_eq_some_iff.mp ran
    have hmiddle := coherent.step hstep
    rcases doomed.step coherent hstep with ⟨hother, hdoomed⟩ | ⟨rfl, hfailed⟩
    · obtain ⟨hends, hruns⟩ := ih hdoomed hmiddle hrest
      constructor
      · intro h
        exact hends ((List.mem_cons.mp h).resolve_left hother.symm)
      · intro h
        exact hruns fun hlater => h (List.mem_cons_of_mem _ hlater)
    · have hlast := failed_run hmiddle hfailed hrest
      exact ⟨fun _ => hlast, fun h => absurd List.mem_cons_self h⟩

/-- If the session runs, the task has yet to read the flag, or has found it set. -/
def Attentive (s : SharedSession σ) : Prop :=
  s.verification.state = .running → s.queue.waiting ≠ [] ∨ (∃ items, s.task = .received items) ∨
    ∃ items, s.task = .checked items true

omit [TreeHasher σ] in
/-- The owner leaves the task attentive. -/
theorem OwnerMoves.attentive (moves : OwnerMoves s next) (attentive : s.Attentive) :
    next.Attentive := by
  intro hrunning
  rw [moves.verification] at hrunning
  rw [moves.task]
  rcases attentive hrunning with hwaiting | htask
  · exact Or.inl fun hnone => hwaiting (List.prefix_nil.mp (hnone ▸ moves.waiting))
  · exact Or.inr htask

/-- The task stays attentive, unless it reads a flag that is not set. -/
theorem TaskStep.attentive {step : AtomicStep} (h : TaskStep verifier s next step)
    (coherent : s.Coherent) (attentive : s.Attentive) :
    next.Attentive ∨ (step = .load ∧ s.queue.overflowed = false) := by
  have hbefore := coherent.running h.task_ne_ended
  cases h with
  | receive before next_eq =>
    subst next_eq
    exact Or.inl fun _ => Or.inr (Or.inl ⟨_, rfl⟩)
  | load before next_eq =>
    subst next_eq
    cases hflag : s.queue.overflowed with
    | false => exact Or.inr ⟨rfl, rfl⟩
    | true => exact Or.inl fun _ => Or.inr (Or.inr ⟨_, rfl⟩)
  | fail before next_eq =>
    subst next_eq
    left
    intro hrunning
    rw [verification_settle, Verification.fail, coherent.sound.mp hbefore] at hrunning
    exact absurd hrunning SessionState.noConfusion
  | process before next_eq =>
    subst next_eq
    left
    intro hrunning
    rw [verification_settle] at hrunning
    rw [waiting_settle s hrunning]
    -- The task found the flag unset for the batch under way, so another batch waits.
    rcases attentive hbefore with hwaiting | ⟨items, htask⟩ | ⟨items, htask⟩
    · exact Or.inl hwaiting
    · rw [before] at htask
      exact TaskProgress.noConfusion htask
    · rw [before] at htask
      exact Bool.noConfusion (TaskProgress.checked.inj htask).2

/-- The task leaves the flag alone. -/
theorem TaskStep.overflowed_eq {step : AtomicStep} (h : TaskStep verifier s next step) :
    next.queue.overflowed = s.queue.overflowed := by
  cases h with
  | receive before next_eq => rw [next_eq]
  | load before next_eq => rw [next_eq]
  | fail before next_eq => rw [next_eq, overflowed_settle]
  | process before next_eq => rw [next_eq, overflowed_settle]

/-- After the steps `before` the owner finds the queue full, and the steps `between` are steps of
the task. -/
def Refuses (verifier : Verifier) (start : SharedSession σ) (before between : List AtomicStep) :
    Prop :=
  (∀ step ∈ between, step.ofTask = true) ∧
    ∃ s items, start.run? verifier (before ++ [.send]) = some s ∧ s.owner = .refused items

/-- Between the step in which the owner finds the queue full and the one in which it sets the flag,
the task reads the flag. -/
def FlagsLate (verifier : Verifier) (start : SharedSession σ) (steps : List AtomicStep) : Prop :=
  ∃ before between after, steps = before ++ .send :: (between ++ .flag :: after) ∧
    Refuses verifier start before between ∧ .load ∈ between

/-- What was late stays late. -/
theorem FlagsLate.append (late : FlagsLate verifier start steps) (more : List AtomicStep) :
    FlagsLate verifier start (steps ++ more) := by
  obtain ⟨before, between, after, rfl, hrefuses, hload⟩ := late
  exact ⟨before, between, after ++ more, by simp, hrefuses, hload⟩

/-- As long as the owner has a loss to report, and after it has reported one, the task is attentive,
unless it has read the flag too early. -/
structure Watched (verifier : Verifier) (start : SharedSession σ) (steps : List AtomicStep)
    (s : SharedSession σ) : Prop where
  /-- There is a loss to report. -/
  refused : ∀ items, s.owner = .refused items → ∃ before between,
    steps = before ++ .send :: between ∧ Refuses verifier start before between ∧
      (.load ∈ between ∨ s.Attentive)
  /-- A loss was reported. -/
  flagged : s.queue.overflowed = true → FlagsLate verifier start steps ∨ s.Attentive

/-- A step of the owner is watched. -/
theorem Watched.owner (watched : Watched verifier start steps s) (coherent : s.Coherent)
    {step : AtomicStep} (ran : start.run? verifier (steps ++ [step]) = some next)
    (moves : OwnerMoves s next) (taken : OwnerStep s next step) :
    Watched verifier start (steps ++ [step]) next := by
  have hreported : s.queue.overflowed = true →
      FlagsLate verifier start (steps ++ [step]) ∨ next.Attentive := by
    intro hflag
    rcases watched.flagged hflag with hlate | hattentive
    · exact Or.inl (hlate.append [step])
    · exact Or.inr (moves.attentive hattentive)
  cases taken with
  | calm lost flag owner =>
    rw [← flag] at hreported
    exact ⟨fun items h => absurd h (owner items), hreported⟩
  | @refused items lost flag owner full =>
    rw [← flag] at hreported
    refine ⟨fun _ _ => ⟨steps, [], rfl, ⟨by simp, next, items, ran, owner⟩, Or.inr ?_⟩, hreported⟩
    -- A full queue is not empty.
    have hattentive : s.Attentive := by
      intro _
      left
      have hfull := Nat.lt_of_lt_of_le coherent.room full
      exact List.ne_nil_of_length_pos hfull
    exact moves.attentive hattentive
  | @flagged items before flag owner =>
    refine ⟨fun other h => ?_, fun _ => ?_⟩
    · rw [owner] at h
      exact AppendProgress.noConfusion h
    · obtain ⟨front, between, rfl, hrefuses, hload | hattentive⟩ := watched.refused items before
      · exact Or.inl ⟨front, between, [], by simp, hrefuses, hload⟩
      · exact Or.inr (moves.attentive hattentive)

/-- A step of the task is watched. -/
theorem Watched.task (watched : Watched verifier start steps s) (coherent : s.Coherent)
    {step : AtomicStep} (ofTask : step.ofTask = true) (owner : next.owner = s.owner)
    (taken : TaskStep verifier s next step) :
    Watched verifier start (steps ++ [step]) next := by
  constructor
  · intro items h
    rw [owner] at h
    obtain ⟨before, between, rfl, ⟨hsteps, hrefuses⟩, hload⟩ := watched.refused items h
    refine ⟨before, between ++ [step], by simp, ⟨?_, hrefuses⟩, ?_⟩
    · intro other hother
      rcases List.mem_append.mp hother with hold | hnew
      · exact hsteps other hold
      · rw [List.mem_singleton.mp hnew]
        exact ofTask
    · rcases hload with hload | hattentive
      · exact Or.inl (List.mem_append_left _ hload)
      · rcases taken.attentive coherent hattentive with hnext | ⟨rfl, -⟩
        · exact Or.inr hnext
        · exact Or.inl (List.mem_append_right _ (List.mem_singleton_self _))
  · intro hflag
    rw [taken.overflowed_eq] at hflag
    rcases watched.flagged hflag with hlate | hattentive
    · exact Or.inl (hlate.append [step])
    · rcases taken.attentive coherent hattentive with hnext | ⟨-, hunset⟩
      · exact Or.inr hnext
      · rw [hflag] at hunset
        exact Bool.noConfusion hunset

/-- Every run of a new session is watched. The induction runs over the steps, the last one last. -/
theorem watched_run (header : BlockHeader) (trees : BlockTrees σ) (capacity : Nat)
    (ran : (new header trees capacity).run? verifier steps = some s) :
    Watched verifier (new header trees capacity) steps s := by
  induction steps using List.reverseRecOn generalizing s with
  | nil =>
    obtain rfl := Option.some.inj ran
    exact ⟨fun _ h => AppendProgress.noConfusion h, fun h => Bool.noConfusion h⟩
  | append_singleton steps step ih =>
    obtain ⟨middle, hmiddle, hstep⟩ := run?_concat ran
    have hcoherent := (coherent_new header trees capacity).run hmiddle
    rcases step?_cases hstep with ⟨-, hmoves, htaken⟩ | ⟨htask, howner, htaken⟩
    · exact (ih hmiddle).owner hcoherent ran hmoves htaken
    · exact (ih hmiddle).task hcoherent htask howner htaken

/-- Once an append has returned after its batch was lost to a full queue, the flag is set. If the
task works on no batch for which it read the flag before that, the session ends with a failure as
soon as the task goes on with a batch, and never verifies its block. And if no batch waits then and
the task waits for one, so that the loss has gone unnoticed, the flag was set late: the task had
read it after the owner found the queue full. -/
theorem loss_ends_session_or_flags_late (verifier : Verifier) (header : BlockHeader)
    (trees : BlockTrees σ) (capacity : Nat) {steps : List AtomicStep} {s : SharedSession σ}
    (ran : (new header trees capacity).run? verifier steps = some s) (lost : s.lost ≠ 0) :
    s.queue.overflowed = true ∧
      ((∀ items, s.task ≠ .checked items false) → s.verification.state = .running →
        ∀ more next, s.run? verifier more = some next →
          (.process ∈ more → next.verification.state = .failed) ∧
          (.process ∉ more → next.verification.state = .running)) ∧
      (s.queue.waiting = [] → s.task = .waiting →
        FlagsLate verifier (new header trees capacity) steps) := by
  have hcoherent := (coherent_new header trees capacity).run ran
  have hflag := hcoherent.reported lost
  refine ⟨hflag, ?_, ?_⟩
  · intro unread running more next hmore
    have hdoomed : s.Doomed := ⟨hflag, running, unread⟩
    exact hdoomed.run hcoherent hmore
  · intro hidle htask
    have hrunning := hcoherent.running (by rw [htask]; exact TaskProgress.noConfusion)
    rcases (watched_run header trees capacity ran).flagged hflag with hlate | hattentive
    · exact hlate
    · rcases hattentive hrunning with hwaiting | ⟨items, hreceived⟩ | ⟨items, hchecked⟩
      · exact absurd hidle hwaiting
      · rw [htask] at hreceived
        exact TaskProgress.noConfusion hreceived
      · rw [htask] at hchecked
        exact TaskProgress.noConfusion hchecked

/-- The batch with the header of a brief block is hashed, and the verification runs on. -/
theorem handle_openingBatch (verifier : Verifier) :
    Verification.handle verifier (⟨0, ⟨{}, {}⟩, .running, none⟩ : Verification LeafTree)
        [.ofHeader ⟨0, .zero, 0⟩] =
      (⟨0, ⟨{}, { leaves := #[(Item.ofHeader ⟨0, .zero, 0⟩).leafHash] }⟩, .running, none⟩, []) := by
  have hadd : TreeHasher.add ({} : LeafTree) (Item.ofHeader ⟨0, .zero, 0⟩).leafHash.bytes =
      .ok ({ leaves := #[(Item.ofHeader ⟨0, .zero, 0⟩).leafHash] } : LeafTree) :=
    add_digest rfl (by decide) _
  have hside : (Item.ofHeader ⟨0, .zero, 0⟩).kind.side? = some .output := rfl
  have hkind : (Item.ofHeader ⟨0, .zero, 0⟩).kind ≠ .blockProof := by decide
  simp [Verification.handle, Verification.process, BlockTrees.addAll, BlockTrees.add, hside, hadd,
    hkind, ofTreeFault, Except.mapError]

/-- Two batches are appended to a session for one. The second is lost, and reported at once, and so
the session fails when the task goes on with the first. -/
theorem loss_ends_session_promptly : ∃ s next : SharedSession LeafTree,
    (new ⟨0, .zero, 0⟩ ⟨{}, {}⟩ 1).run? .hashEcho
      [.check [.ofHeader ⟨0, .zero, 0⟩], .send, .check [.ofProof ⟨0, .zero, .zero, []⟩], .send,
        .flag] = some s ∧
    s.lost ≠ 0 ∧ s.run? .hashEcho [.receive, .load, .process] = some next ∧
    next.verification.state = .failed := by
  obtain ⟨s, next, ran, lost, running, waiting, more⟩ : ∃ s next : SharedSession LeafTree,
      (new ⟨0, .zero, 0⟩ ⟨{}, {}⟩ 1).run? .hashEcho
        [.check [.ofHeader ⟨0, .zero, 0⟩], .send, .check [.ofProof ⟨0, .zero, .zero, []⟩], .send,
          .flag] = some s ∧
      s.lost ≠ 0 ∧ s.verification.state = .running ∧ s.task = .waiting ∧
      s.run? .hashEcho [.receive, .load, .process] = some next :=
    ⟨_, _, rfl, Nat.one_ne_zero, rfl, rfl, rfl⟩
  obtain ⟨-, hends, -⟩ :=
    loss_ends_session_or_flags_late .hashEcho ⟨0, .zero, 0⟩ ⟨{}, {}⟩ 1 ran lost
  have hunread : ∀ items, s.task ≠ .checked items false := by
    intro items h
    rw [waiting] at h
    exact TaskProgress.noConfusion h
  have hfails := (hends hunread running [.receive, .load, .process] next more).1
  exact ⟨s, next, ran, lost, more, hfails (by simp)⟩

/-- Two batches of a brief block are appended to a session for one. The second, with the proof,
finds the queue full. Before the owner sets the flag the task works off the first. So the append has
returned and its batch is lost, nothing waits, and the task waits for a batch, but the session still
runs, and no step of the task is left that could end it. -/
theorem loss_goes_unnoticed : ∃ s : SharedSession LeafTree,
    (new ⟨0, .zero, 0⟩ ⟨{}, {}⟩ 1).run? .hashEcho
      [.check [.ofHeader ⟨0, .zero, 0⟩], .send, .check [.ofProof ⟨0, .zero, .zero, []⟩], .send,
        .receive, .load, .process, .flag] = some s ∧
    s.lost = 1 ∧ s.queue.waiting = [] ∧ s.task = .waiting ∧ s.verification.state = .running ∧
    ∀ step, step.ofTask = true → s.step? .hashEcho step = none := by
  have hhandled := handle_openingBatch .hashEcho
  refine ⟨⟨⟨0, ⟨{}, { leaves := #[(Item.ofHeader ⟨0, .zero, 0⟩).leafHash] }⟩, .running, none⟩,
    { capacity := 1, overflowed := true }, .idle, .waiting, 1⟩, ?_, rfl, rfl, rfl, rfl, ?_⟩
  · simp [run?, step?, new, settle, hhandled]
  · intro step htask
    cases step with
    | receive => rfl
    | load => rfl
    | process => rfl
    | check items => cases htask
    | send => cases htask
    | flag => cases htask

end SharedSession

end BlockIntake
