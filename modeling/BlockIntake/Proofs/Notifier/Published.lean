import BlockIntake.Proofs.Notifier.Attendance

/-!
# What a subscriber gets

A receiver gets the responses published since it was added in order and none of them twice, the
losses make up exactly for what it misses, and whatever other receivers do changes nothing for it:
it gets what it would get alone.
-/

namespace BlockIntake

namespace Notifier

open NotifierHistory

variable {slots receiver : Nat} {later : NotifierHistory}

/-- What a step is to one receiver, if it concerns it at all, when it is the only one. -/
def ownStep (receiver : Nat) : NotifierStep → Option NotifierStep
  | .receive reader => if reader = receiver then some (.receive 0) else none
  | .unsubscribe reader => if reader = receiver then some (.unsubscribe 0) else none
  | .publish response => some (.publish response)
  | .subscribe | .close => none

/-- The steps of a notifier to which nobody but one receiver has ever subscribed, which goes through
what has happened since it was added. -/
def alone (receiver : Nat) (later : NotifierHistory) : List NotifierStep :=
  .subscribe :: later.filterMap fun entry => ownStep receiver entry.1

/-- Two receivers have seen the same. -/
structure SameView (receiver : Nat) (later : NotifierHistory) (other : Nat)
    (sole : NotifierHistory) : Prop where
  /-- The same responses were published. -/
  responses : sole.responses = later.responses
  /-- They were given the same answers. -/
  answers : sole.answersTo other = later.answersTo receiver
  /-- Both have left, or neither. -/
  left : sole.hasLeft other = later.hasLeft receiver

/-- Receivers that have seen the same are due the same answer. -/
theorem SameView.due {other : Nat} {sole : NotifierHistory}
    (same : SameView receiver later other sole) (slots : Nat) :
    sole.due slots other = later.due slots receiver := by
  rw [NotifierHistory.due, NotifierHistory.due, same.left, same.responses, same.answers]

/-- Receivers that have seen the same see the same in steps that are the same for both. -/
theorem SameView.concat {other : Nat} {sole : NotifierHistory}
    (same : SameView receiver later other sole) {more last : NotifierHistory}
    (step : SameView receiver last other more) :
    SameView receiver (later ++ last) other (sole ++ more) where
  responses := by rw [responses_append, responses_append, same.responses, step.responses]
  answers := by rw [answersTo_append, answersTo_append, same.answers, step.answers]
  left := by rw [hasLeft_append, hasLeft_append, same.left, step.left]

/-- Nothing is closed by a receiver alone. -/
theorem close_notMem_alone (receiver : Nat) (later : NotifierHistory) :
    .close ∉ alone receiver later := by
  intro hmem
  rcases List.mem_cons.mp hmem with h | h
  · cases h
  · obtain ⟨⟨step, answer⟩, -, hstep⟩ := List.mem_filterMap.mp h
    cases step with
    | subscribe => cases hstep
    | close => cases hstep
    | publish response => cases hstep
    | unsubscribe reader =>
      simp only [ownStep] at hstep
      split at hstep <;> cases hstep
    | receive reader =>
      simp only [ownStep] at hstep
      split at hstep <;> cases hstep

/-- A receiver that was served was served before. -/
theorem Served.before {before : NotifierHistory} (served : Served slots receiver later)
    (h : before <+: later) : Served slots receiver before where
  reads front hfront := served.reads front (hfront.trans h)
  answers front answer hfront := served.answers front answer (hfront.trans h)

/-- One more step of a receiver alone. -/
theorem alone_concat (receiver : Nat) (later : NotifierHistory)
    (entry : NotifierStep × Option (Received Response)) :
    alone receiver (later ++ [entry]) =
      alone receiver later ++ (ownStep receiver entry.1).toList := by
  rw [alone, List.filterMap_append, ← List.cons_append]
  congr 1

/-- One more step, seen from the step that added the first receiver. -/
theorem tail_history_concat (capacity : Nat) (receiver : Nat) (later : NotifierHistory)
    (step : NotifierStep) :
    ((new capacity).history (alone receiver later ++ [step])).tail =
      ((new capacity).history (alone receiver later)).tail ++
        [(step, (((new capacity).run (alone receiver later)).2.step step).1)] := by
  rw [history_concat]
  exact List.tail_append_of_ne_nil (List.cons_ne_nil _ _)

/-- The first receiver has seen everything since the step that added it. -/
theorem since_history_alone (capacity receiver : Nat) (later : NotifierHistory)
    (steps : List NotifierStep) :
    since 0 ((new capacity).history (alone receiver later ++ steps)) =
      some ((new capacity).history (alone receiver later ++ steps)).tail := rfl

/-- A receiver that was served sees what it would see alone. The induction runs over what has
happened, the last step first. -/
theorem Served.sameView {capacity : Nat}
    (served : Served (powerOfTwo (ceilLog2 (max capacity 1))) receiver later) :
    SameView receiver later 0 ((new capacity).history (alone receiver later)).tail := by
  induction later using List.reverseRecOn with
  | nil => exact ⟨rfl, rfl, rfl⟩
  | append_singleton later entry ih =>
    have hsame := ih (served.before (List.prefix_append _ _))
    have hclose := close_notMem_alone receiver (later ++ [entry])
    obtain ⟨step, answer⟩ := entry
    rw [alone_concat] at hclose ⊢
    cases step with
    | subscribe =>
      have hquiet : SameView receiver [(.subscribe, answer)] 0 [] := ⟨rfl, rfl, rfl⟩
      simpa [ownStep] using hsame.concat hquiet
    | close =>
      have hquiet : SameView receiver [(.close, answer)] 0 [] := ⟨rfl, rfl, rfl⟩
      simpa [ownStep] using hsame.concat hquiet
    | publish response =>
      simp only [ownStep, Option.toList_some, tail_history_concat]
      exact hsame.concat ⟨rfl, rfl, rfl⟩
    | unsubscribe reader =>
      by_cases hreader : reader = receiver
      · simp only [ownStep, if_pos hreader, Option.toList_some, tail_history_concat]
        exact hsame.concat ⟨rfl, rfl, by simp [hasLeft, hreader]⟩
      · have hquiet : SameView receiver [(.unsubscribe reader, answer)] 0 [] :=
          ⟨rfl, rfl, by simp [hasLeft, hreader]⟩
        simpa [ownStep, hreader] using hsame.concat hquiet
    | receive reader =>
      by_cases hreader : reader = receiver
      · subst hreader
        simp only [ownStep, if_pos, Option.toList_some] at hclose ⊢
        have hsole := (attends_run capacity hclose).stands 0
        rw [since_history_alone, tail_history_concat] at hsole
        have hanswer := hsole.served.answers _ _ (List.prefix_refl _)
        obtain rfl := served.answers later answer (List.prefix_refl _)
        rw [hsame.due] at hanswer
        rw [tail_history_concat, hanswer]
        exact hsame.concat ⟨rfl, by simp [answersTo], rfl⟩
      · have hquiet : SameView receiver [(.receive reader, answer)] 0 [] :=
          ⟨rfl, by simp [answersTo, hreader], rfl⟩
        simpa [ownStep, hreader] using hsame.concat hquiet

/-- A receiver keeps up if, as long as it has not left, it is never more than so many responses
behind. -/
def KeepsUp (most receiver : Nat) (later : NotifierHistory) : Prop :=
  ∀ before : NotifierHistory, before <+: later → before.hasLeft receiver = false →
    before.responses.length ≤ (Received.values (before.answersTo receiver)).length + most

/-- What a receiver that has not left is due fits its place. -/
theorem due_of_stays (stays : later.hasLeft receiver = false) : later.due slots receiver =
    .next slots later.responses (Received.passed (later.answersTo receiver)) := by
  rw [due, stays]
  rfl

/-- A receiver that keeps up loses nothing, if as many responses are kept. The induction runs over
what has happened, the last step first. -/
theorem Served.losses_eq_nil {most : Nat} (served : Served slots receiver later)
    (room : most ≤ slots) (keepsUp : KeepsUp most receiver later) :
    Received.losses (later.answersTo receiver) = [] := by
  induction later using List.reverseRecOn with
  | nil => rfl
  | append_singleton front entry ih =>
    have hbefore : front <+: front ++ [entry] := List.prefix_append _ _
    have hnone := ih (served.before hbefore) fun before h => keepsUp before (h.trans hbefore)
    rw [answersTo_append, Received.losses_append, hnone, List.nil_append]
    obtain ⟨step, answer⟩ := entry
    cases step with
    | subscribe => rfl
    | unsubscribe reader => rfl
    | publish response => rfl
    | close => rfl
    | receive reader =>
      by_cases hreader : reader = receiver
      · subst hreader
        have hanswer := served.answers front answer (List.prefix_refl _)
        have hone : answersTo reader [(.receive reader, answer)] = [due slots reader front] := by
          simp [answersTo, hanswer]
        rw [hone]
        cases hleft : hasLeft reader front with
        | true =>
          rw [due, hleft]
          rfl
        | false =>
          have hpassed : Received.passed (answersTo reader front) =
              (Received.values (answersTo reader front)).length := by
            rw [Received.passed, hnone]
            rfl
          have hnear := keepsUp front hbefore hleft
          rw [due_of_stays hleft]
          exact Received.losses_next (by omega)
      · simp [answersTo, hreader, Received.losses]

/-- A history has the responses that its steps publish. -/
theorem responses_history (notifier : Notifier) (steps : List NotifierStep) :
    (notifier.history steps).responses = publishedIn steps := by
  have hsteps : (notifier.history steps).map Prod.fst = steps :=
    List.map_fst_zip (length_run notifier steps).ge
  rw [responses, publishedIn]
  conv_rhs => rw [← hsteps, List.filterMap_map]
  refine List.filterMap_congr fun entry _ => ?_
  obtain ⟨step, answer⟩ := entry
  cases step <;> rfl

/-- Whatever has happened to an open notifier, all responses are counted, and whoever has subscribed
has got responses published since then, in order, and none of them twice. Each time it read, it got
the answer that follows from its place; and if that was that there is nothing, then what it had got
and what it was told is lost made up all responses. If it was never more than `capacity` of them
behind, or one if that is zero, it has lost none and got every one it has come to. And all answers
are those it would have got if nobody else had ever subscribed. -/
theorem subscriber_gets_published (capacity : Nat) {steps : List NotifierStep}
    (isOpen : .close ∉ steps) :
    ((new capacity).run steps).2.published = ((new capacity).history steps).responses.length ∧
    ∀ receiver later, since receiver ((new capacity).history steps) = some later →
      (Received.values (later.answersTo receiver)).Sublist later.responses ∧
      (∀ (before : NotifierHistory) answer, before ++ [(.receive receiver, answer)] <+: later →
        answer = some (before.due (powerOfTwo (ceilLog2 (max capacity 1))) receiver)) ∧
      (∀ before : NotifierHistory, before ++ [(.receive receiver, some .empty)] <+: later →
        (Received.values (before.answersTo receiver)).length +
          (Received.losses (before.answersTo receiver)).sum = before.responses.length) ∧
      (KeepsUp (max capacity 1) receiver later →
        Received.losses (later.answersTo receiver) = [] ∧
        Received.values (later.answersTo receiver) <+: later.responses ∧
        ∀ before : NotifierHistory, before ++ [(.receive receiver, some .empty)] <+: later →
          Received.values (before.answersTo receiver) = before.responses) ∧
      later.answersTo receiver =
        ((new capacity).history (alone receiver later)).answersTo 0 := by
  have hcount := published_run (new capacity) steps
  rw [← responses_history (new capacity) steps] at hcount
  have hroom : max capacity 1 ≤ powerOfTwo (ceilLog2 (max capacity 1)) := le_powerOfTwo_ceilLog2 _
  refine ⟨hcount.trans (Nat.zero_add _), fun receiver later hsince => ?_⟩
  have hstands := (attends_run capacity isOpen).stands receiver
  rw [hsince] at hstands
  have hserved := hstands.served
  have hempty : ∀ before : NotifierHistory, before ++ [(.receive receiver, some .empty)] <+: later →
      Received.passed (before.answersTo receiver) = before.responses.length := by
    intro before hbefore
    have hreads := hserved.reads before ((List.prefix_append _ _).trans hbefore)
    have hdue := Option.some.inj (hserved.answers before _ hbefore)
    cases hleft : before.hasLeft receiver with
    | true =>
      rw [due, hleft] at hdue
      cases hdue
    | false =>
      rw [due_of_stays hleft] at hdue
      exact Nat.le_antisymm hreads.within (Received.length_le_of_next_eq_empty hdue.symm)
  have hreads := hserved.reads later (List.prefix_refl _)
  refine ⟨hreads.inOrder.trans (List.take_sublist _ _), hserved.answers, hempty,
    fun keepsUp => ?_, ?_⟩
  · have hnone := hserved.losses_eq_nil hroom keepsUp
    refine ⟨hnone, ?_, fun before hbefore => ?_⟩
    · rw [hreads.whole hnone]
      exact List.take_prefix _ _
    · have hfront : before <+: later := (List.prefix_append _ _).trans hbefore
      have hnothing := (hserved.before hfront).losses_eq_nil hroom fun earlier h =>
        keepsUp earlier (h.trans hfront)
      rw [(hserved.reads before hfront).whole hnothing, hempty before hbefore, List.take_length]
  · exact hserved.sameView.answers.symm

/-- The response to a block that was not verified. -/
def badProof (block : UInt64) : Response := .ended ⟨block, .badStateProof⟩

/-- Two subscribers to a notifier that keeps one response. The first one reads after each response;
the second one reads late and leaves. A last response finds the first one still there. -/
def twoSubscribers : List NotifierStep :=
  [.subscribe, .subscribe, .publish (badProof 1), .receive 0, .publish (badProof 2), .receive 0,
    .receive 0, .receive 1, .receive 1, .unsubscribe 1, .publish (badProof 3)]

/-- The first of two subscribers keeps up and misses nothing. The second one misses a response, is
told so, and gets the next one, as if it had been alone. -/
theorem subscriber_gets_published_two :
    .close ∉ twoSubscribers ∧ ((new 0).run twoSubscribers).2.published = 3 ∧
    (∃ later, since 0 ((new 0).history twoSubscribers) = some later ∧ KeepsUp 1 0 later ∧
      Received.losses (later.answersTo 0) = [] ∧
      later.answersTo 0 = [.value (badProof 1), .value (badProof 2), .empty]) ∧
    ∃ later, since 1 ((new 0).history twoSubscribers) = some later ∧
      later.answersTo 1 = [.lagged 1, .value (badProof 2)] ∧
      later.answersTo 1 = ((new 0).history (alone 1 later)).answersTo 0 := by
  have isOpen : .close ∉ twoSubscribers := by simp [twoSubscribers]
  obtain ⟨hcount, hreceivers⟩ := subscriber_gets_published 0 isOpen
  obtain ⟨-, -, -, hkept, -⟩ := hreceivers 0 _ rfl
  obtain ⟨-, -, -, -, halone⟩ := hreceivers 1 _ rfl
  have keepsUp : KeepsUp 1 0 ((new 0).history twoSubscribers).tail := by
    intro before hbefore
    have hall : ∀ before ∈ ((new 0).history twoSubscribers).tail.inits,
        hasLeft 0 before = false →
        (responses before).length ≤ (Received.values (answersTo 0 before)).length + 1 := by decide
    exact hall before ((List.mem_inits _ _).mpr hbefore)
  exact ⟨isOpen, hcount, ⟨_, rfl, keepsUp, (hkept keepsUp).1, rfl⟩, _, rfl, rfl, halone⟩

end Notifier

end BlockIntake
