import BlockIntake.Proofs.Notifier.Place

/-!
# Every subscriber is attended to

What has happened to a notifier since a receiver was added tells what it has been answered and what
it is due. Each step leaves every receiver at its place, whoever the step is for.
-/

namespace BlockIntake

/-- Steps of a notifier, each with its answer. -/
abbrev NotifierHistory := List (NotifierStep × Option (Received Response))

namespace NotifierHistory

/-- The responses that were published. -/
def responses (history : NotifierHistory) : List Response :=
  history.filterMap fun | (.publish response, _) => some response | _ => none

/-- What one receiver was answered. -/
def answersTo (receiver : Nat) (history : NotifierHistory) : List (Received Response) :=
  history.filterMap fun
    | (.receive reader, answer) => if reader = receiver then answer else none
    | _ => none

/-- Whether a receiver has left. -/
def hasLeft (receiver : Nat) (history : NotifierHistory) : Bool :=
  history.any fun | (.unsubscribe reader, _) => reader == receiver | _ => false

/-- The number of receivers that were added. -/
def subscriptions (history : NotifierHistory) : Nat :=
  history.countP fun | (.subscribe, _) => true | _ => false

/-- What has happened since a receiver was added. Receivers are numbered in the order in which they
are added. -/
def since : (receiver : Nat) → NotifierHistory → Option NotifierHistory
  | _, [] => none
  | 0, (.subscribe, _) :: later => some later
  | receiver + 1, (.subscribe, _) :: later => since receiver later
  | receiver, _ :: later => since receiver later

/-- The answer that is due to a receiver, with what has happened since it was added, from a channel
that keeps so many responses. -/
def due (slots receiver : Nat) (later : NotifierHistory) : Received Response :=
  if later.hasLeft receiver then .closed
  else .next slots later.responses (Received.passed (later.answersTo receiver))

variable {receiver : Nat} {history later : NotifierHistory}
  {entry : NotifierStep × Option (Received Response)}

theorem responses_append (front back : NotifierHistory) :
    responses (front ++ back) = responses front ++ responses back :=
  List.filterMap_append

theorem answersTo_append (receiver : Nat) (front back : NotifierHistory) :
    answersTo receiver (front ++ back) = answersTo receiver front ++ answersTo receiver back :=
  List.filterMap_append

theorem hasLeft_append (receiver : Nat) (front back : NotifierHistory) :
    hasLeft receiver (front ++ back) = (hasLeft receiver front || hasLeft receiver back) :=
  List.any_append

theorem subscriptions_append (front back : NotifierHistory) :
    subscriptions (front ++ back) = subscriptions front + subscriptions back :=
  List.countP_append

/-- Only subscribing adds a receiver. -/
theorem since_single (isOther : entry.1 ≠ .subscribe) : since receiver [entry] = none := by
  obtain ⟨step, answer⟩ := entry
  cases step with
  | subscribe => exact absurd rfl isOther
  | unsubscribe reader => rfl
  | publish response => rfl
  | receive reader => rfl
  | close => rfl

/-- A receiver that was not added yet may be added next. -/
theorem since_concat_of_none (fresh : since receiver history = none)
    (entry : NotifierStep × Option (Received Response)) :
    history.subscriptions ≤ receiver ∧
      since receiver (history ++ [entry]) = since (receiver - history.subscriptions) [entry] := by
  induction history generalizing receiver with
  | nil => exact ⟨Nat.zero_le _, rfl⟩
  | cons first rest ih =>
    obtain ⟨step, answer⟩ := first
    cases step with
    | subscribe =>
      cases receiver with
      | zero => cases fresh
      | succ receiver =>
        obtain ⟨hfew, hnext⟩ := ih fresh
        have hcount : subscriptions ((.subscribe, answer) :: rest) = subscriptions rest + 1 :=
          List.countP_cons_of_pos rfl
        rw [hcount, Nat.succ_sub_succ]
        exact ⟨Nat.succ_le_succ hfew, hnext⟩
    | unsubscribe reader => exact ih fresh
    | publish response => exact ih fresh
    | receive reader => exact ih fresh
    | close => exact ih fresh

/-- Whatever happens has happened since every receiver there is was added. -/
theorem since_concat (added : since receiver history = some later) :
    since receiver (history ++ [entry]) = some (later ++ [entry]) := by
  induction history generalizing receiver with
  | nil => cases added
  | cons first rest ih =>
    obtain ⟨step, answer⟩ := first
    cases step with
    | subscribe =>
      cases receiver with
      | zero =>
        cases added
        rfl
      | succ receiver => exact ih added
    | unsubscribe reader => exact ih added
    | publish response => exact ih added
    | receive reader => exact ih added
    | close => exact ih added

end NotifierHistory

namespace Notifier

open NotifierHistory

/-- The steps of a run, each with its answer. -/
def history (notifier : Notifier) (steps : List NotifierStep) : NotifierHistory :=
  steps.zip (notifier.run steps).1

variable {notifier : Notifier} {slots receiver : Nat} {later : NotifierHistory}

/-- There is an answer, perhaps none, for every step. -/
theorem length_run (notifier : Notifier) (steps : List NotifierStep) :
    (notifier.run steps).1.length = steps.length := by
  induction steps generalizing notifier with
  | nil => rfl
  | cons step steps ih => exact congrArg (· + 1) (ih (notifier.step step).2)

/-- Steps before the last one. -/
theorem run_concat (notifier : Notifier) (steps : List NotifierStep) (step : NotifierStep) :
    notifier.run (steps ++ [step]) =
      ((notifier.run steps).1 ++ [((notifier.run steps).2.step step).1],
        ((notifier.run steps).2.step step).2) := by
  induction steps generalizing notifier with
  | nil => rfl
  | cons first steps ih => simp only [List.cons_append, run, ih]

/-- The last step of a run and its answer come last. -/
theorem history_concat (notifier : Notifier) (steps : List NotifierStep) (step : NotifierStep) :
    notifier.history (steps ++ [step]) =
      notifier.history steps ++ [(step, ((notifier.run steps).2.step step).1)] := by
  rw [history, run_concat, List.zip_append (length_run notifier steps).symm]
  rfl

/-- A receiver has got the answers that were due to it. -/
structure Served (slots receiver : Nat) (later : NotifierHistory) : Prop where
  /-- At any time, its answers fit what was published. -/
  reads : ∀ before : NotifierHistory, before <+: later →
    Received.Reads before.responses (before.answersTo receiver)
  /-- Every answer is the one that is due. -/
  answers : ∀ (before : NotifierHistory) answer, before ++ [(.receive receiver, answer)] <+: later →
    answer = some (before.due slots receiver)

/-- Where a receiver stands, with what has happened since it was added. -/
inductive Stands (slots : Nat) (channel : Broadcast Response) (receiver : Nat) :
    Option NotifierHistory → Prop
  /-- It was not added yet. -/
  | absent : Stands slots channel receiver none
  /-- It has its place among the responses published since it was added. -/
  | present {later : NotifierHistory} (served : Served slots receiver later)
      (stays : later.hasLeft receiver = false)
      (follows : channel.Follows receiver later.responses
        (Received.passed (later.answersTo receiver))) : Stands slots channel receiver (some later)
  /-- It has left. -/
  | left {later : NotifierHistory} (served : Served slots receiver later)
      (gone : later.hasLeft receiver = true)
      (cursor : channel.cursors[receiver]? = some none) : Stands slots channel receiver (some later)

variable {channel next : Broadcast Response} {entry : NotifierStep × Option (Received Response)}

/-- A receiver that was added has been served. -/
theorem Stands.served (stands : Stands slots channel receiver (some later)) :
    Served slots receiver later := by
  cases stands with
  | present served _ _ => exact served
  | left served _ _ => exact served

/-- A receiver that was served is served by one more step. -/
theorem Served.concat (served : Served slots receiver later)
    (reads : Received.Reads (later ++ [entry]).responses ((later ++ [entry]).answersTo receiver))
    (answer : ∀ answer, entry = (.receive receiver, answer) →
      answer = some (later.due slots receiver)) : Served slots receiver (later ++ [entry]) := by
  constructor
  · intro before hbefore
    rcases List.prefix_concat_iff.mp hbefore with rfl | hearlier
    · exact reads
    · exact served.reads before hearlier
  · intro before given hbefore
    rcases List.prefix_concat_iff.mp hbefore with hlast | hearlier
    · obtain ⟨rfl, hentry⟩ := List.append_inj' hlast rfl
      exact answer given (List.cons.inj hentry).1.symm
    · exact served.answers before given hearlier

/-- A step that does not concern a receiver leaves it where it is. -/
theorem Stands.quiet (stands : Stands slots channel receiver (some later))
    (silent : responses [entry] = []) (answers : answersTo receiver [entry] = [])
    (stays : hasLeft receiver [entry] = false)
    (other : ∀ answer, entry ≠ (.receive receiver, answer))
    (follows : ∀ sent position, channel.Follows receiver sent position →
      next.Follows receiver sent position)
    (cursor : channel.cursors[receiver]? = some none → next.cursors[receiver]? = some none) :
    Stands slots next receiver (some (later ++ [entry])) := by
  have hresponses : (later ++ [entry]).responses = later.responses := by
    rw [responses_append, silent, List.append_nil]
  have hanswers : (later ++ [entry]).answersTo receiver = later.answersTo receiver := by
    rw [answersTo_append, answers, List.append_nil]
  have hleft : (later ++ [entry]).hasLeft receiver = later.hasLeft receiver := by
    rw [hasLeft_append, stays, Bool.or_false]
  have hserved : Served slots receiver (later ++ [entry]) := by
    refine stands.served.concat ?_ fun answer h => absurd h (other answer)
    rw [hresponses, hanswers]
    exact stands.served.reads later (List.prefix_refl _)
  cases stands with
  | present _ hstays hfollows =>
    refine .present hserved (hleft.trans hstays) ?_
    rw [hresponses, hanswers]
    exact follows _ _ hfollows
  | left _ hgone hcursor => exact .left hserved (hleft.trans hgone) (cursor hcursor)

/-- A published response is sent to every receiver that has not left. -/
theorem Stands.publish (stands : Stands slots channel receiver (some later)) (response : Response) :
    Stands slots (channel.send response) receiver
      (some (later ++ [(.publish response, none)])) := by
  have hresponses : responses (later ++ [(.publish response, none)]) =
      later.responses ++ [response] := responses_append _ _
  have hanswers : answersTo receiver (later ++ [(.publish response, none)]) =
      later.answersTo receiver := by
    rw [answersTo_append]
    exact List.append_nil _
  have hleft : hasLeft receiver (later ++ [(.publish response, none)]) =
      later.hasLeft receiver := by
    rw [hasLeft_append]
    exact Bool.or_false _
  have hserved : Served slots receiver (later ++ [(.publish response, none)]) := by
    refine stands.served.concat ?_ fun answer h => by cases h
    rw [hresponses, hanswers]
    exact (stands.served.reads later (List.prefix_refl _)).more [response]
  cases stands with
  | present _ hstays hfollows =>
    refine .present hserved (hleft.trans hstays) ?_
    rw [hresponses, hanswers]
    exact hfollows.send response
  | left _ hgone hcursor =>
    refine .left hserved (hleft.trans hgone) ?_
    rw [Broadcast.cursors_send]
    exact hcursor

/-- A receiver that leaves has left. -/
theorem Stands.unsubscribe (stands : Stands slots channel receiver (some later)) :
    Stands slots (channel.unsubscribe receiver) receiver
      (some (later ++ [(.unsubscribe receiver, none)])) := by
  have hgone : hasLeft receiver (later ++ [(.unsubscribe receiver, none)]) = true := by
    rw [hasLeft_append]
    simp [hasLeft]
  have hserved : Served slots receiver (later ++ [(.unsubscribe receiver, none)]) := by
    refine stands.served.concat ?_ fun answer h => by cases h
    have hresponses : responses (later ++ [(.unsubscribe receiver, none)]) =
        later.responses ++ [] := responses_append _ _
    have hanswers : answersTo receiver (later ++ [(.unsubscribe receiver, none)]) =
        later.answersTo receiver ++ [] := answersTo_append _ _ _
    rw [hresponses, hanswers, List.append_nil, List.append_nil]
    exact stands.served.reads later (List.prefix_refl _)
  refine .left hserved hgone ?_
  have hreceiver : receiver < channel.cursors.length := by
    cases stands with
    | present _ _ hfollows =>
      obtain ⟨-, hreads⟩ := hfollows.place.choose_spec
      exact (List.getElem?_eq_some_iff.mp hreads).1
    | left _ _ hcursor => exact (List.getElem?_eq_some_iff.mp hcursor).1
  exact List.getElem?_set_self hreceiver

/-- A receiver that reads gets the answer that is due to it. -/
theorem Stands.receive (stands : Stands slots channel receiver (some later))
    (same : channel.slots = slots) :
    Stands slots (channel.receive receiver).2 receiver
      (some (later ++ [(.receive receiver, some (channel.receive receiver).1)])) := by
  have hresponses : ∀ answer, responses (later ++ [(.receive receiver, some answer)]) =
      later.responses := by
    intro answer
    rw [responses_append]
    exact List.append_nil _
  have hanswers : ∀ answer, answersTo receiver (later ++ [(.receive receiver, some answer)]) =
      later.answersTo receiver ++ [answer] := by
    intro answer
    rw [answersTo_append]
    simp [answersTo]
  have hleft : ∀ answer, hasLeft receiver (later ++ [(.receive receiver, some answer)]) =
      later.hasLeft receiver := by
    intro answer
    rw [hasLeft_append]
    exact Bool.or_false _
  have hreads := stands.served.reads later (List.prefix_refl _)
  cases stands with
  | present hserved hstays hfollows =>
    obtain ⟨hanswer, hnext⟩ := hfollows.receive
    rw [same] at hanswer hnext
    have hdue : later.due slots receiver = (channel.receive receiver).1 := by
      rw [due, hstays, hanswer]
      rfl
    refine .present (hserved.concat ?_ fun answer h => ?_) ((hleft _).trans hstays) ?_
    · rw [hresponses, hanswers, hanswer]
      exact hreads.next slots
    · rw [hdue]
      exact (Prod.mk.inj h).2.symm
    · rw [hresponses, hanswers, Received.passed_append, hanswer]
      exact hnext
  | left hserved hgone hcursor =>
    have hreceive : channel.receive receiver = (.closed, channel) := by
      rw [Broadcast.receive, hcursor]
    have hdue : later.due slots receiver = .closed := by
      rw [due, hgone]
      rfl
    rw [hreceive]
    refine .left (hserved.concat ?_ fun answer h => ?_) ((hleft _).trans hgone) hcursor
    · rw [hresponses, hanswers]
      exact hreads.nothing rfl rfl
    · rw [hdue]
      exact (Prod.mk.inj h).2.symm

/-- An open notifier has served all its receivers. -/
structure Attends (slots : Nat) (channel : Broadcast Response) (history : NotifierHistory) :
    Prop where
  /-- The last of the responses sent are kept. -/
  keeps : ∃ values, channel.Keeps values
  /-- There are so many slots. -/
  same : channel.slots = slots
  /-- Receivers are numbered in the order in which they are added. -/
  added : history.subscriptions = channel.cursors.length
  /-- Where each receiver stands. -/
  stands : ∀ receiver, Stands slots channel receiver (since receiver history)

/-- A step that adds no receiver is a step for each of those there are. -/
theorem Attends.concat {history : NotifierHistory} (attends : Attends slots channel history)
    (keeps : ∃ values, next.Keeps values) (same : next.slots = channel.slots)
    (count : next.cursors.length = channel.cursors.length) (isOther : entry.1 ≠ .subscribe)
    (each : ∀ receiver later, Stands slots channel receiver (some later) →
      Stands slots next receiver (some (later ++ [entry]))) :
    Attends slots next (history ++ [entry]) := by
  refine ⟨keeps, same.trans attends.same, ?_, fun receiver => ?_⟩
  · have hquiet : subscriptions [entry] = 0 := by
      obtain ⟨step, answer⟩ := entry
      cases step with
      | subscribe => exact absurd rfl isOther
      | unsubscribe reader => rfl
      | publish response => rfl
      | receive reader => rfl
      | close => rfl
    rw [subscriptions_append, hquiet, count]
    exact attends.added
  · have hstands := attends.stands receiver
    cases hsince : since receiver history with
    | none =>
      rw [(since_concat_of_none hsince _).2, since_single isOther]
      exact .absent
    | some later =>
      rw [since_concat hsince]
      rw [hsince] at hstands
      exact each receiver later hstands

/-- Adding a receiver leaves the others where they are. -/
theorem Attends.subscribe {history : NotifierHistory} (attends : Attends slots channel history) :
    Attends slots channel.subscribe.2 (history ++ [(.subscribe, none)]) := by
  obtain ⟨values, keeps⟩ := attends.keeps
  refine ⟨⟨values, keeps.subscribe.1⟩, attends.same, ?_, fun receiver => ?_⟩
  · have hone : subscriptions [(.subscribe, none)] = 1 := rfl
    rw [subscriptions_append, attends.added, hone, Broadcast.subscribe, List.length_append,
      List.length_singleton]
  · have hstands := attends.stands receiver
    cases hsince : since receiver history with
    | none =>
      obtain ⟨hle, hnext⟩ := since_concat_of_none hsince (.subscribe, none)
      rw [hnext]
      cases hgap : receiver - history.subscriptions with
      | zero =>
        have hreceiver : receiver = channel.subscribe.1 := by
          rw [Broadcast.subscribe, ← attends.added]
          omega
        have hserved : Served slots receiver [] := by
          refine ⟨fun before hbefore => ?_, fun before answer hbefore => ?_⟩
          · rw [List.prefix_nil.mp hbefore]
            exact ⟨Nat.le_refl _, List.Sublist.refl _, fun _ => rfl⟩
          · cases before <;> cases List.prefix_nil.mp hbefore
        refine .present hserved rfl ?_
        rw [hreceiver]
        exact keeps.follows_subscribe
      | succ gap => exact .absent
    | some later =>
      rw [since_concat hsince]
      rw [hsince] at hstands
      refine hstands.quiet rfl rfl rfl (fun answer h => by cases h)
        (fun sent position follows => follows.subscribe) fun hcursor => ?_
      rw [Broadcast.subscribe,
        List.getElem?_append_left (List.getElem?_eq_some_iff.mp hcursor).1]
      exact hcursor

/-- Every step serves all receivers. -/
theorem Attends.step {history : NotifierHistory} (attends : Attends slots notifier.channel history)
    {step : NotifierStep} (isOpen : step ≠ .close) :
    Attends slots (notifier.step step).2.channel (history ++ [(step, (notifier.step step).1)]) := by
  obtain ⟨values, keeps⟩ := attends.keeps
  cases step with
  | subscribe => exact attends.subscribe
  | close => exact absurd rfl isOpen
  | publish response =>
    refine attends.concat (keeps.exists_send response) (Broadcast.slots_send _ _) ?_
      (fun h => by cases h) fun receiver later stands => stands.publish response
    exact congrArg List.length (Broadcast.cursors_send _ _)
  | unsubscribe reader =>
    have hread : ∀ readers : Nat → Prop, readers reader → Broadcast.ReadBy readers notifier.channel
        { notifier.channel with cursors := notifier.channel.cursors.set reader none } :=
      fun readers reads => .set reads _ none
    refine attends.concat ⟨values, (hread (· = reader) rfl).keeps keeps⟩ rfl List.length_set
      (fun h => by cases h) fun receiver later stands => ?_
    by_cases hreader : reader = receiver
    · subst hreader
      exact stands.unsubscribe
    · refine stands.quiet rfl rfl ?_ (fun answer h => by cases h)
        (fun sent position follows => follows.others (hread (· ≠ receiver) hreader))
        fun hcursor => ?_
      · simpa [hasLeft] using hreader
      · rw [← hcursor]
        exact List.getElem?_set_ne hreader
  | receive reader =>
    have hread : ∀ readers : Nat → Prop, readers reader → Broadcast.ReadBy readers notifier.channel
        (notifier.channel.receive reader).2 := fun readers reads => .receive reads _
    refine attends.concat ⟨values, (hread (· = reader) rfl).keeps keeps⟩
      (hread (· = reader) rfl).slots ?_ (fun h => by cases h) fun receiver later stands => ?_
    · exact Broadcast.length_cursors_receive _ _
    · by_cases hreader : reader = receiver
      · subst hreader
        exact stands.receive attends.same
      · refine stands.quiet rfl ?_ rfl (fun answer h => ?_)
          (fun sent position follows => follows.others (hread (· ≠ receiver) hreader))
          fun hcursor => ?_
        · simp [answersTo, hreader]
        · exact hreader (NotifierStep.receive.inj (Prod.mk.inj h).1)
        · rw [← hcursor]
          exact (hread (· = reader) rfl).cursors receiver fun h => hreader h.symm

/-- Every run of an open notifier serves all receivers. -/
theorem attends_run (capacity : Nat) {steps : List NotifierStep} (isOpen : .close ∉ steps) :
    Attends (powerOfTwo (ceilLog2 (max capacity 1))) ((new capacity).run steps).2.channel
      ((new capacity).history steps) := by
  induction steps using List.reverseRecOn with
  | nil => exact ⟨⟨[], Broadcast.keeps_new capacity⟩, rfl, rfl, fun receiver => .absent⟩
  | append_singleton steps step ih =>
    rw [history_concat, run_concat]
    exact (ih fun h => isOpen (List.mem_append_left _ h)).step fun h =>
      isOpen (List.mem_append_right _ (List.mem_singleton.mpr h.symm))

end Notifier

end BlockIntake
