import BlockIntake.Proofs.Broadcast

/-!
# The place of a subscriber

Whoever subscribes has its own place among the values sent from then on. Every answer to it follows
from that place alone: the next value, nothing if there is none yet, or, if the value has been
pushed out of the channel, the number of those lost, after which it goes on with the oldest one
kept.
-/

namespace BlockIntake

namespace Received

variable {α : Type}

/-- The values among answers. -/
def values (answers : List (Received α)) : List α :=
  answers.filterMap fun | .value a => some a | _ => none

/-- The numbers of lost values among answers. -/
def losses (answers : List (Received α)) : List Nat :=
  answers.filterMap fun | .lagged lost => some lost | _ => none

/-- The number of values that answers have brought or written off. -/
def passed (answers : List (Received α)) : Nat := (values answers).length + (losses answers).sum

/-- The values of one more answer come last. -/
theorem values_append (front back : List (Received α)) :
    values (front ++ back) = values front ++ values back :=
  List.filterMap_append

/-- The losses of one more answer come last. -/
theorem losses_append (front back : List (Received α)) :
    losses (front ++ back) = losses front ++ losses back :=
  List.filterMap_append

/-- What answers have brought or written off adds up. -/
theorem passed_append (front back : List (Received α)) :
    passed (front ++ back) = passed front + passed back := by
  simp only [passed, values_append, losses_append, List.length_append, List.sum_append]
  omega

/-- The answer to a receiver that has passed the first `position` of the values sent since it
subscribed, where the last `slots` values are kept. -/
def next (slots : Nat) (sent : List α) (position : Nat) : Received α :=
  if position + slots < sent.length then .lagged (sent.length - slots - position)
  else
    match sent[position]? with
    | some a => .value a
    | none => .empty

@[simp] theorem passed_value (a : α) : passed [.value a] = 1 := rfl

@[simp] theorem passed_lagged (lost : Nat) : passed [(.lagged lost : Received α)] = lost := by
  simp [passed, values, losses]

@[simp] theorem passed_empty : passed [(.empty : Received α)] = 0 := rfl

@[simp] theorem passed_closed : passed [(.closed : Received α)] = 0 := rfl

variable {slots position : Nat} {sent : List α} {answers : List (Received α)}

/-- Nothing is what a receiver gets only if it has passed every value. -/
theorem length_le_of_next_eq_empty (empty : next slots sent position = .empty) :
    sent.length ≤ position := by
  rw [next] at empty
  split at empty
  · cases empty
  · split at empty
    · cases empty
    · next hnone => exact List.getElem?_eq_none_iff.mp hnone

/-- No answer passes more than all values. -/
theorem passed_next_le (slots : Nat) (within : position ≤ sent.length) :
    position + passed [next slots sent position] ≤ sent.length := by
  rw [next]
  split
  · rw [passed_lagged]
    omega
  · split
    · next a hvalue =>
      have hlt := (List.getElem?_eq_some_iff.mp hvalue).1
      rw [passed_value]
      omega
    · exact within

/-- A receiver that has not fallen behind the values kept is told of no loss. -/
theorem losses_next (recent : sent.length ≤ position + slots) :
    losses [next slots sent position] = [] := by
  rw [next, if_neg (Nat.not_lt_of_le recent)]
  split <;> rfl

/-- The answers to a receiver fit the values sent to it. -/
structure Reads (sent : List α) (answers : List (Received α)) : Prop where
  /-- Not more than all values were passed. -/
  within : passed answers ≤ sent.length
  /-- What was received are values that were passed, in order. -/
  inOrder : (values answers).Sublist (sent.take (passed answers))
  /-- Without losses, all that was passed was received. -/
  whole : losses answers = [] → values answers = sent.take (passed answers)

/-- More values may be sent. -/
theorem Reads.more (reads : Reads sent answers) (later : List α) :
    Reads (sent ++ later) answers := by
  have hsame : (sent ++ later).take (passed answers) = sent.take (passed answers) :=
    List.take_append_of_le_length reads.within
  refine ⟨?_, hsame ▸ reads.inOrder, hsame ▸ reads.whole⟩
  have hwithin := reads.within
  rw [List.length_append]
  omega

/-- An answer may bring nothing. -/
theorem Reads.nothing (reads : Reads sent answers) {answer : Received α}
    (values_eq : values [answer] = []) (losses_eq : losses [answer] = []) :
    Reads sent (answers ++ [answer]) := by
  have hvalues : values (answers ++ [answer]) = values answers := by
    rw [values_append, values_eq, List.append_nil]
  have hlosses : losses (answers ++ [answer]) = losses answers := by
    rw [losses_append, losses_eq, List.append_nil]
  have hpassed : passed (answers ++ [answer]) = passed answers := by
    rw [passed, passed, hvalues, hlosses]
  refine ⟨hpassed ▸ reads.within, ?_, ?_⟩
  · rw [hvalues, hpassed]
    exact reads.inOrder
  · rw [hvalues, hlosses, hpassed]
    exact reads.whole

/-- A receiver gets the answer that its place calls for. -/
theorem Reads.next (reads : Reads sent answers) (slots : Nat) :
    Reads sent (answers ++ [.next slots sent (passed answers)]) := by
  have hwithin := passed_next_le slots reads.within
  rw [← passed_append] at hwithin
  generalize hanswer : Received.next slots sent (passed answers) = answer at hwithin ⊢
  rw [Received.next] at hanswer
  split at hanswer
  · subst hanswer
    refine ⟨hwithin, ?_, fun none => ?_⟩
    · rw [passed_append, values_append]
      exact (List.append_nil (values answers)).symm ▸
        reads.inOrder.trans (List.take_prefix_take_left (Nat.le_add_right _ _)).sublist
    · rw [losses_append] at none
      cases (List.append_eq_nil_iff.mp none).2
  · split at hanswer
    · next a hvalue =>
      subst hanswer
      have htake : sent.take (passed (answers ++ [.value a])) =
          sent.take (passed answers) ++ [a] := by
        rw [passed_append, passed_value, List.take_add_one, hvalue]
        rfl
      refine ⟨hwithin, ?_, fun none => ?_⟩
      · rw [htake, values_append]
        exact reads.inOrder.append (List.Sublist.refl _)
      · rw [losses_append] at none
        rw [htake, values_append, reads.whole (List.append_eq_nil_iff.mp none).1]
        rfl
    · subst hanswer
      exact reads.nothing rfl rfl

end Received

namespace Broadcast

variable {α : Type} {channel : Broadcast α} {values sent : List α} {receiver position : Nat}

/-- A receiver that has fallen behind the values kept is told how many it lost, and goes on with the
oldest one kept. -/
theorem Keeps.receive_late (keeps : channel.Keeps values)
    (reads : channel.ReadsAt receiver position) (late : position + channel.slots < values.length) :
    channel.receive receiver = (.lagged (values.length - channel.slots - position),
      { channel with
        cursors := channel.cursors.set receiver (some (values.length - channel.slots)) }) := by
  have holdest : channel.oldest = values.length - channel.slots := by
    rw [oldest, keeps.sent, keeps.kept, List.length_drop]
    omega
  have hlate : position < values.length - channel.slots := by omega
  rw [Broadcast.receive, reads]
  dsimp only
  rw [holdest, if_pos hlate]

/-- An open channel keeps the last of the values sent through it whether or not anybody listens. -/
theorem Keeps.exists_send (keeps : channel.Keeps values) (a : α) :
    ∃ values, (channel.send a).Keeps values := by
  by_cases heard : channel.receivers = 0
  · rw [Broadcast.send, if_pos (Or.inr heard)]
    exact ⟨values, keeps⟩
  · obtain ⟨cursor, hmem, hsome⟩ := List.countP_pos_iff.mp (Nat.pos_of_ne_zero heard)
    obtain ⟨position, rfl⟩ := Option.isSome_iff_exists.mp hsome
    obtain ⟨receiver, hreads⟩ := List.mem_iff_getElem?.mp hmem
    exact ⟨_, (keeps.send hreads a).1⟩

/-- Sending moves no receiver. -/
theorem cursors_send (channel : Broadcast α) (a : α) :
    (channel.send a).cursors = channel.cursors := by
  rw [Broadcast.send]
  split <;> rfl

/-- Sending changes nothing about the slots. -/
theorem slots_send (channel : Broadcast α) (a : α) : (channel.send a).slots = channel.slots := by
  rw [Broadcast.send]
  split <;> rfl

/-- Reading adds and removes no receiver. -/
theorem length_cursors_receive (channel : Broadcast α) (receiver : Nat) :
    (channel.receive receiver).2.cursors.length = channel.cursors.length := by
  rw [Broadcast.receive]
  split
  · dsimp only
    split
    · exact List.length_set
    · split
      · exact List.length_set
      · rfl
  · rfl

/-- A receiver has passed some of the values that were sent since it subscribed. -/
structure Follows (channel : Broadcast α) (receiver : Nat) (sent : List α) (position : Nat) :
    Prop where
  /-- It has not passed more than all of them. -/
  within : position ≤ sent.length
  /-- Other values may have been sent before it subscribed. -/
  place : ∃ earlier, channel.Keeps (earlier ++ sent) ∧
    channel.ReadsAt receiver (earlier.length + position)

/-- The next answer to a receiver follows from its place, and so does its place after that. -/
theorem Follows.receive (follows : channel.Follows receiver sent position) :
    (channel.receive receiver).1 = Received.next channel.slots sent position ∧
      (channel.receive receiver).2.Follows receiver sent
        (position + Received.passed [Received.next channel.slots sent position]) := by
  obtain ⟨within, earlier, keeps, reads⟩ := follows
  have hlength : (earlier ++ sent).length = earlier.length + sent.length := List.length_append
  have hreceiver := (List.getElem?_eq_some_iff.mp reads).1
  have hwithin := Received.passed_next_le channel.slots within
  have hkeeps : ∀ cursors, ({ channel with cursors } : Broadcast α).Keeps (earlier ++ sent) :=
    fun _ => ⟨keeps.live, keeps.room, keeps.sent, keeps.kept⟩
  by_cases late : position + channel.slots < sent.length
  · have hnext : Received.next channel.slots sent position =
        .lagged (sent.length - channel.slots - position) := if_pos late
    have hreceive := keeps.receive_late reads (by omega)
    have hlost : (earlier ++ sent).length - channel.slots - (earlier.length + position) =
        sent.length - channel.slots - position := by omega
    rw [hlost] at hreceive
    rw [hnext] at hwithin ⊢
    rw [hreceive]
    refine ⟨rfl, hwithin, earlier, hkeeps _, ?_⟩
    rw [ReadsAt, List.getElem?_set_self hreceiver, Received.passed_lagged]
    congr 2
    omega
  · have hreceive := keeps.receive reads (by omega)
    have hvalue : (earlier ++ sent)[earlier.length + position]? = sent[position]? := by
      rw [List.getElem?_append_right (Nat.le_add_right _ _), Nat.add_sub_cancel_left]
    rw [hvalue] at hreceive
    rw [Received.next, if_neg late] at hwithin ⊢
    rw [hreceive]
    cases hsent : sent[position]? with
    | some a =>
      rw [hsent] at hwithin
      refine ⟨rfl, hwithin, earlier, hkeeps _, ?_⟩
      rw [ReadsAt, List.getElem?_set_self hreceiver]
      rfl
    | none => exact ⟨rfl, within, earlier, keeps, reads⟩

/-- A value that is sent is sent to everybody who has subscribed. -/
theorem Follows.send (follows : channel.Follows receiver sent position) (a : α) :
    (channel.send a).Follows receiver (sent ++ [a]) position := by
  obtain ⟨within, earlier, keeps, reads⟩ := follows
  obtain ⟨hkeeps, -, hcursors⟩ := keeps.send reads a
  rw [List.append_assoc] at hkeeps
  refine ⟨?_, earlier, hkeeps, ?_⟩
  · rw [List.length_append]
    omega
  · rw [ReadsAt, hcursors]
    exact reads

/-- What others do changes nothing for a receiver. -/
theorem Follows.others {next : Broadcast α} (follows : channel.Follows receiver sent position)
    (read : ReadBy (· ≠ receiver) channel next) : next.Follows receiver sent position := by
  obtain ⟨within, earlier, keeps, reads⟩ := follows
  refine ⟨within, earlier, read.keeps keeps, ?_⟩
  rw [ReadsAt, read.cursors receiver (not_not.mpr rfl)]
  exact reads

/-- Somebody else may subscribe. -/
theorem Follows.subscribe (follows : channel.Follows receiver sent position) :
    channel.subscribe.2.Follows receiver sent position := by
  obtain ⟨within, earlier, keeps, reads⟩ := follows
  refine ⟨within, earlier, keeps.subscribe.1, ?_⟩
  rw [ReadsAt, Broadcast.subscribe,
    List.getElem?_append_left (List.getElem?_eq_some_iff.mp reads).1]
  exact reads

/-- Whoever subscribes has everything still before it. -/
theorem Keeps.follows_subscribe (keeps : channel.Keeps values) :
    channel.subscribe.2.Follows channel.subscribe.1 [] 0 := by
  obtain ⟨hkeeps, hreads⟩ := keeps.subscribe
  exact ⟨Nat.le_refl _, values, by rwa [List.append_nil], hreads⟩

end Broadcast

end BlockIntake
