import BlockIntake.Broadcast
import Mathlib

/-!
# What a channel keeps

An open channel that somebody listens to keeps the last of the values sent through it, as many as it
has slots for. A receiver that has fallen no further behind than that reads the values one after the
other, and then finds nothing. What one receiver reads changes nothing for the others. A notifier
counts what is published, whoever listens.
-/

namespace BlockIntake

namespace Broadcast

variable {α : Type} {channel next : Broadcast α} {values : List α} {receiver position : Nat}

/-- The channel is open and keeps the last of the values that were sent. -/
structure Keeps (channel : Broadcast α) (values : List α) : Prop where
  /-- More values may be sent. -/
  live : channel.live = true
  /-- There is a slot. -/
  room : 0 < channel.slots
  /-- All values are counted. -/
  sent : channel.sent = values.length
  /-- The last ones are kept. -/
  kept : channel.kept = values.drop (values.length - channel.slots)

/-- A receiver reads the value with this number next. -/
def ReadsAt (channel : Broadcast α) (receiver position : Nat) : Prop :=
  channel.cursors[receiver]? = some (some position)

/-- At most some receivers have read on. -/
structure ReadBy (readers : Nat → Prop) (channel next : Broadcast α) : Prop where
  /-- The channel is as open as before. -/
  live : next.live = channel.live
  /-- It has as many slots. -/
  slots : next.slots = channel.slots
  /-- It has sent as many values. -/
  sent : next.sent = channel.sent
  /-- It keeps the same values. -/
  kept : next.kept = channel.kept
  /-- The others have not read on. -/
  cursors : ∀ other, ¬ readers other → next.cursors[other]? = channel.cursors[other]?

namespace ReadBy

variable {readers : Nat → Prop}

/-- Nobody has to read. -/
theorem refl (readers : Nat → Prop) (channel : Broadcast α) : ReadBy readers channel channel :=
  ⟨rfl, rfl, rfl, rfl, fun _ _ => rfl⟩

/-- They may read several times. -/
theorem trans {last : Broadcast α} (first : ReadBy readers channel next)
    (second : ReadBy readers next last) : ReadBy readers channel last :=
  ⟨second.live.trans first.live, second.slots.trans first.slots, second.sent.trans first.sent,
    second.kept.trans first.kept,
    fun other h => (second.cursors other h).trans (first.cursors other h)⟩

/-- The same values are kept. -/
theorem keeps (read : ReadBy readers channel next) (keeps : channel.Keeps values) :
    next.Keeps values :=
  ⟨read.live.trans keeps.live, read.slots ▸ keeps.room, read.sent.trans keeps.sent,
    read.kept.trans (read.slots ▸ keeps.kept)⟩

/-- Moving the cursor of a reader is reading on. -/
theorem set (reads : readers receiver) (channel : Broadcast α) (cursor : Option Nat) :
    ReadBy readers channel { channel with cursors := channel.cursors.set receiver cursor } := by
  refine ⟨rfl, rfl, rfl, rfl, fun other hother => List.getElem?_set_ne ?_⟩
  rintro rfl
  exact hother reads

/-- A reader changes at most what it reads next. -/
theorem receive (reads : readers receiver) (channel : Broadcast α) :
    ReadBy readers channel (channel.receive receiver).2 := by
  rw [Broadcast.receive]
  split
  · dsimp only
    split
    · exact .set reads channel _
    · split
      · exact .set reads channel _
      · exact .refl readers channel
  · exact .refl readers channel

end ReadBy

/-- A new channel keeps what was sent, which is nothing. -/
theorem keeps_new (capacity : Nat) : (new capacity : Broadcast α).Keeps [] := by
  have hslots : max capacity 1 ≤ powerOfTwo (ceilLog2 (max capacity 1)) := le_powerOfTwo_ceilLog2 _
  have hroom : 0 < powerOfTwo (ceilLog2 (max capacity 1)) := by omega
  exact ⟨rfl, hroom, rfl, List.drop_nil.symm⟩

/-- Whoever subscribes reads what is sent from then on. -/
theorem Keeps.subscribe (keeps : channel.Keeps values) :
    channel.subscribe.2.Keeps values ∧
      channel.subscribe.2.ReadsAt channel.subscribe.1 values.length := by
  refine ⟨⟨keeps.live, keeps.room, keeps.sent, keeps.kept⟩, ?_⟩
  rw [Broadcast.subscribe, ReadsAt, List.getElem?_concat_length, keeps.sent]

/-- A value that is sent to somebody is kept. -/
theorem Keeps.send (keeps : channel.Keeps values) (heard : channel.ReadsAt receiver position)
    (a : α) :
    (channel.send a).Keeps (values ++ [a]) ∧ (channel.send a).slots = channel.slots ∧
      (channel.send a).cursors = channel.cursors := by
  have hheard : channel.receivers ≠ 0 := by
    have hmem : some position ∈ channel.cursors := List.mem_of_getElem? heard
    have hpos : 0 < channel.receivers := List.countP_pos_iff.mpr ⟨_, hmem, rfl⟩
    omega
  have hsent : ¬ (channel.live = false ∨ channel.receivers = 0) := by
    rw [keeps.live]
    simp [hheard]
  rw [Broadcast.send, if_neg hsent]
  refine ⟨⟨keeps.live, keeps.room, ?_, ?_⟩, rfl, rfl⟩
  · rw [List.length_append, List.length_singleton]
    exact congrArg (· + 1) keeps.sent
  · have hroom := keeps.room
    dsimp only
    rw [keeps.kept, ← List.drop_append_of_le_length (Nat.sub_le _ _), List.drop_drop]
    congr 1
    simp only [List.length_drop, List.length_append, List.length_singleton]
    omega

/-- A receiver that has not fallen behind the values kept reads the next one, or there is nothing
for it. -/
theorem Keeps.receive (keeps : channel.Keeps values) (reads : channel.ReadsAt receiver position)
    (recent : values.length ≤ position + channel.slots) :
    channel.receive receiver =
      match values[position]? with
      | some a =>
        (.value a, { channel with cursors := channel.cursors.set receiver (some (position + 1)) })
      | none => (.empty, channel) := by
  have holdest : channel.oldest = values.length - channel.slots := by
    rw [oldest, keeps.sent, keeps.kept, List.length_drop]
    omega
  have hnot : ¬ position < values.length - channel.slots := by omega
  have hvalue : channel.kept[position - (values.length - channel.slots)]? = values[position]? := by
    rw [keeps.kept, List.getElem?_drop]
    congr 1
    omega
  rw [Broadcast.receive, reads]
  dsimp only
  rw [holdest, if_neg hnot, hvalue, keeps.live]
  cases values[position]? <;> rfl

end Broadcast

/-- A notifier can be made if no more responses are to be kept than can be. -/
theorem Notifier.create_of_le {capacity : Nat} (kept : capacity ≤ mostKept) :
    Notifier.create capacity = .ok (.new capacity) := by
  have hone : 1 ≤ mostKept := by decide
  have hheight : ceilLog2 (max capacity 1) ≤ 56 :=
    ceilLog2_le_of_le_powerOfTwo (Nat.max_le.mpr ⟨kept, hone⟩)
  exact if_neg (Nat.not_lt_of_le (powerOfTwo_le hheight))

/-- The responses that are published in steps of a notifier. -/
def publishedIn (steps : List NotifierStep) : List Response :=
  steps.filterMap fun | .publish response => some response | _ => none

/-- A notifier counts every response published, whoever listens. -/
theorem published_run (notifier : Notifier) (steps : List NotifierStep) :
    (notifier.run steps).2.published = notifier.published + (publishedIn steps).length := by
  induction steps generalizing notifier with
  | nil => rfl
  | cons step steps ih =>
    rw [Notifier.run]
    dsimp only
    rw [ih]
    cases step with
    | publish response =>
      have hcons : publishedIn (.publish response :: steps) = response :: publishedIn steps := rfl
      rw [hcons, List.length_cons]
      simp only [Notifier.step, Notifier.publish]
      omega
    | subscribe => rfl
    | unsubscribe receiver => rfl
    | receive receiver => rfl
    | close => rfl

/-- As long as fewer than `2 ^ 64` responses were published, the number that is kept is exact. -/
theorem Notifier.toNat_publishedWord {notifier : Notifier}
    (few : notifier.published < UInt64.size) :
    notifier.publishedWord.toNat = notifier.published := UInt64.toNat_ofNat_of_lt' few

end BlockIntake
