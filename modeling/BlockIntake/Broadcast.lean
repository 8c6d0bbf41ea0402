import BlockIntake.Fault
import BlockIntake.PowerOfTwo
import BlockIntake.Stream.Response

/-!
# Broadcasting with bounded memory

A channel keeps the values sent last, up to a power of two of them. Every receiver reads the values
sent after it subscribed, in order. One that falls behind the values kept is told once how many it
lost and goes on with the oldest value kept. What nobody listens to is not kept. The notifier
broadcasts responses and counts them all. The room for the values kept is set aside at once, so a
notifier cannot be made where there is not enough of it.
-/

namespace BlockIntake

/-- A channel with many receivers. -/
structure Broadcast (α : Type) where
  /-- The number of values kept. -/
  slots : Nat
  /-- The number of values sent to somebody. -/
  sent : Nat := 0
  /-- The values sent last, oldest first. -/
  kept : List α := []
  /-- For every receiver the number of the value it reads next; none once it has left. -/
  cursors : List (Option Nat) := []
  /-- Whether more values may be sent. -/
  live : Bool := true

/-- What a receiver gets. -/
inductive Received (α : Type) where
  /-- The next value. -/
  | value (a : α)
  /-- Nothing yet. -/
  | empty
  /-- Nothing any more. -/
  | closed
  /-- The news that this many values were lost. -/
  | lagged (lost : Nat)
deriving DecidableEq

namespace Broadcast

variable {α : Type}

/-- A channel that keeps at least `capacity` values, and at least one. -/
def new (capacity : Nat) : Broadcast α where
  slots := powerOfTwo (ceilLog2 (max capacity 1))

/-- The number of receivers. -/
def receivers (channel : Broadcast α) : Nat := channel.cursors.countP (·.isSome)

/-- The number of the oldest value kept. -/
def oldest (channel : Broadcast α) : Nat := channel.sent - channel.kept.length

/-- Add a receiver; the answer is its number. -/
def subscribe (channel : Broadcast α) : Nat × Broadcast α :=
  (channel.cursors.length, { channel with cursors := channel.cursors ++ [some channel.sent] })

/-- Remove a receiver. -/
def unsubscribe (channel : Broadcast α) (receiver : Nat) : Broadcast α :=
  { channel with cursors := channel.cursors.set receiver none }

/-- Send a value to every receiver; without receivers it is lost. Nothing is sent any more once the
channel is closed. -/
def send (channel : Broadcast α) (a : α) : Broadcast α :=
  if channel.live = false ∨ channel.receivers = 0 then channel
  else
    let kept := channel.kept ++ [a]
    { channel with sent := channel.sent + 1, kept := kept.drop (kept.length - channel.slots) }

/-- Send no more values. -/
def close (channel : Broadcast α) : Broadcast α := { channel with live := false }

/-- Let a receiver read. -/
def receive (channel : Broadcast α) (receiver : Nat) : Received α × Broadcast α :=
  match channel.cursors[receiver]? with
  | some (some next) =>
    let moveTo (position : Nat) : Broadcast α :=
      { channel with cursors := channel.cursors.set receiver (some position) }
    if next < channel.oldest then (.lagged (channel.oldest - next), moveTo channel.oldest)
    else
      match channel.kept[next - channel.oldest]? with
      | some a => (.value a, moveTo (next + 1))
      | none => (if channel.live then .empty else .closed, channel)
  | _ => (.closed, channel)

end Broadcast

/-- Broadcasts responses and counts them. -/
structure Notifier where
  /-- The channel of the responses. -/
  channel : Broadcast Response
  /-- The exact number of responses published, whether or not anybody listened. -/
  published : Nat := 0

namespace Notifier

/-- A notifier that keeps at least `capacity` responses for slow receivers. -/
def new (capacity : Nat) : Notifier := ⟨Broadcast.new capacity, 0⟩

/-- The largest number of responses that can be kept: the memory for twice as many, at more than 64
bytes for each, is larger than an address can tell. -/
def mostKept : Nat := powerOfTwo 56

/-- Make a notifier, if there can be room for the responses it keeps. -/
def create (capacity : Nat) : Except Crash Notifier :=
  let notifier := new capacity
  if mostKept < notifier.channel.slots then .error (.noRoom capacity) else .ok notifier

/-- Publish a response. -/
def publish (notifier : Notifier) (response : Response) : Notifier :=
  ⟨notifier.channel.send response, notifier.published + 1⟩

/-- The number of responses published as it is kept, in 64 bits: when it is full, it begins anew. -/
def publishedWord (notifier : Notifier) : UInt64 := .ofNat notifier.published

/-- Add a receiver; the answer is its number. -/
def subscribe (notifier : Notifier) : Nat × Notifier :=
  let (receiver, channel) := notifier.channel.subscribe
  (receiver, { notifier with channel })

/-- Remove a receiver. -/
def unsubscribe (notifier : Notifier) (receiver : Nat) : Notifier :=
  { notifier with channel := notifier.channel.unsubscribe receiver }

/-- Let a receiver read. -/
def receive (notifier : Notifier) (receiver : Nat) : Received Response × Notifier :=
  let (received, channel) := notifier.channel.receive receiver
  (received, { notifier with channel })

/-- Send no more responses. -/
def close (notifier : Notifier) : Notifier := { notifier with channel := notifier.channel.close }

end Notifier

/-- Something that happens to a notifier. -/
inductive NotifierStep where
  /-- A receiver is added. -/
  | subscribe
  /-- A receiver leaves. -/
  | unsubscribe (receiver : Nat)
  /-- A response is published. -/
  | publish (response : Response)
  /-- A receiver reads. -/
  | receive (receiver : Nat)
  /-- No more responses are sent. -/
  | close

namespace Notifier

/-- Take a step; reading has an answer. -/
def step (notifier : Notifier) : NotifierStep → Option (Received Response) × Notifier
  | .subscribe => (none, notifier.subscribe.2)
  | .unsubscribe receiver => (none, notifier.unsubscribe receiver)
  | .publish response => (none, notifier.publish response)
  | .receive receiver =>
    let (received, notifier) := notifier.receive receiver
    (some received, notifier)
  | .close => (none, notifier.close)

/-- Take steps in order and collect the answers, one for every step. -/
def run (notifier : Notifier) : List NotifierStep → List (Option (Received Response)) × Notifier
  | [] => ([], notifier)
  | step :: steps =>
    let (answer, notifier) := notifier.step step
    let (answers, notifier) := notifier.run steps
    (answer :: answers, notifier)

end Notifier

end BlockIntake
