import BlockIntake.Node.Producer
import BlockIntake.Proofs.Verification.Binding
import BlockIntake.Proofs.Verification.WholeBlock

/-!
# The blocks of the producer

A block of the producer is its header, the items of its events, the change of the state, and a proof
that repeats the hash of all of them. However it is cut into batches, the first begins with the
header, no other one does, and only the last ends with the proof. So the batches are those of a
whole block, and a service that is given all of them verifies it.
-/

namespace BlockIntake

open Merkle

section Pieces

variable {α : Type} {size : Nat} {items : List α} {pieces : List (List α)} {a : α}

/-- There are as many pieces as it takes to hold all elements. -/
theorem length_chunksOf (positive : 0 < size) (items : List α) :
    (chunksOf size items).length = items.length ⌈/⌉ size := by
  fun_induction chunksOf size items with
  | case1 => simp
  | case2 a rest ih =>
    rw [List.length_cons, ih, List.length_drop, List.length_cons, Nat.ceilDiv_eq_add_pred_div,
      Nat.ceilDiv_eq_add_pred_div]
    have hround : rest.length + 1 + size - 1 = rest.length + size := by omega
    rw [hround, Nat.add_div_right _ positive]
    by_cases hmore : size - 1 ≤ rest.length
    · have hleft : rest.length - (size - 1) + size - 1 = rest.length := by omega
      rw [hleft]
    · have hleft : rest.length - (size - 1) + size - 1 = size - 1 := by omega
      rw [hleft, Nat.div_eq_of_lt (by omega), Nat.div_eq_of_lt (by omega)]

/-- Every piece holds something. -/
theorem ne_nil_of_mem_chunksOf {piece : List α} (h : piece ∈ chunksOf size items) :
    piece ≠ [] := by
  fun_induction chunksOf size items with
  | case1 => cases h
  | case2 a rest ih =>
    rcases List.mem_cons.mp h with rfl | hlater
    · exact List.cons_ne_nil _ _
    · exact ih hlater

/-- The first piece begins with the first element. -/
theorem exists_first_piece (full : ∀ piece ∈ pieces, piece ≠ [])
    (joined : pieces.flatten = a :: items) :
    ∃ first rest, pieces = (a :: first) :: rest ∧ first ++ rest.flatten = items := by
  cases pieces with
  | nil => cases joined
  | cons piece rest =>
    cases piece with
    | nil => exact absurd rfl (full [] List.mem_cons_self)
    | cons b first =>
      obtain ⟨rfl, hrest⟩ := List.cons.inj joined
      exact ⟨first, rest, rfl, hrest⟩

/-- The last piece ends with the last element. -/
theorem exists_last_piece (full : ∀ piece ∈ pieces, piece ≠ [])
    (joined : pieces.flatten = items ++ [a]) :
    ∃ front last, pieces = front ++ [last ++ [a]] ∧ front.flatten ++ last = items := by
  rcases List.eq_nil_or_concat pieces with rfl | ⟨front, piece, rfl⟩
  · exact absurd joined.symm (List.concat_ne_nil _ _)
  · rcases List.eq_nil_or_concat piece with rfl | ⟨last, b, rfl⟩
    · exact absurd rfl (full [] (by simp))
    · simp only [List.concat_eq_append, List.flatten_append, List.flatten_singleton,
        ← List.append_assoc] at joined ⊢
      obtain ⟨hfront, hlast⟩ := List.append_inj' joined rfl
      obtain rfl := List.singleton_inj.mp hlast
      exact ⟨front, last, rfl, hfront⟩

end Pieces

section Count

/-- Rounded up, a quotient grows by one after every multiple of the divisor. -/
theorem succ_ceilDiv {divisor : Nat} (positive : 0 < divisor) (n : Nat) :
    (n + 1) ⌈/⌉ divisor = n ⌈/⌉ divisor + if n % divisor = 0 then 1 else 0 := by
  rw [Nat.ceilDiv_eq_add_pred_div, Nat.ceilDiv_eq_add_pred_div]
  have hnext : n + 1 + divisor - 1 = n + divisor := by omega
  rw [hnext, Nat.add_div_right _ positive]
  have hsplit := Nat.div_add_mod n divisor
  have hless := Nat.mod_lt n positive
  split
  · next hmultiple =>
    have hround : n + divisor - 1 = divisor - 1 + divisor * (n / divisor) := by omega
    have hsmall : (divisor - 1) / divisor = 0 := Nat.div_eq_of_lt (by omega)
    rw [hround, Nat.add_mul_div_left _ _ positive, hsmall, Nat.zero_add]
  · next hbetween =>
    have hround : n + divisor - 1 = n % divisor - 1 + divisor * (n / divisor + 1) := by
      have hsucc := Nat.mul_add_one divisor (n / divisor)
      omega
    have hsmall : (n % divisor - 1) / divisor = 0 := Nat.div_eq_of_lt (by omega)
    rw [hround, Nat.add_mul_div_left _ _ positive, hsmall, Nat.zero_add, Nat.add_zero]

/-- The items of events, where every event has some and those that open a round or have an output
have more. -/
theorem length_flatMap_events {f : Nat → List Item} {each round output : Nat}
    (lengths : ∀ event, (f event).length = each +
      (if event % eventsPerRound = 0 then round else 0) + if event % 3 = 0 then output else 0)
    (events : Nat) :
    ((List.range events).flatMap f).length =
      each * events + round * (events ⌈/⌉ eventsPerRound) + output * (events ⌈/⌉ 3) := by
  induction events with
  | zero => simp
  | succ events ih =>
    have hrounds : (events + 1) ⌈/⌉ eventsPerRound = _ := succ_ceilDiv (by decide) events
    have houtputs : (events + 1) ⌈/⌉ 3 = _ := succ_ceilDiv (by decide) events
    rw [List.range_succ, List.flatMap_append, List.length_append, ih, List.flatMap_singleton,
      lengths, hrounds, houtputs, Nat.mul_succ, Nat.mul_add, Nat.mul_add, mul_ite, mul_ite,
      Nat.mul_one, Nat.mul_zero, Nat.mul_one, Nat.mul_zero]
    omega

/-- The number of items in a block with so many events. -/
def blockLength (events : Nat) : Nat :=
  3 + 3 * events + events ⌈/⌉ eventsPerRound + events ⌈/⌉ 3

/-- The number of items on a side of a block with so many events. -/
def sideLength (events : Nat) : Side → Nat
  | .input => 2 * events + events ⌈/⌉ eventsPerRound
  | .output => 2 + events + events ⌈/⌉ 3

namespace Producer

variable {producer : Producer} {header : BlockHeader} {proof : BlockProof}

/-- All items of a block, with the proof at the end. -/
def allItems (producer : Producer) (header : BlockHeader) (proof : BlockProof) : Batch :=
  producer.unprovenItems header ++ [Item.ofProof proof]

/-- The items of an event. -/
theorem length_eventItems (number : UInt64) (event : Nat) :
    (eventItems number event).length = 3 +
      (if event % eventsPerRound = 0 then 1 else 0) + if event % 3 = 0 then 1 else 0 := by
  rw [eventItems]
  split <;> split <;> rfl

/-- The items of an event on a side. -/
theorem length_itemsOn_eventItems (number : UInt64) (side : Side) (event : Nat) :
    (itemsOn side (eventItems number event)).length =
      match side with
      | .input => 2 + (if event % eventsPerRound = 0 then 1 else 0) + if event % 3 = 0 then 0 else 0
      | .output =>
        1 + (if event % eventsPerRound = 0 then 0 else 0) + if event % 3 = 0 then 1 else 0 := by
  rw [eventItems]
  cases side with
  | input => split <;> split <;> rfl
  | output => split <;> split <;> rfl

/-- The number of items of a block. -/
theorem length_allItems (header : BlockHeader) (proof : BlockProof) :
    (producer.allItems header proof).length = blockLength producer.eventsPerBlock := by
  have hevents := length_flatMap_events (length_eventItems header.number) producer.eventsPerBlock
  rw [allItems, unprovenItems, blockLength]
  simp only [List.length_append, List.length_cons, List.length_nil, hevents]
  omega

/-- The number of items on a side. -/
theorem length_itemsOn_allItems (side : Side) :
    (itemsOn side (producer.allItems header proof)).length =
      sideLength producer.eventsPerBlock side := by
  have hparts : itemsOn side (producer.allItems header proof) =
      itemsOn side [Item.ofHeader header] ++
        (List.range producer.eventsPerBlock).flatMap
          (fun event => itemsOn side (eventItems header.number event)) ++
        itemsOn side [⟨.stateChanges, payload header.number 0 "state"⟩] ++
        itemsOn side [Item.ofProof proof] := by
    simp only [itemsOn, ← List.filter_append, ← List.filter_flatMap, allItems, unprovenItems]
    simp
  have hevents := length_itemsOn_eventItems header.number side
  rw [hparts]
  cases side with
  | input =>
    have hcount := length_flatMap_events hevents producer.eventsPerBlock
    simp only [List.length_append, hcount]
    simp [itemsOn, Item.ofHeader, Item.ofProof, ItemKind.side?, sideLength]
  | output =>
    have hcount := length_flatMap_events hevents producer.eventsPerBlock
    simp only [List.length_append, hcount]
    simp [itemsOn, Item.ofHeader, Item.ofProof, ItemKind.side?, sideLength]
    omega

end Producer

end Count

namespace Producer

variable {producer : Producer} {header : BlockHeader} {proof : BlockProof} {hash : Digest}

/-- Items of events neither open nor close a block. -/
theorem kind_of_mem_eventItems {number : UInt64} {event : Nat} {item : Item}
    (h : item ∈ eventItems number event) :
    item.kind ≠ .blockHeader ∧ item.kind ≠ .blockProof := by
  have hkind : item.kind ∈ [ItemKind.roundHeader, .eventHeader, .eventTransaction,
      .transactionResult, .transactionOutput] := by
    rw [eventItems] at h
    split at h <;> split at h <;> simp at h <;> rcases h with rfl | rfl | rfl | rfl | rfl <;> simp
  revert hkind
  cases item.kind <;> simp

/-- Between the header and the proof nothing opens or closes a block. -/
theorem exists_unprovenItems (producer : Producer) (header : BlockHeader) :
    ∃ middle : Batch, producer.unprovenItems header = Item.ofHeader header :: middle ∧
      ∀ item ∈ middle, item.kind ≠ .blockHeader ∧ item.kind ≠ .blockProof := by
  refine ⟨_, rfl, ?_⟩
  intro item hitem
  rcases List.mem_append.mp hitem with hevents | hstate
  · obtain ⟨event, -, hevent⟩ := List.mem_flatMap.mp hevents
    exact kind_of_mem_eventItems hevent
  · obtain rfl := List.mem_singleton.mp hstate
    exact ⟨ItemKind.noConfusion, ItemKind.noConfusion⟩

/-- The trees have room for a block if they have room for so many leaves on each side. -/
theorem fits_allItems (room : ∀ side, sideLength producer.eventsPerBlock side ≤ maxLeaves) :
    Fits (producer.allItems header proof) := by
  intro side
  rw [length_itemsOn_allItems]
  exact room side

/-- The proof is not hashed. -/
theorem blockHashOf_allItems (room : ∀ side, sideLength producer.eventsPerBlock side ≤ maxLeaves)
    (header : BlockHeader) (proof : BlockProof) :
    blockHashOf (producer.allItems header proof) proof.previousRoot proof.stateRoot =
      blockHashOf (producer.unprovenItems header) proof.previousRoot proof.stateRoot := by
  have hfits : Fits (producer.allItems header proof) := fits_allItems room
  have hleaves : ∀ side, leavesOn side (producer.allItems header proof) =
      leavesOn side (producer.unprovenItems header) := by
    intro side
    rw [allItems, leavesOn_concat]
    simp [Item.ofProof, ItemKind.side?]
  rw [blockHashOf_ok hfits, blockHashOf_ok hfits.of_append, hleaves, hleaves]

/-- A block that begins with its header is opened by its first batch, and no other one opens a
block. -/
theorem opens_of_flatten {batches : List Batch} {middle : Batch}
    (full : ∀ items ∈ batches, items ≠ [])
    (joined : batches.flatten = Item.ofHeader header :: middle)
    (plain : ∀ item ∈ middle, item.kind ≠ .blockHeader) :
    ∃ first rest, batches = first :: rest ∧ beginning first = .opening header ∧
      ∀ items ∈ rest, beginning items = .inside := by
  obtain ⟨first, rest, rfl, hrest⟩ := exists_first_piece full joined
  refine ⟨_, rest, rfl, beginning_ofHeader header first, fun items hitems => ?_⟩
  obtain ⟨item, tail, rfl⟩ :=
    List.exists_cons_of_ne_nil (full items (List.mem_cons_of_mem _ hitems))
  have hmem : item ∈ middle := by
    rw [← hrest]
    exact List.mem_append_right _ (List.mem_flatten.mpr ⟨_, hitems, List.mem_cons_self⟩)
  rw [beginning, if_pos (plain item hmem)]

/-- A block that ends with its proof is closed by its last batch. -/
theorem closes_of_flatten {batches : List Batch} {unproven : Batch}
    (full : ∀ items ∈ batches, items ≠ [])
    (joined : batches.flatten = unproven ++ [Item.ofProof proof])
    (plain : ∀ item ∈ unproven, item.kind ≠ .blockProof) :
    ∃ front last, batches = front ++ [last] ∧ (∀ items ∈ front, ¬ EndsWithProof items) ∧
      EndsWithProof last := by
  obtain ⟨front, last, rfl, hfront⟩ := exists_last_piece full joined
  refine ⟨front, _, rfl, ?_, _, List.getLast?_concat, rfl⟩
  rintro items hitems ⟨item, hitem, hkind⟩
  have hmem : item ∈ unproven := by
    rw [← hfront]
    exact List.mem_append_left _
      (List.mem_flatten.mpr ⟨items, hitems, List.mem_of_getLast? hitem⟩)
  exact plain item hmem hkind

/-- However the items of a block are cut, its batches are those of a whole block. -/
theorem signedStream_chunksOf (size : Nat)
    (room : ∀ side, sideLength producer.eventsPerBlock side ≤ maxLeaves)
    (block : proof.block = header.number) (signature : proof.signature = hash.bytes)
    (hashed : blockHashOf (producer.unprovenItems header) proof.previousRoot proof.stateRoot =
      .ok hash) :
    SignedStream (fun hash signature => signature == hash.bytes) header hash
      (chunksOf size (producer.allItems header proof)) := by
  have hjoined := flatten_chunksOf size (producer.allItems header proof)
  have hfull : ∀ piece ∈ chunksOf size (producer.allItems header proof), piece ≠ [] :=
    fun piece => ne_nil_of_mem_chunksOf
  obtain ⟨middle, hmiddle, hkinds⟩ := exists_unprovenItems producer header
  refine ⟨?_, ?_, ?_, ?_⟩
  · refine opens_of_flatten hfull (hjoined.trans (congrArg (· ++ _) hmiddle)) ?_
    intro item hitem
    rcases List.mem_append.mp hitem with hinner | hproof
    · exact (hkinds item hinner).1
    · obtain rfl := List.mem_singleton.mp hproof
      exact ItemKind.noConfusion
  · refine closes_of_flatten hfull hjoined ?_
    intro item hitem
    rw [hmiddle] at hitem
    rcases List.mem_cons.mp hitem with rfl | hinner
    · exact ItemKind.noConfusion
    · exact (hkinds item hinner).2
  · rw [hjoined]
    exact fits_allItems room
  · have hshort : proof.signature.length < UInt64.size := by
      rw [signature, hash.length_bytes]
      decide
    rw [hjoined]
    refine .verified List.getLast?_concat rfl (Item.proof_ofProof hshort) block ?_ ?_
    · rw [blockHashOf_allItems room, hashed]
    · rw [signature]
      exact beq_self_eq_true _

/-- The producer hands out a block that continues its chain. -/
structure Hands (producer : Producer) (block : ProducedBlock) (header : BlockHeader)
    (proof : BlockProof) : Prop where
  /-- The header has the next number and the hash of the block before. -/
  opened : header.number = producer.nextNumber ∧ header.previousRoot = producer.previousRoot
  /-- So has the proof. -/
  closed : proof.block = producer.nextNumber ∧ proof.previousRoot = producer.previousRoot
  /-- The block has the same number. -/
  number : block.number = producer.nextNumber
  /-- The signature is the hash of the block. -/
  signature : proof.signature = block.hash.bytes
  /-- The hash is that of the items before the proof. -/
  hashed : blockHashOf (producer.unprovenItems header) proof.previousRoot proof.stateRoot =
    .ok block.hash
  /-- The items are cut into batches. -/
  batches : block.batches = chunksOf producer.itemsPerBatch (producer.allItems header proof)

/-- As long as its time can be told and the trees have room for its leaves, the next block is handed
out. -/
theorem exists_next (time : 1700000000 + producer.nextNumber.toNat * 2 < UInt64.size)
    (room : ∀ side, sideLength producer.eventsPerBlock side ≤ maxLeaves) :
    ∃ block header proof, producer.next = .ok (block,
        { producer with nextNumber := producer.nextNumber + 1, previousRoot := block.hash }) ∧
      producer.Hands block header proof := by
  obtain ⟨seconds, htime⟩ : ∃ seconds, timestamp producer.nextNumber = .ok seconds := by
    refine ⟨UInt64.ofNat (1700000000 + producer.nextNumber.toNat * 2), ?_⟩
    rw [timestamp, if_neg (by omega), if_neg (by omega)]
  have hfits : ∀ header, Fits (producer.unprovenItems header) := by
    intro header
    have hall : Fits (producer.allItems header ⟨0, .zero, .zero, []⟩) := fits_allItems room
    exact hall.of_append
  obtain ⟨stateRoot, hroot⟩ : ∃ root, Digest.of (payload producer.nextNumber 0 "state-root") = root :=
    ⟨_, rfl⟩
  obtain ⟨header, hheader⟩ : ∃ header : BlockHeader,
      ⟨producer.nextNumber, producer.previousRoot, seconds⟩ = header := ⟨_, rfl⟩
  obtain ⟨hash, hhash⟩ : ∃ hash, blockHashOf (producer.unprovenItems header)
      producer.previousRoot stateRoot = .ok hash := ⟨_, blockHashOf_ok (hfits header) _ _⟩
  let proof : BlockProof := ⟨producer.nextNumber, producer.previousRoot, stateRoot, hash.bytes⟩
  let block : ProducedBlock := ⟨producer.nextNumber, hash,
    chunksOf producer.itemsPerBatch (producer.allItems header proof)⟩
  have hnext : producer.next = .ok (block,
      { producer with nextNumber := producer.nextNumber + 1, previousRoot := hash }) := by
    simp only [next, htime, orCrash_ok, ok_bind, hroot, hheader, hhash, Except.mapError, pure_eq_ok]
    rfl
  refine ⟨block, header, proof, hnext, ?_, ⟨rfl, rfl⟩, rfl, rfl, hhash, rfl⟩
  rw [← hheader]
  exact ⟨rfl, rfl⟩

namespace Hands

variable {block : ProducedBlock}

/-- Its batches are those of a whole block. -/
theorem stream (hands : producer.Hands block header proof)
    (room : ∀ side, sideLength producer.eventsPerBlock side ≤ maxLeaves) :
    SignedStream (fun hash signature => signature == hash.bytes) header block.hash
      block.batches := by
  have hsame : proof.block = header.number := hands.closed.1.trans hands.opened.1.symm
  rw [hands.batches]
  exact signedStream_chunksOf _ room hsame hands.signature hands.hashed

/-- It has as many items as a block with so many events. -/
theorem itemCount (hands : producer.Hands block header proof) :
    block.itemCount = blockLength producer.eventsPerBlock := by
  rw [ProducedBlock.itemCount, hands.batches, flatten_chunksOf, length_allItems]

/-- It has no more batches than its items need. -/
theorem length_batches (hands : producer.Hands block header proof)
    (positive : 0 < producer.itemsPerBatch) :
    block.batches.length = blockLength producer.eventsPerBlock ⌈/⌉ producer.itemsPerBatch := by
  rw [hands.batches, length_chunksOf positive, length_allItems]

end Hands

end Producer

end BlockIntake
