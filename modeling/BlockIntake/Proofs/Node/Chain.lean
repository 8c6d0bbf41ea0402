import BlockIntake.Proofs.Node.Blocks

/-!
# The chain of the producer

A producer is asked for one block after the other. It stores its next number and the hash of its
last block only once a block is complete, so a request that fails leaves the chain where it was and
will fail again. A request succeeds as long as the time of the block can be told and the trees have
room for its items. The blocks handed out are numbered by the requests, each names the hash of the
one before it in its header and in its proof, and its own hash is that of all its items.
-/

namespace BlockIntake

open Merkle

section Pieces

variable {α : Type} {size : Nat}

/-- All pieces but the last are full, and the last holds something. -/
theorem chunksOf_cut (positive : 0 < size) {items : List α} (some : items ≠ []) :
    ∃ front last, chunksOf size items = front ++ [last] ∧ (∀ piece ∈ front, piece.length = size) ∧
      0 < last.length ∧ last.length ≤ size := by
  fun_induction chunksOf size items with
  | case1 => exact absurd rfl some
  | case2 a rest ih =>
    have hpiece : (a :: rest.take (size - 1)).length = min (size - 1) rest.length + 1 := by
      rw [List.length_cons, List.length_take]
    by_cases hmore : rest.drop (size - 1) = []
    · refine ⟨[], a :: rest.take (size - 1), ?_, fun piece h => absurd h List.not_mem_nil, ?_, ?_⟩
      · rw [hmore, chunksOf, List.nil_append]
      · omega
      · omega
    · obtain ⟨front, last, hcut, hfull, hsome, hfew⟩ := ih hmore
      refine ⟨(a :: rest.take (size - 1)) :: front, last, ?_, ?_, hsome, hfew⟩
      · rw [hcut, List.cons_append]
      · have hlong : ¬ rest.length ≤ size - 1 := mt List.drop_eq_nil_of_le hmore
        intro piece hmem
        rcases List.mem_cons.mp hmem with rfl | hlater
        · omega
        · exact hfull piece hlater

end Pieces

section Room

variable {items : Batch}

/-- A tree takes a leaf only if it has room for it. -/
theorem notFull_of_add {tree next : LeafTree} {leaf : Bytes}
    (added : ofTreeFault (TreeHasher.add tree leaf) = .ok next) :
    tree.leaves.toList.length < maxLeaves := by
  cases hadd : tree.add leaf with
  | error fault =>
    have hnone : ofTreeFault (tree.add leaf) = .ok next := added
    rw [hadd] at hnone
    cases hnone
  | ok grown =>
    obtain ⟨hash, haccept, -⟩ := exists_of_bind_ok hadd
    exact (accept_ok haccept).2

/-- Items over which there are trees fit. The induction runs over the items from the back. -/
theorem fits_of_treesOver {trees : BlockTrees LeafTree} (hashed : treesOver items = .ok trees) :
    Fits items := by
  induction items using List.reverseRecOn generalizing trees with
  | nil => exact fits_nil
  | append_singleton items item ih =>
    rw [treesOver_append] at hashed
    obtain ⟨before, hbefore, hadd⟩ := exists_of_bind_ok hashed
    have hfits := ih hbefore
    rw [treesOver_eq hfits] at hbefore
    obtain rfl := Except.ok.inj hbefore
    rw [BlockTrees.addAll, List.foldlM_cons] at hadd
    obtain ⟨after, hafter, -⟩ := exists_of_bind_ok hadd
    have hroom : ∀ side, item.kind.side? = some side → (itemsOn side items).length < maxLeaves := by
      intro side hside
      rw [BlockTrees.add, hside] at hafter
      cases side with
      | input =>
        obtain ⟨next, hnext, -⟩ := exists_of_bind_ok hafter
        simpa [leavesOn] using notFull_of_add hnext
      | output =>
        obtain ⟨next, hnext, -⟩ := exists_of_bind_ok hafter
        simpa [leavesOn] using notFull_of_add hnext
    intro side
    rw [itemsOn, List.filter_append, List.length_append]
    by_cases hside : item.kind.side? = some side
    · have hless := hroom side hside
      rw [itemsOn] at hless
      simp only [hside, beq_self_eq_true, List.filter_cons_of_pos, List.filter_nil,
        List.length_singleton]
      omega
    · have hall := hfits side
      rw [itemsOn] at hall
      simpa [hside] using hall

/-- Items with a hash fit. -/
theorem fits_of_blockHashOf {previousRoot stateRoot hash : Digest}
    (hashed : blockHashOf items previousRoot stateRoot = .ok hash) : Fits items := by
  obtain ⟨trees, htrees, -⟩ := exists_of_bind_ok hashed
  exact fits_of_treesOver htrees

end Room

namespace Producer

section Place

/-- The answer to a request for a block. -/
abbrev Answer := Except (Fault ProducerError) ProducedBlock

/-- What can fail and changes the producer in place. -/
abbrev InPlace := ExceptT (Fault ProducerError) (StateM Producer)

variable {α β : Type}

/-- A computation that leaves the producer alone. -/
def apart (x : Except (Fault ProducerError) α) : InPlace α := ExceptT.mk (pure x)

/-- Make the next block in place. The number and the hash are stored once the block is complete. -/
def nextInPlace : InPlace ProducedBlock := do
  let number := (← get).nextNumber
  let previousRoot := (← get).previousRoot
  let time ← apart (orCrash (timestamp number))
  let items := (← get).unprovenItems ⟨number, previousRoot, time⟩
  let stateRoot := Digest.of (payload number 0 "state-root")
  let hash ← apart ((blockHashOf items previousRoot stateRoot).mapError
    (Fault.mapCause ProducerError.hashing))
  let proof : BlockProof := ⟨number, previousRoot, stateRoot, hash.bytes⟩
  modify fun producer => { producer with nextNumber := producer.nextNumber + 1 }
  modify fun producer => { producer with previousRoot := hash }
  return ⟨number, hash, chunksOf (← get).itemsPerBatch (items ++ [Item.ofProof proof])⟩

/-- Ask for blocks, one after the other, whether or not there are any. -/
def ask : (count : Nat) → StateM Producer (List Answer)
  | 0 => return []
  | count + 1 => do
    let answers ← ask count
    return answers ++ [← nextInPlace.run]

/-- A failure of what leaves the producer alone ends the action and changes nothing. -/
theorem run_apart_bind (x : Except (Fault ProducerError) α) (f : α → InPlace β)
    (producer : Producer) :
    (apart x >>= f).run.run producer = match x with
      | .ok a => (f a).run.run producer
      | .error fault => (.error fault, producer) := by
  cases x <;> rfl

-- In parentheses, so that rewriting with these does not leave it to the kernel to compare what they
-- are applied to by computation.
/-- An action can look at the producer. -/
theorem run_get_bind (f : Producer → InPlace β) (producer : Producer) :
    (get >>= f).run.run producer = (f producer).run.run producer := (rfl)

/-- An action can change the producer. -/
theorem run_modify_bind (g : Producer → Producer) (f : PUnit → InPlace β) (producer : Producer) :
    (modify g >>= f).run.run producer = (f ⟨⟩).run.run (g producer) := (rfl)

/-- A result leaves the producer alone. -/
theorem run_pure (b : β) (producer : Producer) :
    (pure b : InPlace β).run.run producer = (.ok b, producer) := (rfl)

/-- In place the same block is made as from a producer that is a value, and a failure changes
nothing. -/
theorem nextInPlace_run (producer : Producer) :
    nextInPlace.run.run producer = match producer.next with
      | .ok (block, producer) => (.ok block, producer)
      | .error fault => (.error fault, producer) := by
  rw [nextInPlace, next]
  simp only [run_get_bind, run_apart_bind, run_modify_bind, run_pure]
  generalize orCrash (timestamp producer.nextNumber) = told
  cases told with
  | error fault => simp only [error_bind]
  | ok time =>
    simp only [ok_bind]
    generalize (blockHashOf _ _ _).mapError _ = hashed
    cases hashed with
    | error fault => simp only [error_bind]
    | ok hash => simp only [ok_bind, pure_eq_ok]

/-- The last request is put to the producer the others have left. -/
theorem ask_succ_run (count : Nat) (producer : Producer) :
    (ask (count + 1)).run producer =
      (((ask count).run producer).1 ++ [(nextInPlace.run.run ((ask count).run producer).2).1],
        (nextInPlace.run.run ((ask count).run producer).2).2) := (rfl)

end Place

/-- A block can stand at a position of the chain: its time can be told, and the trees have room for
its items. -/
structure Possible (events position : Nat) : Prop where
  /-- The time is a 64-bit integer. -/
  time : 1700000000 + position * 2 < UInt64.size
  /-- The items of every side fit. -/
  room : ∀ side, sideLength events side ≤ maxLeaves

/-- If a block is possible, so are those before it. -/
theorem Possible.mono {events position earlier : Nat} (possible : Possible events position)
    (h : earlier ≤ position) : Possible events earlier := by
  have htime := possible.time
  exact ⟨by omega, possible.room⟩

/-- A block stands at a position of the chain and continues from a hash. -/
structure Links (size position : Nat) (previous : Digest) (block : ProducedBlock)
    (header : BlockHeader) (proof : BlockProof) : Prop where
  /-- The block is numbered by its position. -/
  number : block.number.toNat = position
  /-- Its first item is the header, and no other item is one. -/
  opened : ∃ item items rest, block.batches = (item :: items) :: rest ∧ item.kind = .blockHeader ∧
    item.header = .ok header ∧ ∀ other ∈ items ++ rest.flatten, other.kind ≠ .blockHeader
  /-- Its last item is the proof, and no other item is one. -/
  closed : ∃ front items item, block.batches = front ++ [items ++ [item]] ∧
    item.kind = .blockProof ∧ item.proof = .ok proof ∧
    ∀ other ∈ front.flatten ++ items, other.kind ≠ .blockProof
  /-- Header and proof have its number. -/
  numbered : header.number = block.number ∧ proof.block = block.number
  /-- They name the hash it continues from. -/
  continues : header.previousRoot = previous ∧ proof.previousRoot = previous
  /-- The signature is its hash. -/
  signature : proof.signature = block.hash.bytes
  /-- Its hash is that of all its items. -/
  hashed : blockHashOf block.batches.flatten previous proof.stateRoot = .ok block.hash
  /-- All its batches but the last are full, and the last holds something. -/
  cut : ∃ front last, block.batches = front ++ [last] ∧ (∀ batch ∈ front, batch.length = size) ∧
    0 < last.length ∧ last.length ≤ size

section Chain

variable {events items : Nat} {producer : Producer} {block : ProducedBlock} {header : BlockHeader}
  {proof : BlockProof} {answers : List Answer}

/-- A block that is handed out continues the chain of its producer. -/
theorem Hands.links (hands : producer.Hands block header proof)
    (room : ∀ side, sideLength producer.eventsPerBlock side ≤ maxLeaves)
    (positive : 0 < producer.itemsPerBatch) :
    Links producer.itemsPerBatch producer.nextNumber.toNat producer.previousRoot block header
      proof := by
  have hjoined := flatten_chunksOf producer.itemsPerBatch (producer.allItems header proof)
  have hfull : ∀ piece ∈ chunksOf producer.itemsPerBatch (producer.allItems header proof),
      piece ≠ [] := fun piece => ne_nil_of_mem_chunksOf
  have hshort : proof.signature.length < UInt64.size := by
    rw [hands.signature, block.hash.length_bytes]
    decide
  obtain ⟨middle, hmiddle, hkinds⟩ := exists_unprovenItems producer header
  have hall : producer.allItems header proof =
      Item.ofHeader header :: (middle ++ [Item.ofProof proof]) := by
    rw [allItems, hmiddle, List.cons_append]
  refine ⟨congrArg _ hands.number, ?_, ?_, ?_, ?_, hands.signature, ?_, ?_⟩
  · obtain ⟨first, rest, hbatches, hrest⟩ := exists_first_piece hfull (hjoined.trans hall)
    refine ⟨_, first, rest, hands.batches.trans hbatches, rfl, Item.header_ofHeader header, ?_⟩
    intro other hother
    rw [hrest] at hother
    rcases List.mem_append.mp hother with hinner | hproof
    · exact (hkinds other hinner).1
    · obtain rfl := List.mem_singleton.mp hproof
      exact ItemKind.noConfusion
  · obtain ⟨front, last, hbatches, hfront⟩ := exists_last_piece hfull hjoined
    refine ⟨front, last, _, hands.batches.trans hbatches, rfl, Item.proof_ofProof hshort, ?_⟩
    intro other hother
    rw [hfront, hmiddle] at hother
    rcases List.mem_cons.mp hother with rfl | hinner
    · exact ItemKind.noConfusion
    · exact (hkinds other hinner).2
  · exact ⟨hands.opened.1.trans hands.number.symm, hands.closed.1.trans hands.number.symm⟩
  · exact ⟨hands.opened.2, hands.closed.2⟩
  · have hhashed := blockHashOf_allItems room header proof
    rw [hands.hashed, hands.closed.2] at hhashed
    rw [hands.batches, hjoined, hhashed]
  · rw [hands.batches]
    exact chunksOf_cut positive (by rw [hall]; exact List.cons_ne_nil _ _)

/-- A time that is told is a 64-bit integer. -/
theorem timestamp_ok {number time : UInt64} (told : timestamp number = .ok time) :
    1700000000 + number.toNat * 2 < UInt64.size := by
  rw [timestamp] at told
  split at told
  · cases told
  · split at told
    · cases told
    · omega

/-- The items before the proof are all that are on a side. -/
theorem length_itemsOn_unprovenItems (producer : Producer) (header : BlockHeader) (side : Side) :
    (itemsOn side (producer.unprovenItems header)).length =
      sideLength producer.eventsPerBlock side := by
  have hall : (itemsOn side (producer.allItems header ⟨0, .zero, .zero, []⟩)).length =
      sideLength producer.eventsPerBlock side := length_itemsOn_allItems side
  rw [allItems, itemsOn, List.filter_append] at hall
  simpa [itemsOn, Item.ofProof, ItemKind.side?] using hall

/-- A block is handed out exactly if it is possible. -/
theorem next_ok_iff (producer : Producer) : (∃ made, producer.next = .ok made) ↔
    Possible producer.eventsPerBlock producer.nextNumber.toNat := by
  constructor
  · rintro ⟨made, hmade⟩
    obtain ⟨time, htime, hrest⟩ := exists_of_bind_ok hmade
    obtain ⟨hash, hhash, -⟩ := exists_of_bind_ok hrest
    constructor
    · cases htold : timestamp producer.nextNumber with
      | ok told => exact timestamp_ok htold
      | error crash =>
        rw [htold] at htime
        cases htime
    · intro side
      rw [← length_itemsOn_unprovenItems producer
        ⟨producer.nextNumber, producer.previousRoot, time⟩ side]
      generalize hhashed : blockHashOf _ _ _ = hashed at hhash
      cases hashed with
      | ok hash => exact fits_of_blockHashOf hhashed side
      | error fault => cases hhash
  · intro possible
    obtain ⟨block, -, -, hnext, -⟩ := exists_next possible.time possible.room
    exact ⟨_, hnext⟩

/-- The hash a block at a position continues from, if the one before it was handed out. -/
def hashBefore (answers : List Answer) : (position : Nat) → Option Digest
  | 0 => some Digest.zero
  | position + 1 =>
    match answers[position]? with
    | some (.ok block) => some block.hash
    | _ => none

/-- It does not depend on later answers. -/
theorem hashBefore_append {position : Nat} (h : position ≤ answers.length) (more : List Answer) :
    hashBefore (answers ++ more) position = hashBefore answers position := by
  cases position with
  | zero => rfl
  | succ position => rw [hashBefore, hashBefore, List.getElem?_append_left h]

/-- A producer has given answers since the start of its chain. The blocks handed out are those at
the first positions, up to its next number, and each continues from the one before it. -/
structure Chained (events size : Nat) (answers : List Answer) (producer : Producer) : Prop where
  /-- The number of events in a block stays. -/
  shape : producer.eventsPerBlock = events
  /-- So does the size of batches. -/
  pieces : producer.itemsPerBatch = size
  /-- The chain continues from the block before the next number. -/
  previous : hashBefore answers producer.nextNumber.toNat = some producer.previousRoot
  /-- There is an answer for every number. -/
  few : producer.nextNumber.toNat ≤ answers.length
  /-- The numbers before the next one are possible. -/
  made : ∀ position < producer.nextNumber.toNat, Possible events position
  /-- If there are more answers, the next number is not. -/
  stuck : producer.nextNumber.toNat < answers.length →
    ¬ Possible events producer.nextNumber.toNat
  /-- The blocks are those before the next number. -/
  handed : ∀ position, (∃ block, answers[position]? = some (.ok block)) ↔
    position < producer.nextNumber.toNat
  /-- Each block continues from the one before it. -/
  linked : ∀ position block, answers[position]? = some (.ok block) →
    ∃ previous header proof, hashBefore answers position = some previous ∧
      Links size position previous block header proof

/-- At the start there are no answers. -/
theorem chained_new (events items : Nat) :
    Chained events (max items 1) [] (Producer.new events items) where
  shape := rfl
  pieces := rfl
  previous := rfl
  few := Nat.zero_le _
  made := fun _ h => absurd h (Nat.not_lt_zero _)
  stuck := fun h => absurd h (Nat.not_lt_zero _)
  handed := by simp [Producer.new]
  linked := by simp

/-- A block among the answers and one more is among them, or is the last. -/
theorem ok_of_concat {position : Nat} {answer : Answer}
    (h : (answers ++ [answer])[position]? = some (.ok block)) :
    answers[position]? = some (.ok block) ∧ position < answers.length ∨
      position = answers.length ∧ answer = .ok block := by
  by_cases hearly : position < answers.length
  · rw [List.getElem?_append_left hearly] at h
    exact Or.inl ⟨h, hearly⟩
  · rw [List.getElem?_append_right (by omega), List.getElem?_singleton] at h
    split at h
    · exact Or.inr ⟨by omega, Option.some.inj h⟩
    · cases h

/-- Answers stay where they are. -/
theorem ok_concat {position : Nat} (h : answers[position]? = some (.ok block)) (answer : Answer) :
    (answers ++ [answer])[position]? = some (.ok block) := by
  obtain ⟨hearly, -⟩ := List.getElem?_eq_some_iff.mp h
  rwa [List.getElem?_append_left hearly]

/-- A block continues from the one before it, whatever is answered later. -/
theorem Chained.linked_concat {size position : Nat} (chained : Chained events size answers producer)
    (h : answers[position]? = some (.ok block)) (answer : Answer) :
    ∃ previous header proof, hashBefore (answers ++ [answer]) position = some previous ∧
      Links size position previous block header proof := by
  obtain ⟨hearly, -⟩ := List.getElem?_eq_some_iff.mp h
  rw [hashBefore_append hearly.le]
  exact chained.linked position block h

/-- A request that fails is answered so, and nothing else changes. -/
theorem Chained.refuse {size : Nat} (chained : Chained events size answers producer)
    (impossible : ¬ Possible events producer.nextNumber.toNat) (fault : Fault ProducerError) :
    Chained events size (answers ++ [.error fault]) producer := by
  have hsame : ∀ (position : Nat) (block : ProducedBlock),
      (answers ++ [.error fault])[position]? = some (.ok block) →
        answers[position]? = some (.ok block) := by
    intro position block h
    rcases ok_of_concat h with ⟨hearly, -⟩ | ⟨-, hlast⟩
    · exact hearly
    · cases hlast
  refine ⟨chained.shape, chained.pieces, ?_, ?_, chained.made, fun _ => impossible, ?_, ?_⟩
  · rw [hashBefore_append chained.few, chained.previous]
  · rw [List.length_append]
    exact Nat.le_add_right_of_le chained.few
  · intro position
    rw [← chained.handed]
    constructor
    · exact fun ⟨block, h⟩ => ⟨block, hsame position block h⟩
    · exact fun ⟨block, h⟩ => ⟨block, ok_concat h _⟩
  · exact fun position block h => chained.linked_concat (hsame position block h) _

/-- A block that is handed out continues the chain. -/
theorem Chained.extend {size : Nat} (chained : Chained events size answers producer)
    (possible : Possible events producer.nextNumber.toNat) (positive : 0 < size)
    (hands : producer.Hands block header proof) :
    Chained events size (answers ++ [.ok block])
      { producer with nextNumber := producer.nextNumber + 1, previousRoot := block.hash } := by
  have hcount : producer.nextNumber.toNat = answers.length := by
    have hfew := chained.few
    by_contra hless
    exact chained.stuck (by omega) possible
  have hnext : (producer.nextNumber + 1).toNat = answers.length + 1 := by
    have htime := possible.time
    rw [UInt64.toNat_add, hcount, UInt64.toNat_one, Nat.mod_eq_of_lt]
    exact Nat.lt_of_le_of_lt (by omega) htime
  rw [hcount] at possible
  refine ⟨chained.shape, chained.pieces, ?_, ?_, ?_, ?_, ?_, ?_⟩
  · dsimp only
    rw [hnext, hashBefore, List.getElem?_concat_length]
  · dsimp only
    rw [hnext, List.length_append, List.length_singleton]
  · dsimp only
    rw [hnext]
    exact fun position h => possible.mono (by omega)
  · dsimp only
    rw [hnext, List.length_append, List.length_singleton]
    exact fun h => absurd h (Nat.lt_irrefl _)
  · dsimp only
    rw [hnext]
    intro position
    have hhanded := chained.handed position
    rw [hcount] at hhanded
    constructor
    · rintro ⟨other, h⟩
      rcases ok_of_concat h with ⟨-, hearly⟩ | ⟨hlast, -⟩
      · omega
      · omega
    · intro h
      by_cases hlast : position = answers.length
      · exact ⟨block, by rw [hlast, List.getElem?_concat_length]⟩
      · obtain ⟨other, hother⟩ := hhanded.mpr (by omega)
        exact ⟨other, ok_concat hother _⟩
  · intro position other h
    rcases ok_of_concat h with ⟨hearly, -⟩ | ⟨rfl, hlast⟩
    · exact chained.linked_concat hearly _
    · obtain rfl := Except.ok.inj hlast
      have hprevious := chained.previous
      have hpositive : 0 < producer.itemsPerBatch := chained.pieces ▸ positive
      have hlinks := hands.links (chained.shape ▸ possible.room) hpositive
      rw [hcount] at hprevious hlinks
      rw [chained.pieces] at hlinks
      rw [hashBefore_append le_rfl]
      exact ⟨_, header, proof, hprevious, hlinks⟩

/-- Asking for blocks makes a chain. The induction runs over the requests. -/
theorem chained_ask (events items count : Nat) :
    ((ask count).run (Producer.new events items)).1.length = count ∧
      Chained events (max items 1) ((ask count).run (Producer.new events items)).1
        ((ask count).run (Producer.new events items)).2 := by
  induction count with
  | zero => exact ⟨rfl, chained_new events items⟩
  | succ count ih =>
    obtain ⟨hlength, chained⟩ := ih
    rw [ask_succ_run]
    generalize (ask count).run (Producer.new events items) = asked at hlength chained ⊢
    obtain ⟨answers, producer⟩ := asked
    dsimp only at hlength chained ⊢
    have hiff := next_ok_iff producer
    rw [chained.shape] at hiff
    refine ⟨by rw [List.length_append, hlength, List.length_singleton], ?_⟩
    rw [nextInPlace_run]
    by_cases possible : Possible events producer.nextNumber.toNat
    · obtain ⟨block, header, proof, hnext, hands⟩ :=
        exists_next possible.time (chained.shape ▸ possible.room)
      rw [hnext]
      exact chained.extend possible (by omega) hands
    · cases hnext : producer.next with
      | ok made => exact absurd (hiff.mp ⟨made, hnext⟩) possible
      | error fault => exact chained.refuse possible fault

/-- Start a chain with any number of events in a block and any size of batches, a size of zero
counting as one, and ask for any number of blocks. The requests that succeed are those whose time
can be told and whose items the trees have room for. The block handed out at a position has this
number in its header and its proof as well, both name the hash of the block before it, which was
handed out too, or no hash at the start, the signature is its hash, and the hash is that of all its
items. Its batches but the last are full, the last holds something, the first item of all is the
only header and the last item of all is the only proof. A request that fails changes nothing. -/
theorem chain_is_consistent (events items count : Nat) :
    ∃ answers producer, (ask count).run (Producer.new events items) = (answers, producer) ∧
      answers.length = count ∧
      (∀ position, (∃ block, answers[position]? = some (.ok block)) ↔
        position < count ∧ Possible events position) ∧
      (∀ position block, answers[position]? = some (.ok block) →
        ∃ previous header proof, hashBefore answers position = some previous ∧
          Links (max items 1) position previous block header proof) ∧
      ∀ before fault after, nextInPlace.run.run before = (.error fault, after) →
        after = before := by
  obtain ⟨hlength, chained⟩ := chained_ask events items count
  generalize (ask count).run (Producer.new events items) = asked at hlength chained ⊢
  obtain ⟨answers, producer⟩ := asked
  dsimp only at hlength chained
  refine ⟨answers, producer, rfl, hlength, ?_, chained.linked, ?_⟩
  · intro position
    have hfew := chained.few
    rw [chained.handed]
    constructor
    · exact fun h => ⟨by omega, chained.made position h⟩
    · rintro ⟨hearly, possible⟩
      by_contra hlate
      exact chained.stuck (by omega) (possible.mono (by omega))
  · intro before fault after h
    rw [nextInPlace_run] at h
    cases hnext : before.next with
    | ok made =>
      rw [hnext] at h
      cases (Prod.mk.inj h).1
    | error other =>
      rw [hnext] at h
      exact (Prod.mk.inj h).2.symm

end Chain

end Producer

end BlockIntake
