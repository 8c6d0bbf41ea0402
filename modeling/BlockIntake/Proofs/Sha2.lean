import BlockIntake.Sha2
import Mathlib

/-!
# SHA-2 over lists

The schedule of a block can be kept as a list, latest word first, so that each word looks back at
fixed distances, and the rounds go through the lists of constants and words side by side. In this
form a hash is computed by recursion on lists alone. It is the same hash.
-/

namespace BlockIntake.Sha2

/-- The schedule words of a block, the latest first, with one more. -/
def extend (latest : List UInt64) : List UInt64 :=
  let w15 := latest.getD 14 0
  let w2 := latest.getD 1 0
  let s0 := rotateRight w15 1 ^^^ rotateRight w15 8 ^^^ (w15 >>> 7)
  let s1 := rotateRight w2 19 ^^^ rotateRight w2 61 ^^^ (w2 >>> 6)
  (latest.getD 15 0 + s0 + latest.getD 6 0 + s1) :: latest

/-- The eighty schedule words of a block. -/
def scheduleList (block : Bytes) : List UInt64 := (extend^[64] (words block).reverse).reverse

/-- Absorb one block into the chaining value. -/
def compressList (chain : Chain) (block : Bytes) : Chain :=
  let v := (roundConstants.toList.zip (scheduleList block)).foldl
    (fun v entry => round v entry.1 entry.2) chain
  ⟨chain.a + v.a, chain.b + v.b, chain.c + v.c, chain.d + v.d,
    chain.e + v.e, chain.f + v.f, chain.g + v.g, chain.h + v.h⟩

/-- Absorb `count` blocks from the front of a byte string, each with the given step. -/
def absorbBy (step : Chain → Bytes → Chain) : (count : Nat) → Bytes → Chain → Chain
  | 0, _, chain => chain
  | count + 1, bytes, chain =>
    absorbBy step count (bytes.drop blockSize) (step chain (bytes.take blockSize))

/-- SHA-384, computed over lists. -/
def sha384List (message : Bytes) : Bytes :=
  let padded := message ++ padding message.length
  let c := absorbBy compressList (padded.length / blockSize) padded initial384
  wordBytes c.a ++ wordBytes c.b ++ wordBytes c.c ++ wordBytes c.d ++
    wordBytes c.e ++ wordBytes c.f

/-- Eight bytes make a word. -/
theorem length_words (block : Bytes) : (words block).length = block.length / 8 := by
  fun_induction words block with
  | case1 b0 b1 b2 b3 b4 b5 b6 b7 rest ih =>
    simp only [List.length_cons, ih]
    omega
  | case2 bytes short =>
    match bytes, short with
    | [], _ | [_], _ | [_, _], _ | [_, _, _], _ | [_, _, _, _], _ | [_, _, _, _, _], _
    | [_, _, _, _, _, _], _ | [_, _, _, _, _, _, _], _ => simp
    | _ :: _ :: _ :: _ :: _ :: _ :: _ :: _ :: _, short =>
      exact absurd rfl (short _ _ _ _ _ _ _ _ _)

/-- Every step of the schedule adds a word. -/
theorem length_extend_iterate (steps : Nat) (latest : List UInt64) :
    (extend^[steps] latest).length = latest.length + steps := by
  induction steps with
  | zero => rfl
  | succ steps ih =>
    rw [Function.iterate_succ_apply', extend, List.length_cons, ih]
    rfl

/-- The words a step looks back at stand at fixed distances from the latest one. -/
theorem getD_reverse_toArray {latest : List UInt64} {steps : Nat}
    (length : latest.length = 16 + steps) {k : Nat} (h : k < 16) :
    latest.reverse.toArray.getD (steps + k) 0 = latest.getD (15 - k) 0 := by
  have hposition : latest.length - 1 - (steps + k) = 15 - k := by omega
  rw [Array.getD_eq_getD_getElem?, List.getElem?_toArray, List.getElem?_reverse (by omega),
    hposition, List.getD_eq_getElem?_getD]

/-- The schedule of a block is the same as a list. -/
theorem schedule_eq {block : Bytes} (h : block.length = blockSize) :
    schedule block = (scheduleList block).toArray := by
  have hwords : (words block).reverse.length = 16 := by
    rw [List.length_reverse, length_words, h]
    rfl
  have hall : ∀ steps, Nat.fold steps
      (fun i _ w =>
        let w15 := w.getD (i + 1) 0
        let w2 := w.getD (i + 14) 0
        let s0 := rotateRight w15 1 ^^^ rotateRight w15 8 ^^^ (w15 >>> 7)
        let s1 := rotateRight w2 19 ^^^ rotateRight w2 61 ^^^ (w2 >>> 6)
        w.push (w.getD i 0 + s0 + w.getD (i + 9) 0 + s1))
      (words block).toArray = (extend^[steps] (words block).reverse).reverse.toArray := by
    intro steps
    induction steps with
    | zero => rw [Function.iterate_zero_apply, List.reverse_reverse]; rfl
    | succ steps ih =>
      have hlength := length_extend_iterate steps (words block).reverse
      rw [hwords] at hlength
      have hfirst := getD_reverse_toArray hlength (k := 0) (by decide)
      rw [Nat.add_zero] at hfirst
      rw [Nat.fold_succ, ih, Function.iterate_succ_apply', extend, List.reverse_cons]
      dsimp only
      rw [hfirst, getD_reverse_toArray hlength (by decide),
        getD_reverse_toArray hlength (by decide), getD_reverse_toArray hlength (by decide),
        List.push_toArray]
  exact hall 64

/-- Steps counted from zero go through two lists side by side. -/
theorem fold_getD_eq_foldl_zip {β : Type} (f : β → UInt64 → UInt64 → β) {xs ys : List UInt64}
    (same : xs.length = ys.length) (b : β) {count : Nat} (h : count ≤ xs.length) :
    Nat.fold count (fun i _ b => f b (xs.toArray.getD i 0) (ys.toArray.getD i 0)) b =
      ((xs.zip ys).take count).foldl (fun b entry => f b entry.1 entry.2) b := by
  induction count with
  | zero => rfl
  | succ count ih =>
    have hx : count < xs.length := h
    have hy : count < ys.length := same ▸ h
    have hz : count < (xs.zip ys).length := by
      rw [List.length_zip]
      omega
    rw [Nat.fold_succ, ih (Nat.le_of_succ_le h), List.take_succ_eq_append_getElem hz,
      List.foldl_append, List.getElem_zip]
    simp [hx, hy]

/-- A block is absorbed alike. -/
theorem compress_eq (chain : Chain) {block : Bytes} (h : block.length = blockSize) :
    compress chain block = compressList chain block := by
  have hwords : (words block).length = 16 := by
    rw [length_words, h]
    rfl
  have hconstants : roundConstants.toList.length = 80 := by decide
  have hscheduled : roundConstants.toList.length = (scheduleList block).length := by
    rw [scheduleList, List.length_reverse, length_extend_iterate, List.length_reverse, hwords,
      hconstants]
  have hcount : 80 ≤ roundConstants.toList.length := hconstants.ge
  have hall : (roundConstants.toList.zip (scheduleList block)).length ≤ 80 := by
    rw [List.length_zip, hconstants]
    exact Nat.min_le_left _ _
  have hrounds := fold_getD_eq_foldl_zip round hscheduled chain hcount
  rw [Array.toArray_toList, List.take_of_length_le hall] at hrounds
  rw [compress, compressList, schedule_eq h, hrounds]

/-- Blocks are absorbed by steps of compression. -/
theorem absorb_eq_absorbBy : absorb = absorbBy compress := by
  delta absorb absorbBy
  rfl

/-- Steps that agree on whole blocks absorb alike. -/
theorem absorbBy_congr {step other : Chain → Bytes → Chain}
    (alike : ∀ chain block, block.length = blockSize → step chain block = other chain block)
    (count : Nat) {bytes : Bytes} (h : count * blockSize ≤ bytes.length) (chain : Chain) :
    absorbBy step count bytes chain = absorbBy other count bytes chain := by
  induction count generalizing bytes chain with
  | zero => rfl
  | succ count ih =>
    rw [Nat.succ_mul] at h
    have hfirst : (bytes.take blockSize).length = blockSize := by
      rw [List.length_take]
      omega
    have hrest : count * blockSize ≤ (bytes.drop blockSize).length := by
      rw [List.length_drop]
      omega
    rw [absorbBy, absorbBy, alike chain _ hfirst, ih hrest]

/-- SHA-384 can be computed over lists. -/
theorem sha384_eq (message : Bytes) : sha384 message = sha384List message := by
  have hwhole : (message ++ padding message.length).length / blockSize * blockSize ≤
      (message ++ padding message.length).length := Nat.div_mul_le_self _ _
  have hcompress : ∀ chain block, block.length = blockSize →
      compress chain block = compressList chain block := fun chain _ h => compress_eq chain h
  rw [sha384, sha384List, chainOf, absorb_eq_absorbBy, absorbBy_congr hcompress _ hwhole]

end BlockIntake.Sha2
