import BlockIntake.Bytes.Range
import BlockIntake.Proofs.Outcome
import BlockIntake.Wire
import Mathlib

/-!
# Exact formats

A format is exact for the values that fit into it if reading takes a written value, and nothing
else, from the front of the bytes. The basic formats are exact, and building formats from exact ones
keeps them exact.
-/

namespace BlockIntake.Wire

variable {α β : Type}

/-- Reading finds exactly the values that were written. -/
structure Exact (wire : Wire α) (fits : α → Prop) : Prop where
  /-- A written value is read, and what follows it is left over. -/
  read_write : ∀ a, fits a → ∀ rest, wire.read (wire.write a ++ rest) = .ok (a, rest)
  /-- What is read was written. -/
  write_of_read : ∀ {bytes a rest}, wire.read bytes = .ok (a, rest) →
    fits a ∧ bytes = wire.write a ++ rest

section Written

/-- A number is written at its width. -/
@[simp] theorem write_number (width n : Nat) :
    (number width).write n = Bytes.littleEndian width n := rfl

/-- A 64-bit integer is written in eight bytes. -/
@[simp] theorem write_u64 (n : UInt64) : u64.write n = Bytes.littleEndian 8 n.toNat := rfl

/-- A truth value is written in one byte. -/
@[simp] theorem write_flag (b : Bool) : flag.write b = [if b then 1 else 0] := rfl

/-- The length of a byte string is written before it. -/
@[simp] theorem write_blob (bytes : Bytes) :
    blob.write bytes = Bytes.littleEndian 8 bytes.length ++ bytes := rfl

/-- A digest is written with the length that all digests have. -/
@[simp] theorem write_digest (d : Digest) :
    digest.write d = Bytes.littleEndian 8 digestSize ++ d.bytes := rfl

/-- A name is written as its position. -/
@[simp] theorem write_oneOf [BEq α] (all : List α) (a : α) :
    (oneOf all).write a = Bytes.littleEndian 4 (all.idxOf a) := rfl

/-- Two values are written in order. -/
@[simp] theorem write_pair (first : Wire α) (second : Wire β) (a : α) (b : β) :
    (first.pair second).write (a, b) = first.write a ++ second.write b := rfl

/-- The first alternative is written after a zero. -/
@[simp] theorem write_inl (left : Wire α) (right : Wire β) (a : α) :
    (left.either right).write (.inl a) = Bytes.littleEndian 4 0 ++ left.write a := rfl

/-- The second alternative is written after a one. -/
@[simp] theorem write_inr (left : Wire α) (right : Wire β) (b : β) :
    (left.either right).write (.inr b) = Bytes.littleEndian 4 1 ++ right.write b := rfl

/-- A value is written as the value it corresponds to. -/
@[simp] theorem write_via (inner : Wire α) (toOuter : α → β) (toInner : β → α) (b : β) :
    (inner.via toOuter toInner).write b = inner.write (toInner b) := rfl

end Written

/-- As many bytes as there are of a string are taken from its front. -/
theorem takeBytes_append {fault : WireFault} {count : Nat} {front : Bytes}
    (h : front.length = count) (rest : Bytes) :
    takeBytes fault count (front ++ rest) = .ok (front, rest) := by
  subst h
  have hle : front.length ≤ (front ++ rest).length := by simp
  rw [takeBytes, if_pos hle, List.take_left, List.drop_left]

/-- The bytes that are taken are at the front. -/
theorem takeBytes_ok {fault : WireFault} {count : Nat} {bytes front rest : Bytes}
    (h : takeBytes fault count bytes = .ok (front, rest)) :
    front.length = count ∧ bytes = front ++ rest := by
  rw [takeBytes] at h
  split at h
  · next hle =>
    obtain ⟨rfl, rfl⟩ := Prod.mk.inj (Except.ok.inj h)
    exact ⟨List.length_take_of_le hle, (List.take_append_drop count bytes).symm⟩
  · cases h

/-- A number that was written at a width is read. -/
theorem read_number (width : Nat) {n : Nat} (h : n < 256 ^ width) (rest : Bytes) :
    (number width).read (Bytes.littleEndian width n ++ rest) = .ok (n, rest) := by
  have htake : takeBytes .endOfData width (Bytes.littleEndian width n ++ rest) =
      .ok (Bytes.littleEndian width n, rest) :=
    takeBytes_append (Bytes.length_littleEndian width n) rest
  have hvalue : Bytes.littleEndianValue (Bytes.littleEndian width n) = n := by
    rw [Bytes.littleEndianValue_littleEndian, Nat.mod_eq_of_lt h]
  simp only [number, htake, ok_bind, hvalue, pure_eq_ok]

/-- A number that is read was written. -/
theorem number_ok {width n : Nat} {bytes rest : Bytes}
    (h : (number width).read bytes = .ok (n, rest)) :
    n < 256 ^ width ∧ bytes = Bytes.littleEndian width n ++ rest := by
  obtain ⟨⟨front, left⟩, htake, hnext⟩ := exists_of_bind_ok h
  obtain ⟨rfl, rfl⟩ := takeBytes_ok htake
  obtain ⟨rfl, rfl⟩ := Prod.mk.inj (Except.ok.inj hnext)
  rw [Bytes.littleEndian_littleEndianValue]
  exact ⟨Bytes.littleEndianValue_lt front, rfl⟩

/-- A 64-bit integer is written exactly. -/
theorem exact_u64 : u64.Exact fun _ => True where
  read_write n _ rest := by
    have hread := read_number 8 n.toNat_lt rest
    rw [write_u64]
    simp only [u64, hread, ok_bind, UInt64.ofNat_toNat, pure_eq_ok]
  write_of_read {bytes a rest} h := by
    obtain ⟨⟨n, left⟩, hread, hnext⟩ := exists_of_bind_ok h
    obtain ⟨hn, rfl⟩ := number_ok hread
    obtain ⟨rfl, rfl⟩ := Prod.mk.inj (Except.ok.inj hnext)
    have hback : (UInt64.ofNat n).toNat = n := UInt64.toNat_ofNat_of_lt' hn
    exact ⟨trivial, by rw [write_u64, hback]⟩

/-- A truth value is written exactly: no byte but zero and one is taken for one. -/
theorem exact_flag : flag.Exact fun _ => True where
  read_write b _ rest := by cases b <;> rfl
  write_of_read {bytes a rest} h := by
    simp only [flag] at h
    split at h
    · cases h
    · obtain ⟨rfl, rfl⟩ := Prod.mk.inj (Except.ok.inj h)
      exact ⟨trivial, rfl⟩
    · obtain ⟨rfl, rfl⟩ := Prod.mk.inj (Except.ok.inj h)
      exact ⟨trivial, rfl⟩
    · cases h

/-- A byte string is written exactly if its length is a 64-bit integer. -/
theorem exact_blob : blob.Exact (·.length < 256 ^ 8) where
  read_write bytes h rest := by
    have hlength := read_number 8 h (bytes ++ rest)
    rw [write_blob, List.append_assoc]
    simp only [blob, hlength, ok_bind, takeBytes_append]
  write_of_read {bytes a rest} h := by
    obtain ⟨⟨length, left⟩, hread, hnext⟩ := exists_of_bind_ok h
    obtain ⟨hn, rfl⟩ := number_ok hread
    obtain ⟨rfl, rfl⟩ := takeBytes_ok hnext
    exact ⟨hn, by rw [write_blob, List.append_assoc]⟩

/-- A digest is written exactly: no other length than its own is taken for it. -/
theorem exact_digest : digest.Exact fun _ => True where
  read_write d _ rest := by
    have hlt : digestSize < 256 ^ 8 := by decide
    have hlength := read_number 8 hlt (d.bytes ++ rest)
    have hfront : takeBytes .cutDigest digestSize (d.bytes ++ rest) = .ok (d.bytes, rest) :=
      takeBytes_append d.length_bytes rest
    have hdigest : Digest.ofBytes? d.bytes = some d := dif_pos d.length_bytes
    rw [write_digest, List.append_assoc]
    simp only [digest, hlength, ok_bind, hfront, hdigest, pure_eq_ok]
  write_of_read {bytes a rest} h := by
    obtain ⟨⟨length, left⟩, hread, hnext⟩ := exists_of_bind_ok h
    obtain ⟨-, rfl⟩ := number_ok hread
    obtain ⟨⟨front, behind⟩, htake, hlast⟩ := exists_of_bind_ok hnext
    obtain ⟨rfl, rfl⟩ := takeBytes_ok htake
    by_cases hsize : front.length = digestSize
    · simp only [Digest.ofBytes?, dif_pos hsize] at hlast
      obtain ⟨rfl, rfl⟩ := Prod.mk.inj (Except.ok.inj hlast)
      exact ⟨trivial, by simp only [write_digest, hsize, List.append_assoc]⟩
    · simp [Digest.ofBytes?, dif_neg hsize] at hlast

/-- A name from a list without repetitions is written exactly. -/
theorem exact_oneOf [DecidableEq α] {all : List α} (hall : ∀ a, a ∈ all) (hnodup : all.Nodup)
    (hfew : all.length < 256 ^ 4) : (oneOf all).Exact fun _ => True where
  read_write a _ rest := by
    have hlt : all.idxOf a < all.length := List.idxOf_lt_length_of_mem (hall a)
    have hindex := read_number 4 (hlt.trans hfew) rest
    have hname : all[all.idxOf a]? = some a := List.getElem?_idxOf (hall a)
    rw [write_oneOf]
    simp only [oneOf, hindex, ok_bind, hname, pure_eq_ok]
  write_of_read {bytes a rest} h := by
    obtain ⟨⟨index, left⟩, hread, hnext⟩ := exists_of_bind_ok h
    obtain ⟨-, rfl⟩ := number_ok hread
    cases hname : all[index]? with
    | none => simp [hname] at hnext
    | some name =>
      simp only [hname, pure_eq_ok, Except.ok.injEq, Prod.mk.injEq] at hnext
      obtain ⟨rfl, rfl⟩ := hnext
      obtain ⟨hlt, rfl⟩ := List.getElem?_eq_some_iff.mp hname
      have hindex : all.idxOf all[index] = index := hnodup.idxOf_getElem index hlt
      exact ⟨trivial, by rw [write_oneOf, hindex]⟩

namespace Exact

variable {p p' : α → Prop} {q : β → Prop}

/-- What fits can be said in another way. -/
theorem congr {wire : Wire α} (hwire : wire.Exact p) (h : ∀ a, p a ↔ p' a) : wire.Exact p' where
  read_write a ha rest := hwire.read_write a ((h a).mpr ha) rest
  write_of_read hread := (hwire.write_of_read hread).imp_left (h _).mp

/-- Two values one after the other are written exactly if each is. -/
theorem pair {first : Wire α} {second : Wire β} (hfirst : first.Exact p)
    (hsecond : second.Exact q) : (first.pair second).Exact fun ab => p ab.1 ∧ q ab.2 where
  read_write := by
    rintro ⟨a, b⟩ ⟨ha, hb⟩ rest
    have hleft := hfirst.read_write a ha (second.write b ++ rest)
    have hright := hsecond.read_write b hb rest
    rw [write_pair, List.append_assoc]
    simp only [Wire.pair, hleft, ok_bind, hright, pure_eq_ok]
  write_of_read {bytes ab rest} h := by
    obtain ⟨⟨a, left⟩, hread, hnext⟩ := exists_of_bind_ok h
    obtain ⟨ha, rfl⟩ := hfirst.write_of_read hread
    obtain ⟨⟨b, behind⟩, hread', hlast⟩ := exists_of_bind_ok hnext
    obtain ⟨hb, rfl⟩ := hsecond.write_of_read hread'
    obtain ⟨rfl, rfl⟩ := Prod.mk.inj (Except.ok.inj hlast)
    exact ⟨⟨ha, hb⟩, by rw [write_pair, List.append_assoc]⟩

/-- One of two alternatives is written exactly if each is. -/
theorem either {left : Wire α} {right : Wire β} (hleft : left.Exact p) (hright : right.Exact q) :
    (left.either right).Exact (Sum.elim p q) where
  read_write ab h rest := by
    cases ab with
    | inl a =>
      have hlt : 0 < 256 ^ 4 := by decide
      have hindex := read_number 4 hlt (left.write a ++ rest)
      have hvalue := hleft.read_write a h rest
      rw [write_inl, List.append_assoc]
      simp only [Wire.either, hindex, ok_bind, hvalue, pure_eq_ok, Prod.map_apply, id]
    | inr b =>
      have hlt : 1 < 256 ^ 4 := by decide
      have hindex := read_number 4 hlt (right.write b ++ rest)
      have hvalue := hright.read_write b h rest
      rw [write_inr, List.append_assoc]
      simp only [Wire.either, hindex, ok_bind, hvalue, pure_eq_ok, Prod.map_apply, id]
  write_of_read {bytes ab rest} h := by
    obtain ⟨⟨index, behind⟩, hread, hnext⟩ := exists_of_bind_ok h
    obtain ⟨-, rfl⟩ := number_ok hread
    simp only at hnext
    split at hnext
    · obtain ⟨⟨a, after⟩, hvalue, hlast⟩ := exists_of_bind_ok hnext
      obtain ⟨ha, rfl⟩ := hleft.write_of_read hvalue
      obtain ⟨rfl, rfl⟩ := Prod.mk.inj (Except.ok.inj hlast)
      exact ⟨ha, by rw [write_inl, List.append_assoc, id]⟩
    · obtain ⟨⟨b, after⟩, hvalue, hlast⟩ := exists_of_bind_ok hnext
      obtain ⟨hb, rfl⟩ := hright.write_of_read hvalue
      obtain ⟨rfl, rfl⟩ := Prod.mk.inj (Except.ok.inj hlast)
      exact ⟨hb, by rw [write_inr, List.append_assoc, id]⟩
    · cases hnext

/-- A format stays exact for values that correspond one to one to its own. -/
theorem via {inner : Wire α} (hinner : inner.Exact p) {toOuter : α → β} {toInner : β → α}
    (hback : ∀ a, toInner (toOuter a) = a) (hforth : ∀ b, toOuter (toInner b) = b) :
    (inner.via toOuter toInner).Exact fun b => p (toInner b) where
  read_write b h rest := by
    have hread := hinner.read_write (toInner b) h rest
    rw [write_via]
    simp only [Wire.via, hread, ok_bind, pure_eq_ok, Prod.map_apply, id, hforth]
  write_of_read {bytes b rest} h := by
    obtain ⟨⟨a, left⟩, hread, hnext⟩ := exists_of_bind_ok h
    obtain ⟨ha, rfl⟩ := hinner.write_of_read hread
    obtain ⟨rfl, rfl⟩ := Prod.mk.inj (Except.ok.inj hnext)
    rw [hback]
    exact ⟨ha, by rw [write_via, hback, id]⟩

end Exact

end BlockIntake.Wire
