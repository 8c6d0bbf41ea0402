import BlockIntake.Proofs.Stream.Format
import BlockIntake.Stream.Record

/-!
# Canonical records

Every record has one written form: reading it gives the record back, whatever follows, and nothing
is read that does not begin with the written form of what is read. So the bytes that can be read
are exactly those beginning with a written record, a written record that is cut short is refused,
and no written record begins another. The written forms themselves are laid out field by field:
numbers little-endian in eight bytes, names by their four-byte position, byte strings and digests
after their eight-byte length, truth values in one byte.
-/

namespace BlockIntake

section Layout

/-- A byte string after its length. -/
def Bytes.counted (bytes : Bytes) : Bytes := littleEndian 8 bytes.length ++ bytes

/-- The position of a kind in the written form. -/
def ItemKind.position : ItemKind → Nat
  | blockHeader => 0
  | eventHeader => 1
  | roundHeader => 2
  | eventTransaction => 3
  | transactionResult => 4
  | transactionOutput => 5
  | stateChanges => 6
  | filteredItemHash => 7
  | recordFile => 8
  | blockProof => 9

/-- The position of a code in the written form. -/
def EndCode.position : EndCode → Nat
  | unknown => 0
  | success => 1
  | timeout => 2
  | outOfOrder => 3
  | badStateProof => 4
  | behind => 5
  | internalError => 6
  | persistenceFailed => 7

/-- The bytes of a kind. -/
def ItemKind.layout (kind : ItemKind) : Bytes := Bytes.littleEndian 4 kind.position

/-- The bytes of a code. -/
def EndCode.layout (code : EndCode) : Bytes := Bytes.littleEndian 4 code.position

/-- The bytes of an item. -/
def Item.layout (item : Item) : Bytes := item.kind.layout ++ item.payload.counted

/-- The bytes of a header. -/
def BlockHeader.layout (header : BlockHeader) : Bytes :=
  Bytes.littleEndian 8 header.number.toNat ++ header.previousRoot.bytes.counted ++
    Bytes.littleEndian 8 header.timestamp.toNat

/-- The bytes of a proof. -/
def BlockProof.layout (proof : BlockProof) : Bytes :=
  Bytes.littleEndian 8 proof.block.toNat ++ proof.previousRoot.bytes.counted ++
    proof.stateRoot.bytes.counted ++ proof.signature.counted

/-- The bytes of an acknowledgement. -/
def Acknowledgement.layout (ack : Acknowledgement) : Bytes :=
  Bytes.littleEndian 8 ack.block.toNat ++ ack.root.bytes.counted ++
    [if ack.alreadyExists then 1 else 0]

/-- The bytes of the end of a stream. -/
def EndOfStream.layout (eos : EndOfStream) : Bytes :=
  Bytes.littleEndian 8 eos.block.toNat ++ eos.code.layout

/-- The bytes of a response. -/
def Response.layout : Response → Bytes
  | .acknowledged ack => Bytes.littleEndian 4 0 ++ ack.layout
  | .ended eos => Bytes.littleEndian 4 1 ++ eos.layout

end Layout

/-- Records of a kind have the given layout, and writing and reading the records that fit are
inverse to each other. -/
structure Canonical (α : Type) [Record α] (fits : α → Prop) (layout : α → Bytes) : Prop where
  /-- The written form is laid out as said. -/
  encode_eq : ∀ a : α, Record.encode a = layout a
  /-- A written record is read back, whatever follows it. -/
  decode_encode : ∀ a : α, fits a → ∀ behind, Record.decode (Record.encode a ++ behind) = .ok a
  /-- What is read was written at the front of the bytes. -/
  encode_of_decode : ∀ {bytes} {a : α}, Record.decode bytes = .ok a →
    fits a ∧ Record.encode a <+: bytes
  /-- The bytes that can be read are those that begin with a written record. -/
  accepts : ∀ bytes, (∃ a : α, Record.decode bytes = .ok a) ↔
    ∃ a : α, fits a ∧ Record.encode a <+: bytes
  /-- A written record that is cut short is refused. -/
  refuses_cut : ∀ a : α, fits a → ∀ front, front <+: Record.encode a → front ≠ Record.encode a →
    ∃ fault, Record.decode (α := α) front = .error fault
  /-- Different records have different written forms. -/
  injective : ∀ a b : α, fits a → fits b → Record.encode a = Record.encode b → a = b
  /-- No written record begins another. -/
  prefix_free : ∀ a b : α, fits a → fits b → Record.encode a <+: Record.encode b → a = b

section General

variable {α : Type} [Record α] {fits : α → Prop} {layout : α → Bytes}

/-- A record is read exactly if it was written at the front of the bytes. -/
theorem Record.decode_iff (hexact : (Record.wire (α := α)).Exact fits) {bytes : Bytes} {a : α} :
    Record.decode bytes = .ok a ↔ fits a ∧ Record.encode a <+: bytes := by
  constructor
  · intro h
    rw [Record.decode] at h
    cases hread : (Record.wire (α := α)).read bytes with
    | error fault => simp [hread, Except.map] at h
    | ok parts =>
      obtain ⟨b, rest⟩ := parts
      rw [hread] at h
      obtain rfl : b = a := Except.ok.inj h
      obtain ⟨hfits, rfl⟩ := hexact.write_of_read hread
      exact ⟨hfits, List.prefix_append _ rest⟩
  · rintro ⟨hfits, rest, rfl⟩
    rw [Record.decode, Record.encode, hexact.read_write a hfits rest]
    rfl

/-- Records with an exact format are canonical. -/
theorem Canonical.of_exact (hexact : (Record.wire (α := α)).Exact fits)
    (hlayout : ∀ a : α, Record.encode a = layout a) : Canonical α fits layout := by
  have hself : ∀ a : α, fits a → Record.decode (Record.encode a) = .ok a := fun a ha =>
    (Record.decode_iff hexact).mpr ⟨ha, List.prefix_rfl⟩
  -- What begins with two written records is read as both.
  have hprefix : ∀ a b : α, fits a → fits b → Record.encode a <+: Record.encode b → a = b := by
    intro a b ha hb hab
    have hread : Record.decode (Record.encode b) = .ok a :=
      (Record.decode_iff hexact).mpr ⟨ha, hab⟩
    exact Except.ok.inj (hread.symm.trans (hself b hb))
  exact {
    encode_eq := hlayout
    decode_encode := fun a ha behind =>
      (Record.decode_iff hexact).mpr ⟨ha, List.prefix_append _ behind⟩
    encode_of_decode := (Record.decode_iff hexact).mp
    accepts := fun bytes => exists_congr fun a => Record.decode_iff hexact
    refuses_cut := by
      intro a ha front hfront hne
      cases hread : Record.decode (α := α) front with
      | error fault => exact ⟨fault, rfl⟩
      | ok b =>
        -- The record that is read would be the whole record, and nothing would be cut off.
        obtain ⟨hb, hback⟩ := (Record.decode_iff hexact).mp hread
        obtain rfl := hprefix b a hb ha (hback.trans hfront)
        exact absurd (hfront.eq_of_length_le hback.length_le) hne
    injective := fun a b ha hb hab => hprefix a b ha hb (hab ▸ List.prefix_rfl)
    prefix_free := hprefix }

end General

section Exact

open Wire

/-- Kinds are written exactly. -/
theorem exact_itemKind : (Record.wire (α := ItemKind)).Exact fun _ => True :=
  exact_oneOf ItemKind.mem_all (by decide) (by decide)

/-- Codes are written exactly. -/
theorem exact_endCode : (Record.wire (α := EndCode)).Exact fun _ => True :=
  exact_oneOf EndCode.mem_all (by decide) (by decide)

/-- Items are written exactly if the length of the payload is a 64-bit integer. -/
theorem exact_item : (Record.wire (α := Item)).Exact (·.payload.length < UInt64.size) :=
  ((exact_itemKind.pair exact_blob).via (fun _ => rfl) (fun _ => rfl)).congr fun _ =>
    and_iff_right trivial

/-- Headers are written exactly. -/
theorem exact_blockHeader : (Record.wire (α := BlockHeader)).Exact fun _ => True :=
  ((exact_u64.pair (exact_digest.pair exact_u64)).via (fun _ => rfl) (fun _ => rfl)).congr fun _ =>
    by simp only [and_self]

/-- Proofs are written exactly if the length of the signature is a 64-bit integer. -/
theorem exact_blockProof :
    (Record.wire (α := BlockProof)).Exact (·.signature.length < UInt64.size) :=
  ((exact_u64.pair (exact_digest.pair (exact_digest.pair exact_blob))).via (fun _ => rfl)
    (fun _ => rfl)).congr fun _ => by simp only [true_and]; rfl

/-- Acknowledgements are written exactly. -/
theorem exact_acknowledgement : (Record.wire (α := Acknowledgement)).Exact fun _ => True :=
  ((exact_u64.pair (exact_digest.pair exact_flag)).via (fun _ => rfl) (fun _ => rfl)).congr fun _ =>
    by simp only [and_self]

/-- Ends of streams are written exactly. -/
theorem exact_endOfStream : (Record.wire (α := EndOfStream)).Exact fun _ => True :=
  ((exact_u64.pair exact_endCode).via (fun _ => rfl) (fun _ => rfl)).congr fun _ =>
    by simp only [and_self]

/-- Responses are written exactly. -/
theorem exact_response : (Record.wire (α := Response)).Exact fun _ => True :=
  ((exact_acknowledgement.either exact_endOfStream).via (by rintro (_ | _) <;> rfl)
    (by rintro (_ | _) <;> rfl)).congr (by rintro (_ | _) <;> exact Iff.rfl)

end Exact

section Encode

/-- A digest is laid out like any byte string. -/
theorem Wire.write_digest_eq_counted (d : Digest) : Wire.digest.write d = d.bytes.counted := by
  rw [Wire.write_digest, Bytes.counted, d.length_bytes]

/-- A kind is written by its position. -/
theorem encode_itemKind (kind : ItemKind) : Record.encode kind = kind.layout := by
  cases kind <;> rfl

/-- A code is written by its position. -/
theorem encode_endCode (code : EndCode) : Record.encode code = code.layout := by
  cases code <;> rfl

/-- An item is written as its kind and its payload. -/
theorem encode_item (item : Item) : Record.encode item = item.layout := by
  rw [Item.layout, ← encode_itemKind]
  rfl

/-- A header is written field by field. -/
theorem encode_blockHeader (header : BlockHeader) : Record.encode header = header.layout := by
  rw [BlockHeader.layout, ← Wire.write_digest_eq_counted, List.append_assoc]
  rfl

/-- A proof is written field by field. -/
theorem encode_blockProof (proof : BlockProof) : Record.encode proof = proof.layout := by
  rw [BlockProof.layout, ← Wire.write_digest_eq_counted, ← Wire.write_digest_eq_counted,
    List.append_assoc, List.append_assoc]
  rfl

/-- An acknowledgement is written field by field. -/
theorem encode_acknowledgement (ack : Acknowledgement) : Record.encode ack = ack.layout := by
  rw [Acknowledgement.layout, ← Wire.write_digest_eq_counted, List.append_assoc]
  rfl

/-- The end of a stream is written field by field. -/
theorem encode_endOfStream (eos : EndOfStream) : Record.encode eos = eos.layout := by
  rw [EndOfStream.layout, ← encode_endCode]
  rfl

/-- A response is written as the alternative it is. -/
theorem encode_response (response : Response) : Record.encode response = response.layout := by
  cases response with
  | acknowledged ack =>
    rw [Response.layout, ← encode_acknowledgement]
    rfl
  | ended eos =>
    rw [Response.layout, ← encode_endOfStream]
    rfl

end Encode

/-- An item gives what its payload begins with if it is of the kind that is asked for. -/
theorem Item.payloadAs_iff {α : Type} [Record α] {fits : α → Prop}
    (hexact : (Record.wire (α := α)).Exact fits) {expected : ItemKind} {item : Item} {a : α} :
    item.payloadAs α expected = .ok a ↔
      item.kind = expected ∧ fits a ∧ Record.encode a <+: item.payload := by
  rw [Item.payloadAs]
  split
  · next hkind =>
    rw [Record.parse, ← Record.decode_iff hexact]
    cases Record.decode (α := α) item.payload <;> simp [Except.mapError, hkind]
  · next hkind => simp [hkind]

/-- The item that carries a header gives it back. -/
theorem Item.header_ofHeader (header : BlockHeader) : (Item.ofHeader header).header = .ok header :=
  (Item.payloadAs_iff exact_blockHeader).mpr ⟨rfl, trivial, List.prefix_rfl⟩

/-- The item that carries a proof gives it back, if its signature is not longer than can be told. -/
theorem Item.proof_ofProof {proof : BlockProof} (short : proof.signature.length < UInt64.size) :
    (Item.ofProof proof).proof = .ok proof :=
  (Item.payloadAs_iff exact_blockProof).mpr ⟨rfl, short, List.prefix_rfl⟩

/-- All eight kinds of records are canonical, and an item gives a header or a proof exactly if it is
of that kind and its payload begins with one. -/
theorem records_canonical :
    Canonical ItemKind (fun _ => True) ItemKind.layout ∧
    Canonical Item (·.payload.length < UInt64.size) Item.layout ∧
    Canonical BlockHeader (fun _ => True) BlockHeader.layout ∧
    Canonical BlockProof (·.signature.length < UInt64.size) BlockProof.layout ∧
    Canonical EndCode (fun _ => True) EndCode.layout ∧
    Canonical Acknowledgement (fun _ => True) Acknowledgement.layout ∧
    Canonical EndOfStream (fun _ => True) EndOfStream.layout ∧
    Canonical Response (fun _ => True) Response.layout ∧
    (∀ (item : Item) (header : BlockHeader), item.header = .ok header ↔
      item.kind = .blockHeader ∧ Record.encode header <+: item.payload) ∧
    (∀ (item : Item) (proof : BlockProof), item.proof = .ok proof ↔
      item.kind = .blockProof ∧ proof.signature.length < UInt64.size ∧
        Record.encode proof <+: item.payload) := by
  refine ⟨.of_exact exact_itemKind encode_itemKind, .of_exact exact_item encode_item,
    .of_exact exact_blockHeader encode_blockHeader, .of_exact exact_blockProof encode_blockProof,
    .of_exact exact_endCode encode_endCode,
    .of_exact exact_acknowledgement encode_acknowledgement,
    .of_exact exact_endOfStream encode_endOfStream, .of_exact exact_response encode_response,
    fun item header => ?_, fun item proof => Item.payloadAs_iff exact_blockProof⟩
  have hheader : item.payloadAs BlockHeader .blockHeader = .ok header ↔
      item.kind = .blockHeader ∧ True ∧ Record.encode header <+: item.payload :=
    Item.payloadAs_iff exact_blockHeader
  rwa [true_and] at hheader

end BlockIntake
