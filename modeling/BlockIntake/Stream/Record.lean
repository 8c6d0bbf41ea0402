import BlockIntake.Stream.Item
import BlockIntake.Stream.Response

/-!
# Written records

Every entity of the stream has a name and a wire format. Reading a record takes a value from the
front of the bytes and ignores what follows it. An item yields its header or its proof only if it
is of the matching kind.
-/

namespace BlockIntake

/-- An entity with a name and a wire format. -/
class Record (α : Type) where
  /-- The name used in messages. -/
  name : String
  /-- The written form. -/
  wire : Wire α

/-- Why a record could not be read. -/
inductive RecordError where
  /-- The bytes do not begin with a written record. -/
  | unreadable (entity : String) (fault : WireFault)
  /-- The item is of another kind. -/
  | unexpectedKind (expected actual : ItemKind)
deriving DecidableEq

/-- The wording of an error. -/
def RecordError.message : RecordError → String
  | .unreadable entity fault =>
    let reason := fault.message
    s!"Failed to decode {entity}: {reason}"
  | .unexpectedKind expected actual =>
    let wanted := expected.name
    let got := actual.name
    s!"Unexpected item kind: expected {wanted}, got {got}"

namespace Record

variable {α : Type} [Record α]

/-- The written form of a record. -/
def encode (a : α) : Bytes := (wire (α := α)).write a

/-- The record at the front of the bytes; bytes after it are ignored. -/
def decode (bytes : Bytes) : Except WireFault α :=
  ((wire (α := α)).read bytes).map (·.1)

/-- Read a record and name the entity in an error. -/
def parse (bytes : Bytes) : Except RecordError α :=
  (decode bytes).mapError (RecordError.unreadable (name α))

end Record

instance : Record ItemKind where
  name := "BlockItemKind"
  wire := Wire.oneOf ItemKind.all

instance : Record EndCode where
  name := "PublishStreamResponseCode"
  wire := Wire.oneOf EndCode.all

instance : Record Item where
  name := "BlockItem"
  wire := (Wire.pair Record.wire Wire.blob).via (fun r => ⟨r.1, r.2⟩) (fun i => (i.kind, i.payload))

instance : Record BlockHeader where
  name := "BlockHeader"
  wire := (Wire.pair Wire.u64 (Wire.pair Wire.digest Wire.u64)).via
    (fun r => ⟨r.1, r.2.1, r.2.2⟩) (fun h => (h.number, h.previousRoot, h.timestamp))

instance : Record BlockProof where
  name := "BlockProof"
  wire := (Wire.pair Wire.u64 (Wire.pair Wire.digest (Wire.pair Wire.digest Wire.blob))).via
    (fun r => ⟨r.1, r.2.1, r.2.2.1, r.2.2.2⟩)
    (fun p => (p.block, p.previousRoot, p.stateRoot, p.signature))

instance : Record Acknowledgement where
  name := "BlockAcknowledgement"
  wire := (Wire.pair Wire.u64 (Wire.pair Wire.digest Wire.flag)).via
    (fun r => ⟨r.1, r.2.1, r.2.2⟩) (fun a => (a.block, a.root, a.alreadyExists))

instance : Record EndOfStream where
  name := "EndOfStream"
  wire := (Wire.pair Wire.u64 Record.wire).via (fun r => ⟨r.1, r.2⟩) (fun e => (e.block, e.code))

instance : Record Response where
  name := "PublishStreamResponse"
  wire := (Wire.either Record.wire Record.wire).via
    (fun | .inl ack => .acknowledged ack | .inr eos => .ended eos)
    (fun | .acknowledged ack => .inl ack | .ended eos => .inr eos)

namespace Item

/-- The item that carries a header. -/
def ofHeader (header : BlockHeader) : Item := ⟨.blockHeader, Record.encode header⟩

/-- The item that carries a proof. -/
def ofProof (proof : BlockProof) : Item := ⟨.blockProof, Record.encode proof⟩

/-- Read the payload of an item that has to be of the expected kind. -/
def payloadAs (α : Type) [Record α] (expected : ItemKind) (item : Item) : Except RecordError α :=
  if item.kind = expected then Record.parse item.payload
  else .error (.unexpectedKind expected item.kind)

/-- The header an item carries. -/
def header (item : Item) : Except RecordError BlockHeader := item.payloadAs BlockHeader .blockHeader

/-- The proof an item carries. -/
def proof (item : Item) : Except RecordError BlockProof := item.payloadAs BlockProof .blockProof

end Item

end BlockIntake
