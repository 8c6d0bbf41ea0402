import BlockIntake.Digest

/-!
# Binary record format

A wire format pairs a writer with a reader that returns the bytes it left over. Integers are
little-endian and of fixed width; a byte string follows its length in eight bytes; a digest is a
byte string whose length must be 48; a choice among alternatives is a four-byte index. Formats are
built from smaller ones in field order, and a reader fails with the first fault it meets.
-/

namespace BlockIntake

/-- Why bytes are not the beginning of a written value. -/
inductive WireFault where
  /-- The data end inside a number, a flag, an index, a length or a byte string. -/
  | endOfData
  /-- The data end inside a digest whose length has been read. -/
  | cutDigest
  /-- A digest is announced with a length other than 48. -/
  | digestLength (length : Nat)
  /-- An index names none of the `count` alternatives. -/
  | alternative (index count : Nat)
  /-- A flag is neither zero nor one. -/
  | flag (byte : UInt8)
deriving DecidableEq

/-- The wording of a fault. -/
def WireFault.message : WireFault → String
  | .endOfData => "io error: unexpected end of file"
  | .cutDigest => "io error: "
  | .digestLength length => s!"invalid length {length}, expected an byte array of size 48"
  | .alternative index count =>
    s!"invalid value: integer `{index}`, expected variant index 0 <= i < {count}"
  | .flag byte => s!"invalid u8 while decoding bool, expected 0 or 1, found {byte.toNat}"

/-- A writer of values and a reader of values at the front of a byte string. -/
structure Wire (α : Type) where
  /-- The bytes of a value. -/
  write : α → Bytes
  /-- The value at the front of the bytes, with the bytes after it. -/
  read : Bytes → Except WireFault (α × Bytes)

namespace Wire

variable {α β : Type}

/-- The next `count` bytes and the rest, or `fault` if there are fewer. -/
def takeBytes (fault : WireFault) (count : Nat) (bytes : Bytes) :
    Except WireFault (Bytes × Bytes) :=
  if count ≤ bytes.length then .ok (bytes.take count, bytes.drop count) else .error fault

/-- A number below `256 ^ width`, least significant byte first. -/
def number (width : Nat) : Wire Nat where
  write n := Bytes.littleEndian width n
  read bytes := do
    let (front, rest) ← takeBytes .endOfData width bytes
    return (Bytes.littleEndianValue front, rest)

/-- A 64-bit integer. -/
def u64 : Wire UInt64 where
  write n := (number 8).write n.toNat
  read bytes := do
    let (n, rest) ← (number 8).read bytes
    return (UInt64.ofNat n, rest)

/-- A truth value in one byte. -/
def flag : Wire Bool where
  write b := [if b then 1 else 0]
  read
    | [] => .error .endOfData
    | 0 :: rest => .ok (false, rest)
    | 1 :: rest => .ok (true, rest)
    | byte :: _ => .error (.flag byte)

/-- A byte string after its length. -/
def blob : Wire Bytes where
  write bytes := (number 8).write bytes.length ++ bytes
  read bytes := do
    let (length, rest) ← (number 8).read bytes
    takeBytes .endOfData length rest

/-- A digest after its length, which has to be 48. -/
def digest : Wire Digest where
  write d := (number 8).write digestSize ++ d.bytes
  read bytes := do
    let (length, rest) ← (number 8).read bytes
    let (front, rest) ← takeBytes .cutDigest length rest
    match Digest.ofBytes? front with
    | some d => return (d, rest)
    | none => .error (.digestLength length)

/-- One of finitely many names, written as its four-byte position in the list of all. -/
def oneOf [BEq α] (all : List α) : Wire α where
  write a := (number 4).write (all.idxOf a)
  read bytes := do
    let (index, rest) ← (number 4).read bytes
    match all[index]? with
    | some a => return (a, rest)
    | none => .error (.alternative index all.length)

/-- Two values, one after the other. -/
def pair (first : Wire α) (second : Wire β) : Wire (α × β) where
  write ab := first.write ab.1 ++ second.write ab.2
  read bytes := do
    let (a, rest) ← first.read bytes
    let (b, rest) ← second.read rest
    return ((a, b), rest)

/-- One of two alternatives after its four-byte index. -/
def either (left : Wire α) (right : Wire β) : Wire (α ⊕ β) where
  write
    | .inl a => (number 4).write 0 ++ left.write a
    | .inr b => (number 4).write 1 ++ right.write b
  read bytes := do
    let (index, rest) ← (number 4).read bytes
    match index with
    | 0 => return (← left.read rest).map .inl id
    | 1 => return (← right.read rest).map .inr id
    | _ => .error (.alternative index 2)

/-- A format for values that correspond one to one to values of another format. -/
def via (inner : Wire α) (toOuter : α → β) (toInner : β → α) : Wire β where
  write b := inner.write (toInner b)
  read bytes := return (← inner.read bytes).map toOuter id

end Wire

end BlockIntake
