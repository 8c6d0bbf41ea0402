import BlockIntake.Sha2

/-!
# Digests

A digest is the 48-byte SHA-384 hash of a byte string. Two digests are joined into the digest of
their concatenation, which is how every inner node of a tree and every link of the block hash is
made.
-/

namespace BlockIntake

/-- The bytes of a digest. -/
def digestSize : Nat := 48

/-- A hash of exactly 48 bytes. -/
structure Digest where
  /-- The bytes of the hash. -/
  bytes : Bytes
  /-- A digest has exactly 48 bytes. -/
  length_bytes : bytes.length = digestSize
deriving DecidableEq

namespace Digest

/-- Two digests with the same bytes are equal. -/
@[ext] theorem ext_bytes {l r : Digest} (h : l.bytes = r.bytes) : l = r := by
  cases l; cases r; simp_all

/-- The digest made of the given bytes, if there are 48 of them. -/
def ofBytes? (bytes : Bytes) : Option Digest :=
  if h : bytes.length = digestSize then some ⟨bytes, h⟩ else none

/-- The digest of 48 zero bytes, the previous root of the first block. -/
def zero : Digest := ⟨List.replicate digestSize 0, by simp⟩

/-- The SHA-384 hash of a byte string. -/
def of (message : Bytes) : Digest := ⟨Sha2.sha384 message, by simp [digestSize]⟩

/-- The digest of the concatenation of two digests. -/
def combine (left right : Digest) : Digest := of (left.bytes ++ right.bytes)

/-- The hexadecimal text of a digest. -/
def hex (d : Digest) : String := d.bytes.hex

/-- The hexadecimal text of the first eight bytes of a digest. -/
def short (d : Digest) : String := d.bytes.shortHex

instance : Inhabited Digest := ⟨zero⟩

end Digest

end BlockIntake
