import BlockIntake.Bytes

/-!
# The 64-bit SHA-2 hash functions

SHA-384 and SHA-512 share one compression function on blocks of 128 bytes and differ in the
initial chaining value and in the number of words kept at the end. A message is padded with the
bit one, zeros, and its length in bits as a 128-bit integer, so that it fills whole blocks.
-/

namespace BlockIntake.Sha2

/-- The bytes of one compression block. -/
def blockSize : Nat := 128

/-- The first 64 bits of the fractional parts of the cube roots of the first eighty primes. -/
def roundConstants : Array UInt64 :=
  #[0x428a2f98d728ae22, 0x7137449123ef65cd, 0xb5c0fbcfec4d3b2f, 0xe9b5dba58189dbbc,
    0x3956c25bf348b538, 0x59f111f1b605d019, 0x923f82a4af194f9b, 0xab1c5ed5da6d8118,
    0xd807aa98a3030242, 0x12835b0145706fbe, 0x243185be4ee4b28c, 0x550c7dc3d5ffb4e2,
    0x72be5d74f27b896f, 0x80deb1fe3b1696b1, 0x9bdc06a725c71235, 0xc19bf174cf692694,
    0xe49b69c19ef14ad2, 0xefbe4786384f25e3, 0x0fc19dc68b8cd5b5, 0x240ca1cc77ac9c65,
    0x2de92c6f592b0275, 0x4a7484aa6ea6e483, 0x5cb0a9dcbd41fbd4, 0x76f988da831153b5,
    0x983e5152ee66dfab, 0xa831c66d2db43210, 0xb00327c898fb213f, 0xbf597fc7beef0ee4,
    0xc6e00bf33da88fc2, 0xd5a79147930aa725, 0x06ca6351e003826f, 0x142929670a0e6e70,
    0x27b70a8546d22ffc, 0x2e1b21385c26c926, 0x4d2c6dfc5ac42aed, 0x53380d139d95b3df,
    0x650a73548baf63de, 0x766a0abb3c77b2a8, 0x81c2c92e47edaee6, 0x92722c851482353b,
    0xa2bfe8a14cf10364, 0xa81a664bbc423001, 0xc24b8b70d0f89791, 0xc76c51a30654be30,
    0xd192e819d6ef5218, 0xd69906245565a910, 0xf40e35855771202a, 0x106aa07032bbd1b8,
    0x19a4c116b8d2d0c8, 0x1e376c085141ab53, 0x2748774cdf8eeb99, 0x34b0bcb5e19b48a8,
    0x391c0cb3c5c95a63, 0x4ed8aa4ae3418acb, 0x5b9cca4f7763e373, 0x682e6ff3d6b2b8a3,
    0x748f82ee5defb2fc, 0x78a5636f43172f60, 0x84c87814a1f0ab72, 0x8cc702081a6439ec,
    0x90befffa23631e28, 0xa4506cebde82bde9, 0xbef9a3f7b2c67915, 0xc67178f2e372532b,
    0xca273eceea26619c, 0xd186b8c721c0c207, 0xeada7dd6cde0eb1e, 0xf57d4f7fee6ed178,
    0x06f067aa72176fba, 0x0a637dc5a2c898a6, 0x113f9804bef90dae, 0x1b710b35131c471b,
    0x28db77f523047d84, 0x32caab7b40c72493, 0x3c9ebe0a15c9bebc, 0x431d67c49c100d4c,
    0x4cc5d4becb3e42b6, 0x597f299cfc657e2a, 0x5fcb6fab3ad6faec, 0x6c44198c4a475817]

/-- The eight chaining words, which are also the working variables of a block. -/
structure Chain where
  /-- First word. -/
  a : UInt64
  /-- Second word. -/
  b : UInt64
  /-- Third word. -/
  c : UInt64
  /-- Fourth word. -/
  d : UInt64
  /-- Fifth word. -/
  e : UInt64
  /-- Sixth word. -/
  f : UInt64
  /-- Seventh word. -/
  g : UInt64
  /-- Eighth word. -/
  h : UInt64

/-- The initial chaining value of SHA-512, from the square roots of the first eight primes. -/
def initial512 : Chain :=
  ⟨0x6a09e667f3bcc908, 0xbb67ae8584caa73b, 0x3c6ef372fe94f82b, 0xa54ff53a5f1d36f1,
    0x510e527fade682d1, 0x9b05688c2b3e6c1f, 0x1f83d9abfb41bd6b, 0x5be0cd19137e2179⟩

/-- The initial chaining value of SHA-384, from the square roots of the ninth to the sixteenth
prime. -/
def initial384 : Chain :=
  ⟨0xcbbb9d5dc1059ed8, 0x629a292a367cd507, 0x9159015a3070dd17, 0x152fecd8f70e5939,
    0x67332667ffc00b31, 0x8eb44a8768581511, 0xdb0c2e0d64f98fa7, 0x47b5481dbefa4fa4⟩

/-- Rotate a word to the right by `count` bits, for `0 < count < 64`. -/
@[inline] def rotateRight (w count : UInt64) : UInt64 := (w >>> count) ||| (w <<< (64 - count))

/-- The word whose most significant byte comes first. -/
def word (b0 b1 b2 b3 b4 b5 b6 b7 : UInt8) : UInt64 :=
  (b0.toUInt64 <<< 56) ||| (b1.toUInt64 <<< 48) ||| (b2.toUInt64 <<< 40) |||
    (b3.toUInt64 <<< 32) ||| (b4.toUInt64 <<< 24) ||| (b5.toUInt64 <<< 16) |||
    (b6.toUInt64 <<< 8) ||| b7.toUInt64

/-- The eight bytes of a word, most significant first. -/
def wordBytes (w : UInt64) : Bytes :=
  [(w >>> 56).toUInt8, (w >>> 48).toUInt8, (w >>> 40).toUInt8, (w >>> 32).toUInt8,
    (w >>> 24).toUInt8, (w >>> 16).toUInt8, (w >>> 8).toUInt8, w.toUInt8]

/-- Cut a byte string into words; a rest of fewer than eight bytes is left out. -/
def words : Bytes → List UInt64
  | b0 :: b1 :: b2 :: b3 :: b4 :: b5 :: b6 :: b7 :: rest =>
    word b0 b1 b2 b3 b4 b5 b6 b7 :: words rest
  | _ => []

/-- The eighty schedule words of a block: its own sixteen words, then each word a mixture of four
earlier ones. -/
def schedule (block : Bytes) : Array UInt64 :=
  Nat.fold 64
    (fun i _ w =>
      let w15 := w.getD (i + 1) 0
      let w2 := w.getD (i + 14) 0
      let s0 := rotateRight w15 1 ^^^ rotateRight w15 8 ^^^ (w15 >>> 7)
      let s1 := rotateRight w2 19 ^^^ rotateRight w2 61 ^^^ (w2 >>> 6)
      w.push (w.getD i 0 + s0 + w.getD (i + 9) 0 + s1))
    (words block).toArray

/-- One round: mix a round constant and a schedule word into the working variables. -/
def round (v : Chain) (constant scheduled : UInt64) : Chain :=
  let s1 := rotateRight v.e 14 ^^^ rotateRight v.e 18 ^^^ rotateRight v.e 41
  let choice := (v.e &&& v.f) ^^^ ((~~~v.e) &&& v.g)
  let t1 := v.h + s1 + choice + constant + scheduled
  let s0 := rotateRight v.a 28 ^^^ rotateRight v.a 34 ^^^ rotateRight v.a 39
  let majority := (v.a &&& v.b) ^^^ (v.a &&& v.c) ^^^ (v.b &&& v.c)
  ⟨t1 + (s0 + majority), v.a, v.b, v.c, v.d + t1, v.e, v.f, v.g⟩

/-- Absorb one block into the chaining value. -/
def compress (chain : Chain) (block : Bytes) : Chain :=
  let w := schedule block
  let v := Nat.fold 80 (fun i _ v => round v (roundConstants.getD i 0) (w.getD i 0)) chain
  ⟨chain.a + v.a, chain.b + v.b, chain.c + v.c, chain.d + v.d,
    chain.e + v.e, chain.f + v.f, chain.g + v.g, chain.h + v.h⟩

/-- The padding after a message of `length` bytes: the bit one, zeros up to sixteen bytes before a
block boundary, and the length in bits. -/
def padding (length : Nat) : Bytes :=
  0x80 :: List.replicate ((blockSize - (length + 17) % blockSize) % blockSize) 0 ++
    Bytes.bigEndian 16 (8 * length)

/-- Absorb `count` blocks from the front of a byte string. -/
def absorb : (count : Nat) → Bytes → Chain → Chain
  | 0, _, chain => chain
  | count + 1, bytes, chain =>
    absorb count (bytes.drop blockSize) (compress chain (bytes.take blockSize))

/-- Absorb a whole padded message from the given initial chaining value. -/
def chainOf (initial : Chain) (message : Bytes) : Chain :=
  let padded := message ++ padding message.length
  absorb (padded.length / blockSize) padded initial

/-- SHA-512: all eight words of the final chaining value. -/
def sha512 (message : Bytes) : Bytes :=
  let c := chainOf initial512 message
  wordBytes c.a ++ wordBytes c.b ++ wordBytes c.c ++ wordBytes c.d ++
    wordBytes c.e ++ wordBytes c.f ++ wordBytes c.g ++ wordBytes c.h

/-- SHA-384: the first six words of the final chaining value. -/
def sha384 (message : Bytes) : Bytes :=
  let c := chainOf initial384 message
  wordBytes c.a ++ wordBytes c.b ++ wordBytes c.c ++ wordBytes c.d ++
    wordBytes c.e ++ wordBytes c.f

/-- A word has eight bytes. -/
@[simp] theorem length_wordBytes (w : UInt64) : (wordBytes w).length = 8 := rfl

/-- SHA-384 yields 48 bytes for every message. -/
@[simp] theorem length_sha384 (message : Bytes) : (sha384 message).length = 48 := by
  simp [sha384]

/-- SHA-512 yields 64 bytes for every message. -/
@[simp] theorem length_sha512 (message : Bytes) : (sha512 message).length = 64 := by
  simp [sha512]

end BlockIntake.Sha2
