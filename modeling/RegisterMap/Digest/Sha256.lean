import RegisterMap.Text.Numeral

/-!
# SHA-256

The hash function of FIPS 180-4 with a 256-bit digest. A message is padded to whole blocks of 64
bytes, and each block is folded into a state of eight 32-bit words.

## Conventions

Numbers in messages, schedules and digests are big-endian. Sums of words wrap.
-/

namespace RegisterMap.Sha256

/-- The **chaining state**. -/
structure State where
  a : UInt32
  b : UInt32
  c : UInt32
  d : UInt32
  e : UInt32
  f : UInt32
  g : UInt32
  h : UInt32
deriving Repr, DecidableEq

/-- The state before the first block. -/
def initial : State :=
  ⟨0x6a09e667, 0xbb67ae85, 0x3c6ef372, 0xa54ff53a, 0x510e527f, 0x9b05688c, 0x1f83d9ab, 0x5be0cd19⟩

/-- The constants of the sixty-four rounds. -/
def roundConstants : List UInt32 :=
  [0x428a2f98, 0x71374491, 0xb5c0fbcf, 0xe9b5dba5, 0x3956c25b, 0x59f111f1, 0x923f82a4, 0xab1c5ed5,
    0xd807aa98, 0x12835b01, 0x243185be, 0x550c7dc3, 0x72be5d74, 0x80deb1fe, 0x9bdc06a7, 0xc19bf174,
    0xe49b69c1, 0xefbe4786, 0x0fc19dc6, 0x240ca1cc, 0x2de92c6f, 0x4a7484aa, 0x5cb0a9dc, 0x76f988da,
    0x983e5152, 0xa831c66d, 0xb00327c8, 0xbf597fc7, 0xc6e00bf3, 0xd5a79147, 0x06ca6351, 0x14292967,
    0x27b70a85, 0x2e1b2138, 0x4d2c6dfc, 0x53380d13, 0x650a7354, 0x766a0abb, 0x81c2c92e, 0x92722c85,
    0xa2bfe8a1, 0xa81a664b, 0xc24b8b70, 0xc76c51a3, 0xd192e819, 0xd6990624, 0xf40e3585, 0x106aa070,
    0x19a4c116, 0x1e376c08, 0x2748774c, 0x34b0bcb5, 0x391c0cb3, 0x4ed8aa4a, 0x5b9cca4f, 0x682e6ff3,
    0x748f82ee, 0x78a5636f, 0x84c87814, 0x8cc70208, 0x90befffa, 0xa4506ceb, 0xbef9a3f7, 0xc67178f2]

/-- Rotate a word towards its low end. -/
def rotate (x n : UInt32) : UInt32 := (x >>> n) ||| (x <<< (32 - n))

/-! ### Padding -/

/-- The last eight bytes of a padded message: its length in bits. -/
def lengthBytes (bits : UInt64) : List UInt8 :=
  ([56, 48, 40, 32, 24, 16, 8, 0] : List UInt64).map fun shift => (bits >>> shift).toUInt8

/-- The zero bytes that a message of `size` bytes needs before its length. -/
def paddingZeros (size : Nat) : Nat := (119 - size % 64) % 64

/-- The message, a one bit, zeros, and the length of the message. -/
def pad (message : ByteArray) : ByteArray :=
  let tail := 0x80 :: List.replicate (paddingZeros message.size) 0 ++
    lengthBytes (.ofNat (8 * message.size))
  tail.foldl ByteArray.push message

/-! ### Compression -/

/-- The big-endian word that starts at byte `i`. -/
def wordAt (bytes : ByteArray) (i : Nat) : UInt32 :=
  let byte (k : Nat) : UInt32 := ((bytes[i + k]?).getD 0).toUInt32
  byte 0 <<< 24 ||| byte 1 <<< 16 ||| byte 2 <<< 8 ||| byte 3

/-- Add `count` words to a schedule, each made from four earlier ones. -/
def extendSchedule : Nat → Array UInt32 → Array UInt32
  | 0, w => w
  | count + 1, w =>
    let old (back : Nat) : UInt32 := w.getD (w.size - back) 0
    let x := old 15
    let y := old 2
    let s0 := rotate x 7 ^^^ rotate x 18 ^^^ (x >>> 3)
    let s1 := rotate y 17 ^^^ rotate y 19 ^^^ (y >>> 10)
    extendSchedule count (w.push (old 16 + s0 + old 7 + s1))

/-- The **message schedule** of the block that starts at byte `start`. -/
def schedule (bytes : ByteArray) (start : Nat) : Array UInt32 :=
  extendSchedule 48 ((Array.range 16).map fun i => wordAt bytes (start + 4 * i))

/-- One **round** with its constant and its schedule word. -/
def round (s : State) (constant word : UInt32) : State :=
  let s1 := rotate s.e 6 ^^^ rotate s.e 11 ^^^ rotate s.e 25
  let choice := (s.e &&& s.f) ^^^ (~~~s.e &&& s.g)
  let t1 := s.h + s1 + choice + constant + word
  let s0 := rotate s.a 2 ^^^ rotate s.a 13 ^^^ rotate s.a 22
  let majority := (s.a &&& s.b) ^^^ (s.a &&& s.c) ^^^ (s.b &&& s.c)
  ⟨t1 + (s0 + majority), s.a, s.b, s.c, s.d + t1, s.e, s.f, s.g⟩

/-- The rounds with the given constants, the first of which uses schedule word `i`. -/
def rounds (w : Array UInt32) : List UInt32 → Nat → State → State
  | [], _, s => s
  | k :: ks, i, s => rounds w ks (i + 1) (round s k (w.getD i 0))

/-- Fold one block into the state. -/
def compress (s : State) (bytes : ByteArray) (start : Nat) : State :=
  let t := rounds (schedule bytes start) roundConstants 0 s
  ⟨s.a + t.a, s.b + t.b, s.c + t.c, s.d + t.d, s.e + t.e, s.f + t.f, s.g + t.g, s.h + t.h⟩

/-- Fold `count` blocks into the state, from byte `start` on. -/
def compressBlocks (bytes : ByteArray) : Nat → Nat → State → State
  | 0, _, s => s
  | count + 1, start, s => compressBlocks bytes count (start + 64) (compress s bytes start)

/-- The state after the whole message. -/
def digest (message : ByteArray) : State :=
  let padded := pad message
  compressBlocks padded (padded.size / 64) 0 initial

-- The empty message, and one whose padding needs a second block.
example : digest .empty =
    ⟨0xe3b0c442, 0x98fc1c14, 0x9afbf4c8, 0x996fb924, 0x27ae41e4, 0x649b934c, 0xa495991b,
      0x7852b855⟩ := by decide +kernel

example : digest "abcdbcdecdefdefgefghfghighijhijkijkljklmklmnlmnomnopnopq".toUTF8 =
    ⟨0x248d6a61, 0xd20638b8, 0xe5c02693, 0x0c3e6039, 0xa33ce459, 0x64ff2167, 0xf6ecedd4,
      0x19db06c1⟩ := by decide +kernel

/-- The **digest in hexadecimal**, sixty-four small digits. -/
def hexDigest (message : ByteArray) : String :=
  let s := digest message
  String.join ([s.a, s.b, s.c, s.d, s.e, s.f, s.g, s.h].map fun word =>
    Text.padLeft '0' 8 (Text.hexDigits word.toNat))

end RegisterMap.Sha256
