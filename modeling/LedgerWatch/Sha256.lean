import LedgerWatch.Bytes

/-!
# SHA-256

The 256-bit hash of the second SHA family. A message is padded to whole blocks of 64 bytes, each
block is expanded to 64 words, and 64 rounds mix those words into eight chaining words.

## Main definitions

- `Sha256.pad`: the padded message
- `Sha256.compress`: one block absorbed into the chaining words
- `sha256`: the hash of a message
- `sha256Pair`: the hash of two hashes written one after the other
- `sha256d`: the hash of the hash, over which proof of work is scored

## Design notes

All loops run over a fixed number of rounds or of blocks, so every definition is structural.
-/

namespace LedgerWatch

namespace Sha256

/-- The eight chaining words. -/
structure Chain where
  a : UInt32
  b : UInt32
  c : UInt32
  d : UInt32
  e : UInt32
  f : UInt32
  g : UInt32
  h : UInt32

/-- The chaining words before the first block: the leading fractional bits of the square roots
of the first eight primes. -/
def initial : Chain :=
  ⟨0x6a09e667, 0xbb67ae85, 0x3c6ef372, 0xa54ff53a, 0x510e527f, 0x9b05688c, 0x1f83d9ab, 0x5be0cd19⟩

/-- The round constants: the leading fractional bits of the cube roots of the first 64 primes. -/
def roundConstants : Array UInt32 := #[
  0x428a2f98, 0x71374491, 0xb5c0fbcf, 0xe9b5dba5, 0x3956c25b, 0x59f111f1, 0x923f82a4, 0xab1c5ed5,
  0xd807aa98, 0x12835b01, 0x243185be, 0x550c7dc3, 0x72be5d74, 0x80deb1fe, 0x9bdc06a7, 0xc19bf174,
  0xe49b69c1, 0xefbe4786, 0x0fc19dc6, 0x240ca1cc, 0x2de92c6f, 0x4a7484aa, 0x5cb0a9dc, 0x76f988da,
  0x983e5152, 0xa831c66d, 0xb00327c8, 0xbf597fc7, 0xc6e00bf3, 0xd5a79147, 0x06ca6351, 0x14292967,
  0x27b70a85, 0x2e1b2138, 0x4d2c6dfc, 0x53380d13, 0x650a7354, 0x766a0abb, 0x81c2c92e, 0x92722c85,
  0xa2bfe8a1, 0xa81a664b, 0xc24b8b70, 0xc76c51a3, 0xd192e819, 0xd6990624, 0xf40e3585, 0x106aa070,
  0x19a4c116, 0x1e376c08, 0x2748774c, 0x34b0bcb5, 0x391c0cb3, 0x4ed8aa4a, 0x5b9cca4f, 0x682e6ff3,
  0x748f82ee, 0x78a5636f, 0x84c87814, 0x8cc70208, 0x90befffa, 0xa4506ceb, 0xbef9a3f7, 0xc67178f2]

/-- Rotation to the right by `n` bits, for `0 < n < 32`. -/
@[inline] def rotateRight (x : UInt32) (n : UInt32) : UInt32 :=
  (x >>> n) ||| (x <<< (32 - n))

/-- The word with the given bytes, highest first. -/
@[inline] def wordOf (b₀ b₁ b₂ b₃ : UInt8) : UInt32 :=
  (b₀.toUInt32 <<< 24) ||| (b₁.toUInt32 <<< 16) ||| (b₂.toUInt32 <<< 8) ||| b₃.toUInt32

/-- The message words of a block, read four bytes at a time, highest byte first. -/
def readWords : Bytes → Array UInt32 → Array UInt32
  | b₀ :: b₁ :: b₂ :: b₃ :: rest, words => readWords rest (words.push (wordOf b₀ b₁ b₂ b₃))
  | _, words => words

/-- Adds `n` words to the message schedule, each from four earlier ones. -/
def extend : Nat → Array UInt32 → Array UInt32
  | 0, w => w
  | n + 1, w =>
    let x := w.getD (w.size - 15) 0
    let y := w.getD (w.size - 2) 0
    let small₀ := rotateRight x 7 ^^^ rotateRight x 18 ^^^ (x >>> 3)
    let small₁ := rotateRight y 17 ^^^ rotateRight y 19 ^^^ (y >>> 10)
    extend n (w.push (w.getD (w.size - 16) 0 + small₀ + w.getD (w.size - 7) 0 + small₁))

/-- The last `n` of the 64 rounds, on the message schedule `w`. -/
def rounds (w : Array UInt32) : Nat →
    UInt32 → UInt32 → UInt32 → UInt32 → UInt32 → UInt32 → UInt32 → UInt32 → Chain
  | 0, a, b, c, d, e, f, g, h => ⟨a, b, c, d, e, f, g, h⟩
  | n + 1, a, b, c, d, e, f, g, h =>
    let round := 63 - n
    let big₁ := rotateRight e 6 ^^^ rotateRight e 11 ^^^ rotateRight e 25
    let choice := (e &&& f) ^^^ ((~~~ e) &&& g)
    let t₁ := h + big₁ + choice + roundConstants.getD round 0 + w.getD round 0
    let big₀ := rotateRight a 2 ^^^ rotateRight a 13 ^^^ rotateRight a 22
    let majority := (a &&& b) ^^^ (a &&& c) ^^^ (b &&& c)
    rounds w n (t₁ + (big₀ + majority)) a b c (d + t₁) e f g

def compress (s : Chain) (block : Bytes) : Chain :=
  let w := extend 48 (readWords block (Array.emptyWithCapacity 64))
  let t := rounds w 64 s.a s.b s.c s.d s.e s.f s.g s.h
  ⟨s.a + t.a, s.b + t.b, s.c + t.c, s.d + t.d, s.e + t.e, s.f + t.f, s.g + t.g, s.h + t.h⟩

/-- Absorbs `n` blocks from the front of a padded message. -/
def absorb : Nat → Bytes → Chain → Chain
  | 0, _, s => s
  | n + 1, message, s => absorb n (message.drop 64) (compress s (message.take 64))

/-- The number of zero bytes between the closing bit and the length. -/
def paddingZeros (length : Nat) : Nat :=
  (119 - length % 64) % 64

/-- The message, a closing bit, the fewest zeros that fill a block, and the length in bits as
eight bytes, highest first. -/
def pad (message : Bytes) : Bytes :=
  let length := message.length
  message ++ 0x80 :: (List.replicate (paddingZeros length) 0 ++ (leBytes 8 (8 * length)).reverse)

/-- The four bytes of a word, highest first. -/
def wordBytes (w : UInt32) : Vector UInt8 4 :=
  #v[(w >>> 24).toUInt8, (w >>> 16).toUInt8, (w >>> 8).toUInt8, w.toUInt8]

def Chain.toHash (s : Chain) : Hash :=
  wordBytes s.a ++ wordBytes s.b ++ wordBytes s.c ++ wordBytes s.d ++
    wordBytes s.e ++ wordBytes s.f ++ wordBytes s.g ++ wordBytes s.h

end Sha256

def sha256 (message : Bytes) : Hash :=
  let padded := Sha256.pad message
  (Sha256.absorb (padded.length / 64) padded Sha256.initial).toHash

/-- The hash of two hashes written one after the other. -/
def sha256Pair (left right : Hash) : Hash :=
  sha256 (left.toList ++ right.toList)

def sha256d (message : Bytes) : Hash :=
  sha256 (sha256 message).toList

end LedgerWatch
