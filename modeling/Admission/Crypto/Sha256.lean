/-!
# SHA-256

The message is padded to whole blocks of 64 bytes by the byte `0x80`, zeros and its length in bits.
Each block is expanded to 64 words, and each word drives one round over a state of eight words; the
state before the block is added to the one after it. All sums are modulo `2 ^ 32`.
-/

namespace Admission.Crypto.Sha256

-- Powers are those of the core library, also where another instance is in sight.
attribute [local instance (high)] instPowNat

/-! ## Words -/

/-- The word turned to the right. -/
def turn (n x : UInt32) : UInt32 :=
  (x >>> n) ||| (x <<< (32 - n))

/-- Bit by bit the second word where the first is set and the third elsewhere. -/
def choose (x y z : UInt32) : UInt32 :=
  (x &&& y) ^^^ (~~~x &&& z)

/-- Bit by bit what at least two of the words have. -/
def majority (x y z : UInt32) : UInt32 :=
  (x &&& y) ^^^ (x &&& z) ^^^ (y &&& z)

def bigSigma0 (x : UInt32) : UInt32 := turn 2 x ^^^ turn 13 x ^^^ turn 22 x
def bigSigma1 (x : UInt32) : UInt32 := turn 6 x ^^^ turn 11 x ^^^ turn 25 x
def smallSigma0 (x : UInt32) : UInt32 := turn 7 x ^^^ turn 18 x ^^^ (x >>> 3)
def smallSigma1 (x : UInt32) : UInt32 := turn 17 x ^^^ turn 19 x ^^^ (x >>> 10)

/-- The constant of each round: the first 32 bits of the fractional parts of the cube roots of the
first 64 primes. -/
def roundConstants : List UInt32 := [
  0x428a2f98, 0x71374491, 0xb5c0fbcf, 0xe9b5dba5, 0x3956c25b, 0x59f111f1, 0x923f82a4, 0xab1c5ed5,
  0xd807aa98, 0x12835b01, 0x243185be, 0x550c7dc3, 0x72be5d74, 0x80deb1fe, 0x9bdc06a7, 0xc19bf174,
  0xe49b69c1, 0xefbe4786, 0x0fc19dc6, 0x240ca1cc, 0x2de92c6f, 0x4a7484aa, 0x5cb0a9dc, 0x76f988da,
  0x983e5152, 0xa831c66d, 0xb00327c8, 0xbf597fc7, 0xc6e00bf3, 0xd5a79147, 0x06ca6351, 0x14292967,
  0x27b70a85, 0x2e1b2138, 0x4d2c6dfc, 0x53380d13, 0x650a7354, 0x766a0abb, 0x81c2c92e, 0x92722c85,
  0xa2bfe8a1, 0xa81a664b, 0xc24b8b70, 0xc76c51a3, 0xd192e819, 0xd6990624, 0xf40e3585, 0x106aa070,
  0x19a4c116, 0x1e376c08, 0x2748774c, 0x34b0bcb5, 0x391c0cb3, 0x4ed8aa4a, 0x5b9cca4f, 0x682e6ff3,
  0x748f82ee, 0x78a5636f, 0x84c87814, 0x8cc70208, 0x90befffa, 0xa4506ceb, 0xbef9a3f7, 0xc67178f2]

/-! ## Rounds -/

/-- The eight words that the rounds work on. -/
structure State where
  (a b c d e f g h : UInt32)
deriving DecidableEq, Repr

/-- The first 32 bits of the fractional parts of the square roots of the first eight primes. -/
def initial : State :=
  ⟨0x6a09e667, 0xbb67ae85, 0x3c6ef372, 0xa54ff53a, 0x510e527f, 0x9b05688c, 0x1f83d9ab, 0x5be0cd19⟩

/-- One round with its constant and its word. -/
def round (s : State) (input : UInt32 × UInt32) : State :=
  let t1 := s.h + bigSigma1 s.e + choose s.e s.f s.g + input.1 + input.2
  let t2 := bigSigma0 s.a + majority s.a s.b s.c
  ⟨t1 + t2, s.a, s.b, s.c, s.d + t1, s.e, s.f, s.g⟩

/-- The words that bytes write, four to a word. -/
def words : List UInt8 → List UInt32
  | a :: b :: c :: d :: rest =>
    ((a.toUInt32 <<< 24) ||| (b.toUInt32 <<< 16) ||| (c.toUInt32 <<< 8) ||| d.toUInt32)
      :: words rest
  | _ => []

/-- Puts `count` more words in front of those computed so far, the latest first. -/
def expand : Nat → List UInt32 → List UInt32
  | 0, latest => latest
  | count + 1, latest =>
    let next := smallSigma1 (latest.getD 1 0) + latest.getD 6 0 + smallSigma0 (latest.getD 14 0)
      + latest.getD 15 0
    expand count (next :: latest)

/-- The 64 words of a block. -/
def schedule (block : List UInt8) : List UInt32 :=
  (expand 48 (words block).reverse).reverse

/-- The state after a block. -/
def compress (s : State) (block : List UInt8) : State :=
  let t := (roundConstants.zip (schedule block)).foldl round s
  ⟨s.a + t.a, s.b + t.b, s.c + t.c, s.d + t.d, s.e + t.e, s.f + t.f, s.g + t.g, s.h + t.h⟩

/-! ## Messages -/

/-- The eight bytes of a message's length in bits. -/
def lengthBytes (length : Nat) : List UInt8 :=
  [56, 48, 40, 32, 24, 16, 8, 0].map fun (shift : Nat) => UInt8.ofNat (8 * length / 2 ^ shift)

/-- The message filled up to whole blocks. -/
def pad (message : List UInt8) : List UInt8 :=
  -- The mark and the length take nine bytes; `119` is one block and the 55 bytes left of another.
  message ++ 0x80 :: List.replicate ((119 - message.length % 64) % 64) 0
    ++ lengthBytes message.length

/-- The state after the given number of blocks. -/
def absorb : Nat → State → List UInt8 → State
  | 0, s, _ => s
  | blocks + 1, s, bytes => absorb blocks (compress s (bytes.take 64)) (bytes.drop 64)

/-- The four bytes of a word. -/
def wordBytes (x : UInt32) : List UInt8 :=
  [(x >>> 24).toUInt8, (x >>> 16).toUInt8, (x >>> 8).toUInt8, x.toUInt8]

/-- The 32 bytes of a state. -/
def State.bytes (s : State) : List UInt8 :=
  [s.a, s.b, s.c, s.d, s.e, s.f, s.g, s.h].flatMap wordBytes

/-- The digest of a message. -/
def digest (message : List UInt8) : List UInt8 :=
  let padded := pad message
  (absorb (padded.length / 64) initial padded).bytes

/-! ## Lengths -/

/-- A padded message is a whole number of blocks. -/
theorem length_pad_mod (message : List UInt8) : (pad message).length % 64 = 0 := by
  simp [pad, lengthBytes]
  omega

/-- A digest has 32 bytes. -/
@[simp] theorem length_digest (message : List UInt8) : (digest message).length = 32 := rfl

end Admission.Crypto.Sha256
