import Admission.Crypto.Nonce
import Admission.Crypto.Secp256k1

/-!
# Signatures over secp256k1

A signature is a pair of numbers below the group order, written in 32 bytes each. Of the two
values of `s` that would serve, signing takes the lower and checking accepts no other, so a valid
signature has one form. The nonce is drawn from the secret key and the digest.
-/

namespace Admission.Crypto.Ecdsa

open Secp256k1

/-- Two numbers below the group order. -/
structure Signature where
  (r s : Nat)
  r_lt : r < order
  s_lt : s < order
deriving DecidableEq

namespace Signature

/-- The 64 bytes of a signature. -/
def bytes (g : Signature) : List UInt8 :=
  Bytes.ofNumber 32 g.r ++ Bytes.ofNumber 32 g.s

/-- The signature that 64 bytes write, if both numbers are below the order. -/
def ofBytes? (bytes : List UInt8) : Option Signature :=
  let r := Bytes.number (bytes.take 32)
  let s := Bytes.number (bytes.drop 32)
  if h : r < order ∧ s < order then some ⟨r, s, h.1, h.2⟩ else none

/-- A signature has 64 bytes. -/
@[simp] theorem length_bytes (g : Signature) : g.bytes.length = 64 := by
  simp [bytes]

end Signature

/-- What is signed: a digest of 32 bytes. -/
structure Message where
  digest : List UInt8
  length_digest : digest.length = 32

/-- The message of a digest, if it has 32 bytes. -/
def Message.ofDigest? (digest : List UInt8) : Option Message :=
  if h : digest.length = 32 then some ⟨digest, h⟩ else none

/-- What the hash gives is always a message. -/
theorem Message.ofDigest?_digest (payload : List UInt8) :
    ofDigest? (Sha256.digest payload)
      = some ⟨Sha256.digest payload, Sha256.length_digest payload⟩ :=
  dif_pos (Sha256.length_digest payload)

/-- The first coordinate of a point modulo the group order; none for infinity. -/
def coordinate? (p : Point) : Option Nat :=
  p.affine?.map fun point => point.1 % order

/-- Whether a signature fits a digest, given as a number, and a public key. -/
def check (digest : Nat) (g : Signature) (key : Point) : Bool :=
  if g.r = 0 ∨ g.s = 0 ∨ order / 2 < g.s then false
  else
    let w := inverse order g.s
    let base := Point.generator.times (digest * w % order)
    let own := key.times (g.r * w % order)
    coordinate? (base.add own) == some g.r

/-- The signature of a digest with a nonce; none if the nonce is out of range or gives a zero. -/
def signWith? (secret digest nonce : Nat) : Option Signature :=
  if nonce = 0 ∨ order ≤ nonce then none
  else match coordinate? (Point.generator.times nonce) with
    | none => none
    | some r =>
      let s := inverse order nonce * ((digest + r * secret) % order) % order
      if r = 0 ∨ s = 0 then none
      else
        -- `order - s` serves as well as `s`; `order` is odd, so one of them is lower.
        let low := if order / 2 < s then order - s else s
        if h : r < order ∧ low < order then some ⟨r, low, h.1, h.2⟩ else none

/-- The signature of a 32-byte digest under a secret number. A drawn nonce fails with a chance of
about `2 ^ -128`. The two fixed nonces at the end make the search total: `s` is zero for at most one
of them. -/
def sign (secret : Nat) (digest : List UInt8) : Signature :=
  let number := Bytes.number digest % order
  -- The nonce depends on the digest as it is used, reduced to the group.
  let seed := Bytes.ofNumber 32 secret ++ Bytes.ofNumber 32 number
  let attempt := signWith? secret number
  let drawn := Nonce.first? attempt 16 (Nonce.seeded seed)
  (drawn.or ((attempt 1).or (attempt 2))).getD ⟨0, 0, by decide, by decide⟩

end Admission.Crypto.Ecdsa
