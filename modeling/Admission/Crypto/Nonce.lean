import Admission.Bytes
import Admission.Crypto.Sha256

/-!
# Keyed hashes and nonces

A signature needs a number that nobody can guess and that is never used for two messages. It is
drawn from a generator that is seeded with the secret key and the digest of the message and that is
stirred by HMAC-SHA-256, so the same message always gets the same number.
-/

namespace Admission.Crypto

/-! ## HMAC -/

/-- The key filled with zeros to one block of 64 bytes; a longer key is hashed first. -/
def hmacKey (key : List UInt8) : List UInt8 :=
  let short := if 64 < key.length then Sha256.digest key else key
  short ++ List.replicate (64 - short.length) 0

/-- The hash of a message under a key. -/
def hmac (key message : List UInt8) : List UInt8 :=
  let block := hmacKey key
  let inner := Sha256.digest (block.map (· ^^^ 0x36) ++ message)
  Sha256.digest (block.map (· ^^^ 0x5c) ++ inner)

/-! ## The generator -/

namespace Nonce

/-- The generator's secret and its running value. -/
structure Generator where
  key : List UInt8
  value : List UInt8

/-- Stirs in a mark byte and, possibly, a seed. -/
def Generator.stir (g : Generator) (mark : UInt8) (seed : List UInt8) : Generator :=
  let key := hmac g.key (g.value ++ mark :: seed)
  ⟨key, hmac key g.value⟩

/-- The generator of a seed. -/
def seeded (seed : List UInt8) : Generator :=
  let blank : Generator := ⟨List.replicate 32 0, List.replicate 32 1⟩
  (blank.stir 0 seed).stir 1 seed

/-- The result of the first of at most `tries` drawn numbers that `attempt` accepts. -/
def first? {α : Type} (attempt : Nat → Option α) : Nat → Generator → Option α
  | 0, _ => none
  | tries + 1, g =>
    let drawn := hmac g.key g.value
    match attempt (Bytes.number drawn) with
    | some result => some result
    | none => first? attempt tries (Generator.stir ⟨g.key, drawn⟩ 0 [])

end Nonce

end Admission.Crypto
