import Admission.Address
import Admission.Crypto.Ecdsa
import Admission.Text.Blank

/-!
# Keys

A client signs with a secret number and is known by the public key that belongs to it: a point of
the curve, written as one byte for the parity of `y` and 32 bytes for `x`. A `VerificationKey` holds
key bytes as they came; whether they are a key is for the `KeyManager` that uses them to say.
-/

namespace Admission

open Admission.Text Admission.Crypto

/-! ## Verification keys -/

/-- The bytes of a key that signatures are checked against. -/
structure VerificationKey where
  bytes : List UInt8
deriving DecidableEq, Repr

namespace VerificationKey

/-- The text after a mark `0x`, if it has one; a capital mark is none. -/
def unmarked : List Char → List Char
  | '0' :: 'x' :: digits => digits
  | text => text

/-- The key that a text spells in hexadecimal digits. -/
def ofText (text : String) : Except DecodingFault VerificationKey :=
  match Hex.decode (unmarked text.toList) with
  | .ok bytes => .ok ⟨bytes⟩
  | .error fault => .error (.keyHex fault)

/-- The digits of a key. -/
def toText (key : VerificationKey) : String :=
  String.ofList (Hex.encode key.bytes)

/-- The text of a key in a diagnostic. -/
def shown (key : VerificationKey) : String :=
  s!"VerificationKey({key.toText})"

/-- The address that a key owns: the last twenty bytes of its digest. -/
def address (key : VerificationKey) : Address :=
  ⟨(Sha256.digest key.bytes).drop 12, by simp⟩

end VerificationKey

/-! ## Public keys as points -/

/-- The 33 bytes of a point that is not infinity. -/
def compressed (point : Nat × Nat) : List UInt8 :=
  (if point.2 % 2 = 1 then 3 else 2) :: Bytes.ofNumber 32 point.1

/-- The point that 33 bytes write. -/
def pointOfBytes? : List UInt8 → Option Secp256k1.Point
  | 2 :: x => Secp256k1.Point.ofX? (Bytes.number x) false
  | 3 :: x => Secp256k1.Point.ofX? (Bytes.number x) true
  | _ => none

/-! ## Secret keys -/

/-- A number of the group other than zero. -/
structure SecretKey where
  number : Nat
  pos : 0 < number
  lt_order : number < Secp256k1.order

namespace SecretKey

/-- A secret key is its number. -/
theorem number_inj {a b : SecretKey} : a.number = b.number ↔ a = b := by
  constructor
  · intro h
    cases a
    cases b
    cases h
    rfl
  · intro h
    rw [h]

instance : DecidableEq SecretKey := fun _ _ =>
  decidable_of_decidable_of_iff number_inj

/-- The secret key that 32 bytes write, if their number is one of the group and not zero. -/
def ofBytes? (bytes : List UInt8) : Option SecretKey :=
  if bytes.length ≠ 32 then none
  else
    let number := Bytes.number bytes
    if h : 0 < number ∧ number < Secp256k1.order then some ⟨number, h.1, h.2⟩ else none

/-- The secret key that bytes write. How many they are is told only where they write none. -/
def ofBytes (bytes : List UInt8) : Except CryptoFault SecretKey :=
  match ofBytes? bytes with
  | some key => .ok key
  | none =>
    if bytes.length ≠ 32 then .error (.secretLength bytes.length) else .error .secretRange

/-- The secret key that a text spells, blanks around it aside. -/
def ofText (text : String) : Except CryptoFault SecretKey :=
  match Hex.decode (trim text.toList) with
  | .ok bytes => ofBytes bytes
  | .error fault => .error (.secretHex fault)

/-- The 64 digits of a secret key. -/
def toText (key : SecretKey) : String :=
  String.ofList (Hex.encode (Bytes.ofNumber 32 key.number))

/-- The point of a secret key. -/
def point (key : SecretKey) : Secp256k1.Point :=
  Secp256k1.Point.generator.times key.number

/-- The key that the signatures of a secret key are checked against. -/
def verificationKey (key : SecretKey) : VerificationKey :=
  ⟨(key.point.affine?.map compressed).getD []⟩

/-- The address of a secret key. -/
def address (key : SecretKey) : Address :=
  key.verificationKey.address

/-- The 64 bytes of the signature of a message. -/
def sign (key : SecretKey) (message : List UInt8) : List UInt8 :=
  (Ecdsa.sign key.number (Sha256.digest message)).bytes

/-- The 64 bytes of the signature of a digest, which must have 32 bytes. -/
def signDigest (key : SecretKey) (digest : List UInt8) : Except CryptoFault (List UInt8) :=
  match Ecdsa.Message.ofDigest? digest with
  | none => .error .messageLength
  | some message => .ok (Ecdsa.sign key.number message.digest).bytes

end SecretKey

/-! ## Checking signatures -/

/-- What checks signatures: it tells whether a signature of a payload fits a key, or that key or
signature cannot be understood. -/
structure KeyManager where
  verify (payload signature : List UInt8) (key : VerificationKey) : Except CryptoFault Bool

/-- Checks the signature of a message. Lengths are judged first, the key's before the signature's,
then the key, the digest and the signature. -/
def checkSignature (payload signature : List UInt8) (key : VerificationKey) :
    Except CryptoFault Bool :=
  if key.bytes.length ≠ 33 then .error (.keyLength key.bytes.length)
  else if signature.length ≠ 64 then .error (.signatureLength signature.length)
  else match pointOfBytes? key.bytes with
    | none => .error .keyMalformed
    | some point => match Ecdsa.Message.ofDigest? (Sha256.digest payload) with
      | none => .error .messageLength
      | some message => match Ecdsa.Signature.ofBytes? signature with
        | none => .error .signatureMalformed
        | some g => .ok (Ecdsa.check (Bytes.number message.digest) g point)

/-- A signature is checked if key and signature can be understood. -/
theorem checkSignature_eq_ok_iff {payload signature : List UInt8} {key : VerificationKey}
    {fits : Bool} :
    checkSignature payload signature key = .ok fits ↔
      key.bytes.length = 33 ∧ signature.length = 64 ∧ ∃ point g,
        pointOfBytes? key.bytes = some point ∧ Ecdsa.Signature.ofBytes? signature = some g ∧
        Ecdsa.check (Bytes.number (Sha256.digest payload)) g point = fits := by
  rw [checkSignature, Ecdsa.Message.ofDigest?_digest]
  by_cases hkey : key.bytes.length = 33
  · by_cases hsignature : signature.length = 64
    · cases pointOfBytes? key.bytes with
      | none => simp [hkey, hsignature]
      | some point => cases Ecdsa.Signature.ofBytes? signature <;> simp [hkey, hsignature]
    · simp [hkey, hsignature]
  · simp [hkey]

/-- The manager of compressed secp256k1 keys and 64-byte signatures of SHA-256 digests. -/
def KeyManager.secp256k1 : KeyManager := ⟨checkSignature⟩

end Admission
