import Admission.Json.Fault
import Admission.Text.Base64
import Admission.Text.Hex

/-!
# Faults of single values

What can be wrong with a text that spells a value (`DecodingFault`), with a value that has no text
(`EncodingFault`), and with keys and signatures (`CryptoFault`). Each constructor is one cause; its
wording is in the `message` function beside it.
-/

namespace Admission

open Admission.Text Admission.Number

/-! ## Texts that spell no value -/

/-- The words for a fault of a hexadecimal text. The byte that is no digit is shown as the
character of that number. -/
def Text.Hex.Fault.message : Hex.Fault → String
  | .oddLength => "Odd number of digits"
  | .badDigit byte offset =>
    s!"Invalid character {Quoted.character (Char.ofNat byte.toNat)} at position {offset}"

/-- The words for a fault of a Base64 text. -/
def Text.Base64.Fault.message : Base64.Fault → String
  | .badByte byte offset => s!"Invalid byte {byte.toNat}, offset {offset}."
  | .sixBitRemainder => "Encoded text cannot have a 6-bit remainder."
  | .badLastSymbol byte offset => s!"Invalid last symbol {byte.toNat}, offset {offset}."
  | .badPadding => "Invalid padding"

/-- Why a text or record spells no value. -/
inductive DecodingFault where
  /-- An address text has this many digits instead of 40. -/
  | addressDigits (count : Nat)
  /-- An address has this many bytes instead of 20. -/
  | addressBytes (count : Nat)
  | addressHex (fault : Hex.Fault)
  /-- A native amount has no digits at all. -/
  | nativeEmpty (shown : String)
  /-- A native amount has something else than digits and one point. -/
  | nativeShape (shown : String)
  /-- A native amount has digits past the smallest unit. -/
  | nativePrecision (shown : String)
  /-- The digits put together for a native amount write no number. -/
  | nativeDigits (shown : String)
  | wei (text : String)
  | unknownType (name : String)
  | keyHex (fault : Hex.Fault)
  | signature (fault : Base64.Fault)
  | bothOperations
  | noOperation
  | bothAmounts
  /-- The fault lies in the named field of a record. -/
  | field (name : String) (fault : DecodingFault)
  | json (fault : Json.Fault)
deriving DecidableEq, Repr

/-- The words for a decoding fault. Malformed JSON has no words beyond its kind. -/
def DecodingFault.message : DecodingFault → String
  | .addressDigits count => s!"Address must be 40 hex digits, got {count}"
  | .addressBytes count => s!"Address must be 20 bytes, got {count}"
  | .addressHex fault => s!"Invalid hex address: {fault.message}"
  | .nativeEmpty shown => s!"Invalid native amount '{shown}'"
  | .nativeShape shown => s!"Native amount must be a non-negative decimal, got '{shown}'"
  | .nativePrecision shown => s!"Native amount '{shown}' has more than 18 decimal places"
  | .nativeDigits shown => s!"Invalid native amount '{shown}'"
  | .wei text => s!"Invalid wei amount '{text}'"
  | .unknownType name => s!"Unknown transaction type '{name}'"
  | .keyHex fault => s!"Invalid hex public key: {fault.message}"
  | .signature fault => s!"signature: invalid Base64: {fault.message}"
  | .bothOperations => "functionSignature and nativeOperation are mutually exclusive"
  | .noOperation => "one of functionSignature or nativeOperation is required"
  | .bothAmounts => "amount and weiAmount are mutually exclusive"
  | .field name fault => s!"{name}: {fault.message}"
  | .json .malformed => "malformed JSON"
  | .json (.mismatch cause) => cause.message

/-! ## Values that have no text -/

/-- Why a value has no written form. -/
inductive EncodingFault where
  /-- An operation without a selector has no place in a payload. -/
  | emptySelector
  /-- A token amount that is not finite has no canonical text. -/
  | unwritable (value : Binary64)
  /-- A token amount that is not finite is no JSON number. -/
  | noNumber (value : Binary64)
deriving DecidableEq, Repr

/-- The words for an encoding fault. -/
def EncodingFault.message : EncodingFault → String
  | .emptySelector => "Empty operation selector cannot be placed in a signing payload"
  | .unwritable value => s!"Token amount {Layout.diagnostic.text value} is not a finite number"
  | .noNumber value => s!"amount: {Layout.diagnostic.text value} cannot be represented in JSON"

/-! ## Keys and signatures -/

/-- What is wrong with a key or a signature. -/
inductive CryptoFault where
  | secretHex (fault : Hex.Fault)
  | secretLength (count : Nat)
  /-- A secret key of 32 bytes is zero or not below the group order. -/
  | secretRange
  | keyLength (count : Nat)
  | signatureLength (count : Nat)
  /-- A public key of 33 bytes is no compressed point of the curve. -/
  | keyMalformed
  /-- What is to be signed or checked has not the 32 bytes of a digest. -/
  | messageLength
  /-- A signature of 64 bytes has a half that is not below the group order. -/
  | signatureMalformed
  /-- A fault reported by a key manager of another kind, in its own words. -/
  | reported (reason : String)
deriving DecidableEq, Repr

/-- The words for a fault of a key or signature. -/
def CryptoFault.message : CryptoFault → String
  | .secretHex fault => s!"Invalid hex secret key: {fault.message}"
  | .secretLength count => s!"Secret key must be 32 bytes, got {count}"
  | .secretRange => "Invalid secret key bytes: malformed or out-of-range secret key"
  | .keyLength count => s!"Public key must be exactly 33 bytes (compressed), got {count}"
  | .signatureLength count => s!"Signature must be exactly 64 bytes (compact), got {count}"
  | .keyMalformed => "Invalid public key: malformed public key"
  | .messageLength =>
    "Failed to create message: message was not 32 bytes (do you need to hash?)"
  | .signatureMalformed => "Invalid signature: malformed signature"
  | .reported reason => reason

end Admission
