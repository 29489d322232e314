import Admission.Bytes
import Admission.Fault

/-!
# Addresses

An address is twenty bytes. Its text is `0x` and forty lower-case digits; reading takes either case
and does without the mark, or with `0X`, but strips one mark only.
-/

namespace Admission

open Admission.Text

/-- Twenty bytes that name an account. -/
structure Address where
  bytes : List UInt8
  length_bytes : bytes.length = 20
deriving DecidableEq

namespace Address

/-- The address of these bytes. -/
def ofBytes (bytes : List UInt8) : Except DecodingFault Address :=
  if h : bytes.length = 20 then .ok ⟨bytes, h⟩ else .error (.addressBytes bytes.length)

/-- The text after a mark `0x` or `0X`, if it has one. -/
def unmarked : List Char → List Char
  | '0' :: 'x' :: digits => digits
  | '0' :: 'X' :: digits => digits
  | text => text

/-- The address that a text spells. The length is judged before the digits. -/
def ofText (text : String) : Except DecodingFault Address :=
  let digits := unmarked text.toList
  if byteLength digits ≠ 40 then .error (.addressDigits (byteLength digits))
  else match Hex.decode digits with
    | .ok bytes => ofBytes bytes
    | .error fault => .error (.addressHex fault)

/-- The text of an address. -/
def toText (a : Address) : String :=
  String.ofList ('0' :: 'x' :: Hex.encode a.bytes)

/-- The text of an address in a diagnostic. -/
def shown (a : Address) : String :=
  s!"Address({a.toText})"

/-- The number that the bytes write, the first byte leading; addresses are ordered by it. -/
def number (a : Address) : Nat :=
  Bytes.number a.bytes

/-- The address of no account: all bytes are zero. -/
def zero : Address := ⟨List.replicate 20 0, rfl⟩

/-- Addresses in ascending order. -/
def sort (addresses : List Address) : List Address :=
  addresses.mergeSort fun a b => a.number ≤ b.number

/-- Bytes of the right number are accepted as they are. -/
theorem ofBytes_bytes (a : Address) : ofBytes a.bytes = .ok a := by
  simp [ofBytes, a.length_bytes]

end Address

end Admission
