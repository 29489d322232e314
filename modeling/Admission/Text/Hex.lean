import Admission.Text.Utf8

/-!
# Hexadecimal byte strings

Two digits spell one byte, the high half first. Writing uses lower case; reading takes either
case. A text of odd length is refused before its digits are looked at, and otherwise the first
character that is no digit is named by its byte and offset.
-/

namespace Admission.Text.Hex

/-! ## Writing -/

/-- The two lower-case digits of a byte. -/
def pair (byte : UInt8) : List Char :=
  [Nat.digitChar (byte.toNat / 16), Nat.digitChar (byte.toNat % 16)]

/-- The digits of a byte string, two for each byte. -/
def encode (bytes : List UInt8) : List Char :=
  bytes.flatMap pair

/-! ## Reading -/

/-- Why a text spells no byte string. -/
inductive Fault where
  /-- The text has an odd number of bytes. -/
  | oddLength
  /-- The character that starts with this byte, at this offset, is no digit. -/
  | badDigit (byte : UInt8) (offset : Nat)
deriving DecidableEq, Repr

/-- The value of a digit of either case. -/
def digit? (c : Char) : Option Nat :=
  if '0' ≤ c ∧ c ≤ '9' then some (c.toNat - '0'.toNat)
  else if 'a' ≤ c ∧ c ≤ 'f' then some (c.toNat - 'a'.toNat + 10)
  else if 'A' ≤ c ∧ c ≤ 'F' then some (c.toNat - 'A'.toNat + 10)
  else none

/-- The value of the digit at an offset. -/
def digitAt (offset : Nat) (c : Char) : Except Fault Nat :=
  match digit? c with
  | some value => .ok value
  | none => .error (.badDigit (firstByte c) offset)

/-- Reads digit pairs; the first of them stands at `offset`. All characters before a bad digit
are digits, so each took one byte and the offset counts characters and bytes alike. -/
def decodeFrom (offset : Nat) : List Char → Except Fault (List UInt8)
  | [] => .ok []
  | [last] => do
    let _ ← digitAt offset last
    .error .oddLength
  | high :: low :: rest => do
    let h ← digitAt offset high
    let l ← digitAt (offset + 1) low
    let bytes ← decodeFrom (offset + 2) rest
    .ok (UInt8.ofNat (16 * h + l) :: bytes)

/-- The byte string that a text spells. -/
def decode (text : List Char) : Except Fault (List UInt8) :=
  if byteLength text % 2 = 1 then .error .oddLength else decodeFrom 0 text

/-! ## Digits read back -/

/-- Each of the sixteen written digits reads back as its value. -/
theorem digit?_digitChar {value : Nat} (small : value < 16) :
    digit? (Nat.digitChar value) = some value := by
  revert value
  decide

/-- A byte is its high half times sixteen plus its low half. -/
theorem ofNat_halves (byte : UInt8) :
    UInt8.ofNat (16 * (byte.toNat / 16) + byte.toNat % 16) = byte := by
  rw [Nat.div_add_mod, UInt8.ofNat_toNat]

/-- Digits written for bytes read back as those bytes, at any offset. -/
theorem decodeFrom_encode (bytes : List UInt8) (offset : Nat) :
    decodeFrom offset (encode bytes) = .ok bytes := by
  induction bytes generalizing offset with
  | nil => rfl
  | cons byte rest ih =>
    have high : byte.toNat / 16 < 16 := by have := byte.toNat_lt; omega
    have low : byte.toNat % 16 < 16 := by omega
    have step : encode (byte :: rest)
        = Nat.digitChar (byte.toNat / 16) :: Nat.digitChar (byte.toNat % 16) :: encode rest := rfl
    simp only [step, decodeFrom, digitAt, digit?_digitChar high, digit?_digitChar low, ih]
    exact congrArg (fun b => Except.ok (b :: rest)) (ofNat_halves byte)

end Admission.Text.Hex
