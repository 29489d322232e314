import Admission.Text.Utf8

/-!
# Base64

Three bytes are spelled by four symbols of six bits each. A last group of one or two bytes is
padded with `=` to four characters, and the bits of its last symbol that spell no byte are zero.
Reading insists on both, so each byte string has one spelling.
-/

namespace Admission.Text.Base64

/-! ## Symbols -/

/-- The symbol of a six-bit value: capitals, small letters, digits, `+` and `/`. -/
def symbol (value : Nat) : Char :=
  if value < 26 then Char.ofNat ('A'.toNat + value)
  else if value < 52 then Char.ofNat ('a'.toNat + (value - 26))
  else if value < 62 then Char.ofNat ('0'.toNat + (value - 52))
  else if value = 62 then '+'
  else '/'

/-- The six-bit value of a symbol. -/
def value? (c : Char) : Option Nat :=
  if 'A' ≤ c ∧ c ≤ 'Z' then some (c.toNat - 'A'.toNat)
  else if 'a' ≤ c ∧ c ≤ 'z' then some (c.toNat - 'a'.toNat + 26)
  else if '0' ≤ c ∧ c ≤ '9' then some (c.toNat - '0'.toNat + 52)
  else if c = '+' then some 62
  else if c = '/' then some 63
  else none

/-- Each six-bit value is read back from its symbol. -/
theorem value?_symbol {value : Nat} (small : value < 64) : value? (symbol value) = some value := by
  revert value
  decide

/-! ## Writing -/

/-- The padded spelling of a byte string. -/
def encode : List UInt8 → List Char
  | [] => []
  | [a] => [symbol (a.toNat / 4), symbol (a.toNat % 4 * 16), '=', '=']
  | [a, b] =>
    [symbol (a.toNat / 4), symbol (a.toNat % 4 * 16 + b.toNat / 16), symbol (b.toNat % 16 * 4), '=']
  | a :: b :: c :: rest =>
    symbol (a.toNat / 4) :: symbol (a.toNat % 4 * 16 + b.toNat / 16)
      :: symbol (b.toNat % 16 * 4 + c.toNat / 64) :: symbol (c.toNat % 64) :: encode rest

/-! ## Reading -/

/-- Why a text is no padded spelling. -/
inductive Fault where
  /-- A byte that is no symbol, or a padding mark before the end. -/
  | badByte (byte : UInt8) (offset : Nat)
  /-- One symbol is left over, which can spell no byte. -/
  | sixBitRemainder
  /-- The last symbol has bits that spell no byte. -/
  | badLastSymbol (byte : UInt8) (offset : Nat)
  /-- The last group is not filled up to four characters. -/
  | badPadding
deriving DecidableEq, Repr

/-- The value of the symbol at an offset. -/
def valueAt (offset : Nat) (c : Char) : Except Fault Nat :=
  match value? c with
  | some value => .ok value
  | none => .error (.badByte (firstByte c) offset)

/-- The one byte of a last group with two padding marks. -/
def decodeOne (offset : Nat) (a b : Char) : Except Fault (List UInt8) := do
  let x ← valueAt offset a
  let y ← valueAt (offset + 1) b
  if y % 16 = 0 then .ok [UInt8.ofNat (x * 4 + y / 16)]
  else .error (.badLastSymbol (firstByte b) (offset + 1))

/-- The two bytes of a last group with one padding mark. -/
def decodeTwo (offset : Nat) (a b c : Char) : Except Fault (List UInt8) := do
  let x ← valueAt offset a
  let y ← valueAt (offset + 1) b
  let z ← valueAt (offset + 2) c
  if z % 4 = 0 then .ok [UInt8.ofNat (x * 4 + y / 16), UInt8.ofNat (y % 16 * 16 + z / 4)]
  else .error (.badLastSymbol (firstByte c) (offset + 2))

/-- The three bytes of a full group. -/
def decodeThree (offset : Nat) (a b c d : Char) : Except Fault (List UInt8) := do
  let x ← valueAt offset a
  let y ← valueAt (offset + 1) b
  let z ← valueAt (offset + 2) c
  let w ← valueAt (offset + 3) d
  .ok [UInt8.ofNat (x * 4 + y / 16), UInt8.ofNat (y % 16 * 16 + z / 4),
    UInt8.ofNat (z % 4 * 64 + w)]

/-- Reads groups of four; the first stands at `offset`. Padding counts only at the very end:
anywhere else a mark is a byte that is no symbol. -/
def decodeFrom (offset : Nat) : List Char → Except Fault (List UInt8)
  | [] => .ok []
  | [a] => do
    let _ ← valueAt offset a
    .error .badPadding
  | [a, b] => do
    let _ ← valueAt offset a
    let _ ← valueAt (offset + 1) b
    .error .badPadding
  | [a, b, c] => do
    let _ ← valueAt offset a
    let _ ← valueAt (offset + 1) b
    -- A third character may be padding that lacks its second mark.
    let _ ← if c = '=' then .ok 0 else valueAt (offset + 2) c
    .error .badPadding
  | a :: b :: c :: d :: rest =>
    if rest = [] ∧ c = '=' ∧ d = '=' then decodeOne offset a b
    else if rest = [] ∧ d = '=' then decodeTwo offset a b c
    else do
      let bytes ← decodeThree offset a b c d
      let more ← decodeFrom (offset + 4) rest
      .ok (bytes ++ more)

/-- The fault of a text whose byte length leaves one symbol over: its last byte is blamed if it is
neither a symbol nor padding. -/
def remainderFault (bytes : List UInt8) : Fault :=
  match bytes.getLast? with
  | some last =>
    let c := Char.ofNat last.toNat
    if c ≠ '=' ∧ value? c = none then .badByte last (bytes.length - 1) else .sixBitRemainder
  | none => .sixBitRemainder

/-- The byte string that a text spells. -/
def decode (text : List Char) : Except Fault (List UInt8) :=
  if byteLength text % 4 = 1 then .error (remainderFault (utf8 text)) else decodeFrom 0 text

end Admission.Text.Base64
