import Admission.Number.Decimal
import Admission.Text.Hex

/-!
# Numerals of configurations

A whole number is written in base ten with an optional sign, or in base two, eight or sixteen after
a mark; it must fit 64 bits with a sign. A numeral with a fraction or a power is a binary number, as
are infinity and the value that is no number. Single underscores may stand between digits.
-/

namespace Admission.Toml

open Admission.Text Admission.Number

-- Powers are those of the core library, also where another instance is in sight.
attribute [local instance (high)] instPowNat

/-! ## Digits -/

/-- Reads the digits of a base that open a text, with underscores between two of them. -/
def splitDigits (isDigit : Char → Bool) : List Char → List Char × List Char
  | '_' :: c :: rest =>
    if isDigit c then
      let (digits, after) := splitDigits isDigit rest
      (c :: digits, after)
    else ([], '_' :: c :: rest)
  | c :: rest =>
    if isDigit c then
      let (digits, after) := splitDigits isDigit rest
      (c :: digits, after)
    else ([], c :: rest)
  | [] => ([], [])

/-- At least one digit; the first is no underscore. -/
def readDigits (isDigit : Char → Bool) : List Char → Option (List Char × List Char)
  | c :: rest =>
    if isDigit c then
      let (digits, after) := splitDigits isDigit rest
      some (c :: digits, after)
    else none
  | [] => none

/-- The sign of a numeral; whether it is a minus sign. -/
def readSign : List Char → Bool × List Char
  | '-' :: rest => (true, rest)
  | '+' :: rest => (false, rest)
  | text => (false, text)

/-- The digits of a whole part in base ten: a zero stands alone. -/
def readWhole : List Char → Option (List Char × List Char)
  | '0' :: rest => some (['0'], rest)
  | text => readDigits Char.isDigit text

/-! ## Whole numbers -/

/-- A whole number, if 64 bits with a sign hold it. -/
def word? (value : Int) : Option Int :=
  if -(2 ^ (63 : Nat)) ≤ value ∧ value < 2 ^ (63 : Nat) then some value else none

/-- The value of a digit in a base up to sixteen. -/
def digitOf? (base : Nat) (c : Char) : Option Nat :=
  match Hex.digit? c with
  | some digit => if digit < base then some digit else none
  | none => none

/-- The number that digits of a base write. -/
def valueIn (base : Nat) (digits : List Char) : Nat :=
  digits.foldl (fun value c => base * value + (digitOf? base c).getD 0) 0

/-- Reads a number after the mark of its base. -/
def readBased (base : Nat) (text : List Char) : Option (Int × List Char) := do
  let (digits, rest) ← readDigits (fun c => (digitOf? base c).isSome) text
  let value ← word? (valueIn base digits)
  some (value, rest)

/-- Reads a number in base ten. -/
def readTens (text : List Char) : Option (Int × List Char) := do
  let (negative, text) := readSign text
  let (digits, rest) ← readWhole text
  let size : Int := Digits.value digits
  let value ← word? (if negative then -size else size)
  some (value, rest)

/-- Reads a whole number. -/
def readInteger : List Char → Option (Int × List Char)
  | '0' :: 'x' :: rest => readBased 16 rest
  | '0' :: 'o' :: rest => readBased 8 rest
  | '0' :: 'b' :: rest => readBased 2 rest
  | text => readTens text

/-! ## Binary numbers -/

/-- The digits after a point, if there is one. -/
def readFraction : List Char → Option (Option (List Char) × List Char)
  | '.' :: rest => (readDigits Char.isDigit rest).map fun (digits, rest) => (some digits, rest)
  | text => some (none, text)

/-- The power of ten after its mark, if there is one. -/
def readPower (text : List Char) : Option (Option Int × List Char) :=
  match text with
  | [] => some (none, [])
  | c :: rest =>
    if c = 'e' ∨ c = 'E' then
      let (negative, rest) := readSign rest
      (readDigits Char.isDigit rest).map fun (digits, rest) =>
        (some (if negative then -(Digits.value digits : Int) else Digits.value digits), rest)
    else some (none, text)

/-- The number of a decimal with a sign. One past the largest finite number is infinite. -/
def roundedTo (negative : Bool) (d : Decimal) : Binary64 :=
  (Binary64.ofDecimal? negative d).getD (.ofMagnitude negative Binary64.infinity)

/-- Reads a number with a fraction, a power or both. One that is not negative must be finite. -/
def readDecimal (text : List Char) : Option (Binary64 × List Char) := do
  let (negative, text) := readSign text
  let (whole, text) ← readWhole text
  let (fraction, text) ← readFraction text
  let (power, text) ← readPower text
  if fraction = none ∧ power = none then none
  else
    let digits := fraction.getD []
    let value := roundedTo negative ⟨Digits.value (whole ++ digits), power.getD 0 - digits.length⟩
    if value.isFinite || negative then some (value, text) else none

/-- Reads infinity or the value that is no number. -/
def readSpecial (text : List Char) : Option (Binary64 × List Char) :=
  let (negative, text) := readSign text
  match text with
  | 'i' :: 'n' :: 'f' :: rest => some (.ofMagnitude negative Binary64.infinity, rest)
  | 'n' :: 'a' :: 'n' :: rest => some (.ofMagnitude negative (Binary64.infinity + 2 ^ (51 : Nat)), rest)
  | _ => none

/-- Reads a binary number. -/
def readFloat (text : List Char) : Option (Binary64 × List Char) :=
  (readDecimal text).or (readSpecial text)

/-! ## Limits -/

/-- A whole number that is read fits 64 bits with a sign. -/
theorem word?_eq_some_iff {value result : Int} :
    word? value = some result ↔
      result = value ∧ -(2 ^ (63 : Nat)) ≤ value ∧ value < 2 ^ (63 : Nat) := by
  unfold word?
  split
  · rename_i fits
    exact ⟨fun h => ⟨(Option.some.inj h).symm, fits⟩, fun h => congrArg some h.1.symm⟩
  · rename_i outside
    exact ⟨fun h => by simp at h, fun h => absurd h.2 outside⟩

end Admission.Toml
