import Admission.Number.Layout

/-!
# Numbers of JSON

A numeral is kept as it is written until its value is asked for. One without point and power is a
whole number if it fits 64 bits, unsigned or, after a minus sign, signed; every other numeral is
the nearest binary number, and `-0` is the negative zero. A numeral past the largest finite number
has no value.
-/

namespace Admission.Json

open Admission.Number

-- Powers are those of the core library, also where another instance is in sight.
attribute [local instance (high)] instPowNat

/-- A number as its value is handed on. -/
inductive Number where
  | whole (value : Int)
  | binary (value : Binary64)
deriving DecidableEq, Repr

/-- A numeral as it is written. -/
structure Numeral where
  /-- Whether a minus sign opens it. -/
  negative : Bool
  /-- The digits before the point. -/
  whole : List Char
  /-- The digits after the point; none if there is no point. -/
  fraction : List Char
  /-- The sign and the digits of the power of ten. -/
  power : Option (Bool × List Char)
deriving DecidableEq, Repr

namespace Numeral

/-- The power of ten that is written, zero if there is none. -/
def writtenPower (n : Numeral) : Int :=
  match n.power with
  | none => 0
  | some (negative, digits) =>
    if negative then -(Text.Digits.value digits : Int) else Text.Digits.value digits

/-- The size of the numeral. -/
def size (n : Numeral) : Decimal :=
  ⟨Text.Digits.value (n.whole ++ n.fraction), n.writtenPower - n.fraction.length⟩

/-- The numeral as a binary number. -/
def binary? (n : Numeral) : Option Binary64 :=
  Binary64.ofDecimal? n.negative n.size

/-- The numeral as a whole number, if it is written as one and fits. -/
def whole? (n : Numeral) : Option Int :=
  if n.fraction ≠ [] ∨ n.power ≠ none then none
  else
    let size := Text.Digits.value n.whole
    if n.negative then
      if 0 < size ∧ size ≤ 2 ^ (63 : Nat) then some (-(size : Int)) else none
    else if size < 2 ^ (64 : Nat) then some size
    else none

/-- The value of a numeral. -/
def value? (n : Numeral) : Option Number :=
  match n.whole? with
  | some value => some (.whole value)
  | none => n.binary?.map .binary

end Numeral

/-! ## Writing -/

/-- Powers from `10 ^ -5` up to `10 ^ 16` are written in place; other powers carry a sign, and a
tie goes to the even digit. -/
def numberLayout : Layout := ⟨-5, 16, 'e', true, false, .even⟩

/-- The text of a finite number. -/
def numberText (x : Binary64) : List Char :=
  numberLayout.finiteText x

end Admission.Json
