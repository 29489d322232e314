import Admission.Fault
import Admission.Text.Blank

/-!
# Native amounts

The base currency is counted in wei, without bound. People write it in the display unit of
`10 ^ 18` wei: digits with at most one point and at most eighteen places, zeros past them aside. The
display text has no superfluous zeros, so each amount has one. Both kinds of texts come down to a
whole number, which is read more leniently than either of them is written.
-/

namespace Admission

open Admission.Text

-- Powers are those of the core library, also where another instance is in sight.
attribute [local instance (high)] instPowNat

/-- A number of wei. -/
structure NativeAmount where
  wei : Nat
deriving DecidableEq, Repr

namespace NativeAmount

/-- The places between wei and the display unit. -/
def places : Nat := 18

/-! ## Whole numbers -/

/-- The text after one plus sign, if it has one. -/
def unsigned : List Char → List Char
  | '+' :: text => text
  | text => text

/-- The number that a text writes: digits, of which the first is no underscore, with underscores
between or after them, and possibly a plus sign before. -/
def number? (text : List Char) : Option Nat :=
  let digits := unsigned text
  if digits ≠ [] ∧ digits.head? ≠ some '_' ∧ digits.all (fun c => c.isDigit || c == '_') then
    some (Digits.value (digits.filter (· != '_')))
  else none

/-! ## The display unit -/

/-- The parts before and after the first point. -/
def splitPoint (text : List Char) : List Char × List Char :=
  (text.takeWhile (· != '.'), (text.dropWhile (· != '.')).drop 1)

/-- The digits of the wei of an amount: the whole part, the places that it has, and zeros for those
that it does not have. -/
def filled (whole kept : List Char) : List Char :=
  whole ++ kept ++ List.replicate (places - kept.length) '0'

/-- The amount that a text writes in the display unit. Faults show the text without the blanks
around it. -/
def ofDisplay (text : String) : Except DecodingFault NativeAmount :=
  let shown := trim text.toList
  let whole := (splitPoint shown).1
  let fraction := (splitPoint shown).2
  if whole = [] ∧ fraction = [] then .error (.nativeEmpty (String.ofList shown))
  else if !(Digits.allDigits whole && Digits.allDigits fraction) then
    .error (.nativeShape (String.ofList shown))
  else
    let kept := Digits.trimZeros fraction
    if places < kept.length then .error (.nativePrecision (String.ofList shown))
    else match number? (filled whole kept) with
      | some wei => .ok ⟨wei⟩
      | none => .error (.nativeDigits (String.ofList shown))

/-- The places of a fraction of the display unit, given in wei. -/
def fractionText (wei : Nat) : List Char :=
  let digits := Digits.write wei
  Digits.trimZeros (List.replicate (places - digits.length) '0' ++ digits)

/-- The text of an amount in the display unit. -/
def toDisplay (a : NativeAmount) : String :=
  let whole := Digits.write (a.wei / 10 ^ places)
  let fraction := fractionText (a.wei % 10 ^ places)
  String.ofList (if fraction = [] then whole else whole ++ '.' :: fraction)

/-! ## Wei -/

/-- The amount that a text writes in wei, blanks around it aside. The fault shows these too. -/
def ofWei (text : String) : Except DecodingFault NativeAmount :=
  match number? (trim text.toList) with
  | some wei => .ok ⟨wei⟩
  | none => .error (.wei text)

/-- The text of an amount in wei. -/
def weiText (a : NativeAmount) : String :=
  String.ofList (Digits.write a.wei)

/-- The text of an amount in a diagnostic. -/
def shown (a : NativeAmount) : String :=
  s!"NativeAmount({a.weiText} wei)"

/-- The number of binary digits of an amount. -/
def bitLength (a : NativeAmount) : Nat :=
  if a.wei = 0 then 0 else Nat.log2 a.wei + 1

end NativeAmount

end Admission
