import Admission.Number.Binary64
import Admission.Text.Digits

/-!
# Decimals and binary numbers

A decimal `coefficient · 10 ^ exponent` is read as the nearest binary number, a tie going to the
even significand; one that rounds past the largest finite number has no reading. In the other
direction `shortest` looks for the fewest digits that read back as the number, taking the nearer
of two candidates. Both work on exact fractions, never on rounded ones.
-/

namespace Admission.Number

-- Powers are those of the core library, also where another instance is in sight.
attribute [local instance (high)] instPowNat

/-- The non-negative decimal `coefficient · 10 ^ exponent`. -/
structure Decimal where
  coefficient : Nat
  exponent : Int
deriving DecidableEq, Repr

/-! ## Rounding a fraction -/

/-- The whole number nearest to `num / den`; a tie goes to the even one. -/
def roundHalfEven (num den : Nat) : Nat :=
  let whole := num / den
  let rest := num % den
  if 2 * rest < den then whole
  else if den < 2 * rest then whole + 1
  else whole + whole % 2

/-- The fraction `num / den` measured in units of `base ^ power`, as a fraction again. -/
def inUnitsOf (base : Nat) (power : Int) (num den : Nat) : Nat × Nat :=
  match power with
  | .ofNat p => (num, den * base ^ p)
  | .negSucc p => (num * base ^ (p + 1), den)

/-- The power of two at or below `num / den`. -/
def binaryPower (num den : Nat) : Int :=
  let guess : Int := Nat.log2 num - Nat.log2 den
  let scaled := inUnitsOf 2 guess num den
  if scaled.2 ≤ scaled.1 then guess else guess - 1

/-- The magnitude bits of the number nearest to `num / den`: 53 significant bits, fewer below the
least normal number. Rounding up to a power of two carries into the exponent field. -/
def nearestMagnitude (num den : Nat) : Nat :=
  if num = 0 then 0
  else
    -- 52 bits stand below the leading one, down to the least scale.
    let scale := max (binaryPower num den - 52) (-1074)
    let scaled := inUnitsOf 2 scale num den
    (scale + 1074).toNat * 2 ^ (52 : Nat) + roundHalfEven scaled.1 scaled.2

namespace Decimal

/-- The decimal as a fraction. -/
def fraction (d : Decimal) : Nat × Nat :=
  match d.exponent with
  | .ofNat e => (d.coefficient * 10 ^ e, 1)
  | .negSucc e => (d.coefficient, 10 ^ (e + 1))

/-- The exponent of the leading digit. -/
def leadingExponent (d : Decimal) : Int :=
  d.exponent + (Text.Digits.write d.coefficient).length - 1

/-- The magnitude bits that a decimal rounds to. Decimals of at least `10 ^ 309` are past the
largest number and those below `10 ^ -324` nearer to zero than to the least, so neither is
expanded. -/
def magnitude (d : Decimal) : Nat :=
  if d.coefficient = 0 then 0
  else if 309 ≤ d.leadingExponent then Binary64.infinity
  else if d.leadingExponent < -324 then 0
  else nearestMagnitude d.fraction.1 d.fraction.2

end Decimal

namespace Binary64

/-- The number nearest to a decimal with a sign; none past the largest finite number. -/
def ofDecimal? (negative : Bool) (d : Decimal) : Option Binary64 :=
  if d.magnitude < infinity then some (ofMagnitude negative d.magnitude) else none

/-- Whether a decimal is read as the size of a number. -/
def reads (x : Binary64) (d : Decimal) : Bool :=
  d.magnitude == x.magnitude

/-! ## The shortest decimal -/

/-- Which of two equally near decimals is taken. -/
inductive Tie where
  /-- The larger. -/
  | up
  /-- The one whose last digit is even. -/
  | even
deriving DecidableEq, Repr

/-- The size of a finite number as a fraction. -/
def fraction (x : Binary64) : Nat × Nat :=
  (x.units, 2 ^ (1074 : Nat))

/-- The size of a finite number written out in full: a unit of `2 ^ -1074` is `5 ^ 1074` units of
`10 ^ -1074`. -/
def exactDecimal (x : Binary64) : Decimal :=
  ⟨x.units * 5 ^ (1074 : Nat), -1074⟩

/-- The power of ten at or below the size of a number that is not zero. -/
def decimalPower (x : Binary64) : Int :=
  x.exactDecimal.leadingExponent

/-- Whether `whole + rest / unit` is taken to the whole number above it. -/
def Tie.takesUpper (tie : Tie) (whole rest unit : Nat) : Bool :=
  if 2 * rest < unit then false
  else if unit < 2 * rest then true
  else match tie with
    | .up => true
    | .even => whole % 2 = 1

/-- The decimal with the given exponent that reads as the number, if one of the two next to it
does: the nearer one, or as `tie` says. -/
def onGrid? (tie : Tie) (x : Binary64) (exponent : Int) : Option Decimal :=
  let scaled := inUnitsOf 10 exponent x.fraction.1 x.fraction.2
  let whole := scaled.1 / scaled.2
  let below : Decimal := ⟨whole, exponent⟩
  let above : Decimal := ⟨whole + 1, exponent⟩
  if x.reads below && !(x.reads above && tie.takesUpper whole (scaled.1 % scaled.2) scaled.2) then
    some below
  else if x.reads above then some above
  else none

/-- The decimal with the fewest digits that reads as the size of a finite number. Seventeen
digits always suffice; the number written out in full stands in for a search that fails. -/
def shortest (tie : Tie) (x : Binary64) : Decimal :=
  if x.isZero then ⟨0, 0⟩
  else
    -- Each further digit refines the grid by a power of ten.
    let top := x.decimalPower
    ((List.range 17).findSome? fun (extra : Nat) => onGrid? tie x (top - extra)).getD x.exactDecimal

/-! ## What is found reads back -/

/-- A decimal found on a grid reads as the number. -/
theorem reads_of_onGrid? {tie : Tie} {x : Binary64} {exponent : Int} {d : Decimal}
    (found : onGrid? tie x exponent = some d) : x.reads d = true := by
  simp only [onGrid?] at found
  split at found
  · rename_i low
    cases found
    exact (Bool.and_eq_true_iff.mp low).1
  · split at found
    · cases found; assumption
    · cases found

end Binary64

end Admission.Number
