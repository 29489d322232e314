import Admission.Number.Decimal

/-!
# Texts of binary numbers

A text of a finite number holds its shortest digits either in place, with a point between whole
part and fraction, or as a mantissa with one digit before the point and a power of ten. A `Layout`
says which powers are written in place and how a power is marked. Texts of zero are `0.0` and
`-0.0` in every layout.
-/

namespace Admission.Number

/-- How the digits of a number are laid out. -/
structure Layout where
  /-- The least power of the leading digit that is written in place. -/
  lowest : Int
  /-- The first power of the leading digit past those written in place. -/
  past : Int
  /-- The mark between mantissa and power. -/
  mark : Char
  /-- Whether a power that is not negative has a sign. -/
  signed : Bool
  /-- Whether a mantissa of one digit has a fraction too. -/
  pointed : Bool
  /-- Which of two equally near shortest decimals is taken. -/
  tie : Binary64.Tie

namespace Layout

/-- The whole part and the fraction of digits whose leading one has the given power, with a point
between them. -/
def inPlace (digits : List Char) (power : Int) : List Char :=
  match power with
  | .ofNat p =>
    let whole := digits.take (p + 1)
    let fraction := digits.drop (p + 1)
    whole ++ List.replicate (p + 1 - whole.length) '0'
      ++ '.' :: (if fraction = [] then ['0'] else fraction)
  | .negSucc p => '0' :: '.' :: List.replicate p '0' ++ digits

/-- A power with its sign. -/
def powerText (signed : Bool) : Int → List Char
  | .ofNat p => (if signed then ['+'] else []) ++ Text.Digits.write p
  | .negSucc p => '-' :: Text.Digits.write (p + 1)

/-- A mantissa with one digit before the point, and the power of that digit. -/
def scientific (l : Layout) (digits : List Char) (power : Int) : List Char :=
  let mantissa := match digits with
    | [] => []
    | [d] => if l.pointed then [d, '.', '0'] else [d]
    | d :: rest => d :: '.' :: rest
  mantissa ++ l.mark :: powerText l.signed power

/-- The text of a size given by its shortest decimal. -/
def decimalText (l : Layout) (d : Decimal) : List Char :=
  if d.coefficient = 0 then ['0', '.', '0']
  else
    -- Zeros that close the digits are told by the power alone.
    let digits := Text.Digits.trimZeros (Text.Digits.write d.coefficient)
    let power := d.leadingExponent
    if l.lowest ≤ power ∧ power < l.past then inPlace digits power else l.scientific digits power

/-- The text of a finite number. -/
def finiteText (l : Layout) (x : Binary64) : List Char :=
  (if x.isNegative then ['-'] else []) ++ l.decimalText (x.shortest l.tie)

/-- The text of any number; infinity and the patterns that are no number have names. -/
def text (l : Layout) (x : Binary64) : String :=
  if x.isNaN then "NaN"
  else if x.isFinite then String.ofList (l.finiteText x)
  else if x.isNegative then "-inf"
  else "inf"

end Layout

/-! ## The layouts in use -/

/-- Diagnostics write `10 ^ -4` up to `10 ^ 16` in place; a tie goes up. -/
def Layout.diagnostic : Layout := ⟨-4, 16, 'e', false, false, .up⟩

end Admission.Number
