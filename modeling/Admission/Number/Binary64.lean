/-!
# Binary floating-point numbers of 64 bits

A number is its bit pattern: a sign, an exponent field of 11 bits and a fraction of 52. A pattern
whose exponent field is not full is finite and stands for `± significand · 2 ^ scale`; the least
scale is `-1074`, so every finite value is a whole number of units of `2 ^ -1074`. Two patterns
are the same number of this library when their bits agree; `compare?` and `equal` go by value.
-/

namespace Admission.Number

-- Powers are those of the core library, also where another instance is in sight.
attribute [local instance (high)] instPowNat

/-- A 64-bit floating-point number, by its bits. -/
structure Binary64 where
  /-- Sign, exponent field and fraction, from the top. -/
  bits : UInt64
deriving DecidableEq, Repr

namespace Binary64

/-! ## The fields -/

/-- The bits below the sign; they order the numbers of one sign by size. -/
def magnitude (x : Binary64) : Nat :=
  x.bits.toNat % 2 ^ (63 : Nat)

/-- Whether the sign bit is set. -/
def isNegative (x : Binary64) : Bool :=
  2 ^ (63 : Nat) ≤ x.bits.toNat

/-- The magnitude bits of infinity: a full exponent field and no fraction. -/
def infinity : Nat :=
  2047 * 2 ^ (52 : Nat)

/-- Whether the pattern stands for a number of finite size. -/
def isFinite (x : Binary64) : Bool :=
  x.magnitude < infinity

/-- Whether the pattern stands for no number at all. -/
def isNaN (x : Binary64) : Bool :=
  infinity < x.magnitude

/-- Whether the number is zero, of either sign. -/
def isZero (x : Binary64) : Bool :=
  x.magnitude = 0

/-- The number with this sign and these magnitude bits. -/
def ofMagnitude (negative : Bool) (magnitude : Nat) : Binary64 :=
  ⟨UInt64.ofNat ((if negative then 2 ^ (63 : Nat) else 0) + magnitude)⟩

/-- The exponent field. -/
def exponentField (x : Binary64) : Nat :=
  x.magnitude / 2 ^ (52 : Nat)

/-- The whole number that the fraction, with the leading bit of a normal number, writes. -/
def significand (x : Binary64) : Nat :=
  if x.exponentField = 0 then x.magnitude
  else 2 ^ (52 : Nat) + x.magnitude % 2 ^ (52 : Nat)

/-- The power of two that the significand counts, raised by 1074. -/
def raisedScale (x : Binary64) : Nat :=
  x.exponentField - 1

/-- The size of a finite number in units of `2 ^ -1074`. -/
def units (x : Binary64) : Nat :=
  x.significand * 2 ^ x.raisedScale

/-! ## Comparison by value -/

/-- The place of a number in the order of values; both zeros share one place. -/
def place (x : Binary64) : Int :=
  if x.isNegative then -(x.magnitude : Int) else x.magnitude

/-- The order of two numbers; none if one of them is no number. -/
def compare? (x y : Binary64) : Option Ordering :=
  if x.isNaN || y.isNaN then none else some (compare x.place y.place)

/-- Whether two numbers have the same value; no number that is none equals anything. -/
def equal (x y : Binary64) : Bool :=
  compare? x y == some .eq

/-! ## The fields pin the number down -/

/-- The sign and the magnitude bits are all there is to a number. -/
theorem ofMagnitude_magnitude (x : Binary64) : ofMagnitude x.isNegative x.magnitude = x := by
  have bound := x.bits.toNat_lt
  have total : (if x.isNegative then 2 ^ (63 : Nat) else 0) + x.magnitude = x.bits.toNat := by
    simp only [isNegative, magnitude, decide_eq_true_eq]
    split <;> omega
  rw [ofMagnitude, total, UInt64.ofNat_toNat]

/-- The magnitude bits that a number is made from are read back. -/
theorem magnitude_ofMagnitude (negative : Bool) {m : Nat} (small : m < 2 ^ (63 : Nat)) :
    (ofMagnitude negative m).magnitude = m := by
  cases negative <;>
    simp only [ofMagnitude, magnitude, UInt64.toNat_ofNat'] <;> simp <;> omega

/-- The sign that a number is made from is read back. -/
theorem isNegative_ofMagnitude (negative : Bool) {m : Nat} (small : m < 2 ^ (63 : Nat)) :
    (ofMagnitude negative m).isNegative = negative := by
  cases negative <;> simp only [ofMagnitude, isNegative, UInt64.toNat_ofNat'] <;> simp <;> omega

/-- A number equals itself by value unless it is no number. -/
theorem equal_self (x : Binary64) : equal x x = !x.isNaN := by
  cases h : x.isNaN <;> simp [equal, compare?, h]

end Binary64

end Admission.Number
