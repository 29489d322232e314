/-!
# Decimal digits

Natural numbers are written in base ten without leading zeros, and a string of digits is read as
the number it writes, leading zeros included.
-/

namespace Admission.Text.Digits

-- Powers are those of the core library, also where another instance is in sight.
attribute [local instance (high)] instPowNat

/-- The digits of a number, without leading zeros. -/
def write (n : Nat) : List Char :=
  Nat.toDigits 10 n

/-- The number that a string of digits writes; zero for the empty string. -/
def value (digits : List Char) : Nat :=
  Nat.ofDigitChars 10 digits 0

/-- Whether a text consists of ASCII digits. -/
def allDigits (text : List Char) : Bool :=
  text.all Char.isDigit

/-- The text without the zeros that close it. -/
def trimZeros (text : List Char) : List Char :=
  (text.reverse.dropWhile (· == '0')).reverse

/-- A number is read back from its digits. -/
@[simp] theorem value_write (n : Nat) : value (write n) = n :=
  Nat.ofDigitChars_ten_toDigits

/-- Only digits are written. -/
theorem allDigits_write (n : Nat) : allDigits (write n) = true := by
  rw [allDigits, List.all_eq_true]
  exact fun c h => Nat.isDigit_of_mem_toDigits (by decide) (by decide) h

/-- Digits that follow shift the number before them. -/
theorem value_append (a b : List Char) :
    value (a ++ b) = 10 ^ b.length * value a + value b := by
  rw [value, Nat.ofDigitChars_append, Nat.ofDigitChars_eq_ofDigitChars_zero]
  rfl

/-- Zeros that follow multiply by powers of ten. -/
theorem value_append_zeros (a : List Char) (n : Nat) :
    value (a ++ List.replicate n '0') = 10 ^ n * value a := by
  rw [value, Nat.ofDigitChars_append, Nat.ofDigitChars_replicate_zero]
  rfl

end Admission.Text.Digits
