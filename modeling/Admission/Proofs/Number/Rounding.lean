import Admission.Number.Decimal
import Admission.Proofs.Text.Digits
import Mathlib.Data.Int.Log

/-!
# Rounding goes by value

A decimal is rounded through fractions, powers of two and digit counts, none of which is fixed by
its value alone. What comes out is: equal fractions are rounded alike (`roundHalfEven_congr`), the
power of two that they are measured in is the logarithm of their value (`binaryPower_eq_log`), and
the leading digit of a decimal stands for the power of ten at or below its value
(`Decimal.leadingExponent_eq_log`). Hence two decimals of one value have the same magnitude bits
(`Decimal.magnitude_congr`).
-/

namespace Admission.Number

/-! ## Powers below a number -/

/-- The power at or below a number is told by the two bounds. -/
lemma log_eq_of_bounds {b : ℕ} (hb : 1 < b) {q : ℚ} {k : ℤ} (hle : (b : ℚ) ^ k ≤ q)
    (hlt : q < (b : ℚ) ^ (k + 1)) : Int.log b q = k := by
  have hpos : 0 < q := lt_of_lt_of_le (zpow_pos (by exact_mod_cast (by omega : 0 < b)) k) hle
  have hlow : k ≤ Int.log b q := (Int.zpow_le_iff_le_log hb hpos).mp hle
  have hhigh : Int.log b q < k + 1 := (Int.lt_zpow_iff_log_lt hb hpos).mp hlt
  omega

/-! ## Fractions -/

/-- Measured in units of a power, a fraction is divided by it. -/
lemma inUnitsOf_value {b : ℕ} (hb : 0 < b) (power : ℤ) (num den : ℕ) :
    ((inUnitsOf b power num den).1 : ℚ) / (inUnitsOf b power num den).2
      = (num : ℚ) / den / (b : ℚ) ^ power := by
  have hne : (b : ℚ) ≠ 0 := by exact_mod_cast hb.ne'
  cases power with
  | ofNat p =>
    simp only [inUnitsOf, Int.ofNat_eq_natCast, zpow_natCast, Nat.cast_mul, Nat.cast_pow]
    rw [div_div]
  | negSucc p =>
    simp only [inUnitsOf, zpow_negSucc, Nat.cast_mul, Nat.cast_pow]
    rw [div_inv_eq_mul, div_mul_eq_mul_div]

lemma inUnitsOf_den_pos {b : ℕ} (hb : 0 < b) (power : ℤ) (num : ℕ) {den : ℕ}
    (hden : 0 < den) : 0 < (inUnitsOf b power num den).2 := by
  cases power with
  | ofNat p => exact Nat.mul_pos hden (Nat.pow_pos hb)
  | negSucc p => exact hden

/-- So many units fit into a fraction as its quotient says. -/
lemma le_quotient_iff {b : ℕ} (hb : 0 < b) (power : ℤ) (num : ℕ) {den : ℕ} (hden : 0 < den)
    (n : ℕ) : n ≤ (inUnitsOf b power num den).1 / (inUnitsOf b power num den).2
      ↔ (n : ℚ) * (b : ℚ) ^ power ≤ (num : ℚ) / den := by
  have hunit : (0 : ℚ) < (b : ℚ) ^ power := zpow_pos (by exact_mod_cast hb) power
  have hpos := inUnitsOf_den_pos hb power num hden
  have hposcast : (0 : ℚ) < (inUnitsOf b power num den).2 := by exact_mod_cast hpos
  rw [Nat.le_div_iff_mul_le hpos, ← le_div_iff₀ hunit, ← inUnitsOf_value hb, le_div_iff₀ hposcast]
  exact_mod_cast Iff.rfl

/-- A fraction may be expanded before it is rounded. -/
lemma roundHalfEven_mul {k : ℕ} (hk : 0 < k) (num den : ℕ) :
    roundHalfEven (k * num) (k * den) = roundHalfEven num den := by
  have hlow : 2 * (k * (num % den)) < k * den ↔ 2 * (num % den) < den := by
    rw [show 2 * (k * (num % den)) = k * (2 * (num % den)) by ring]
    exact Nat.mul_lt_mul_left hk
  have hhigh : k * den < 2 * (k * (num % den)) ↔ den < 2 * (num % den) := by
    rw [show 2 * (k * (num % den)) = k * (2 * (num % den)) by ring]
    exact Nat.mul_lt_mul_left hk
  simp only [roundHalfEven, Nat.mul_div_mul_left _ _ hk, Nat.mul_mod_mul_left, hlow, hhigh]

/-- Equal fractions are rounded alike. -/
lemma roundHalfEven_congr {num den num' den' : ℕ} (hden : 0 < den) (hden' : 0 < den')
    (h : (num : ℚ) / den = (num' : ℚ) / den') :
    roundHalfEven num den = roundHalfEven num' den' := by
  have hcross : num * den' = num' * den := by
    rw [div_eq_div_iff (by exact_mod_cast hden.ne') (by exact_mod_cast hden'.ne')] at h
    exact_mod_cast h
  calc roundHalfEven num den = roundHalfEven (den' * num) (den' * den) :=
        (roundHalfEven_mul hden' num den).symm
    _ = roundHalfEven (den * num') (den * den') := by
        rw [Nat.mul_comm den' num, hcross, Nat.mul_comm num' den, Nat.mul_comm den' den]
    _ = roundHalfEven num' den' := roundHalfEven_mul hden num' den'

/-- A whole number needs no rounding. -/
lemma roundHalfEven_one (n : ℕ) : roundHalfEven n 1 = n := by
  simp [roundHalfEven, Nat.mod_one]

/-! ## The nearest number -/

/-- The quotient of the leading powers is off by less than a factor of two either way. -/
lemma bounds_of_log2 {num den : ℕ} (hnum : 0 < num) (hden : 0 < den) :
    (2 : ℚ) ^ ((num.log2 : ℤ) - den.log2 - 1) ≤ (num : ℚ) / den ∧
      (num : ℚ) / den < 2 ^ ((num.log2 : ℤ) - den.log2 + 1) := by
  have htwo : (2 : ℚ) ≠ 0 := by norm_num
  have hnumlow : (2 : ℚ) ^ (num.log2 : ℤ) ≤ num := by
    rw [zpow_natCast]
    exact_mod_cast Nat.log2_self_le hnum.ne'
  have hnumhigh : (num : ℚ) < 2 ^ ((num.log2 : ℤ) + 1) := by
    rw [← Nat.cast_succ, zpow_natCast]
    exact_mod_cast Nat.lt_log2_self
  have hdenlow : (2 : ℚ) ^ (den.log2 : ℤ) ≤ den := by
    rw [zpow_natCast]
    exact_mod_cast Nat.log2_self_le hden.ne'
  have hdenhigh : (den : ℚ) < 2 ^ ((den.log2 : ℤ) + 1) := by
    rw [← Nat.cast_succ, zpow_natCast]
    exact_mod_cast Nat.lt_log2_self
  have hdenpos : (0 : ℚ) < den := by exact_mod_cast hden
  constructor
  · rw [le_div_iff₀ hdenpos]
    calc (2 : ℚ) ^ ((num.log2 : ℤ) - den.log2 - 1) * den
        ≤ 2 ^ ((num.log2 : ℤ) - den.log2 - 1) * 2 ^ ((den.log2 : ℤ) + 1) :=
          mul_le_mul_of_nonneg_left hdenhigh.le (zpow_nonneg (by norm_num) _)
      _ = 2 ^ (num.log2 : ℤ) := by
          rw [← zpow_add₀ htwo]
          congr 1
          omega
      _ ≤ num := hnumlow
  · rw [div_lt_iff₀ hdenpos]
    calc (num : ℚ) < 2 ^ ((num.log2 : ℤ) + 1) := hnumhigh
      _ = 2 ^ ((num.log2 : ℤ) - den.log2 + 1) * 2 ^ (den.log2 : ℤ) := by
          rw [← zpow_add₀ htwo]
          congr 1
          omega
      _ ≤ 2 ^ ((num.log2 : ℤ) - den.log2 + 1) * den :=
          mul_le_mul_of_nonneg_left hdenlow (zpow_nonneg (by norm_num) _)

/-- The power of two is the one at or below the value of the fraction. -/
lemma binaryPower_eq_log {num den : ℕ} (hnum : 0 < num) (hden : 0 < den) :
    binaryPower num den = Int.log 2 ((num : ℚ) / den) := by
  obtain ⟨hlow, hhigh⟩ := bounds_of_log2 hnum hden
  rw [binaryPower]
  generalize (num.log2 : ℤ) - den.log2 = guess at hlow hhigh ⊢
  have htest := le_quotient_iff (b := 2) (by norm_num) guess num hden 1
  rw [Nat.one_le_div_iff (inUnitsOf_den_pos (by norm_num) guess num hden), Nat.cast_one, one_mul,
    Nat.cast_ofNat] at htest
  symm
  by_cases hfits : (inUnitsOf 2 guess num den).2 ≤ (inUnitsOf 2 guess num den).1
  · rw [if_pos hfits]
    refine log_eq_of_bounds (by norm_num) ?_ ?_
    · rw [Nat.cast_ofNat]
      exact htest.mp hfits
    · rw [Nat.cast_ofNat]
      exact hhigh
  · rw [if_neg hfits]
    refine log_eq_of_bounds (by norm_num) ?_ ?_
    · rw [Nat.cast_ofNat]
      exact hlow
    · rw [Nat.cast_ofNat, sub_add_cancel]
      exact not_le.mp fun h => hfits (htest.mpr h)

/-- Equal fractions have the same nearest number. -/
lemma nearestMagnitude_congr {num den num' den' : ℕ} (hden : 0 < den) (hden' : 0 < den')
    (h : (num : ℚ) / den = (num' : ℚ) / den') :
    nearestMagnitude num den = nearestMagnitude num' den' := by
  have hzero : num = 0 ↔ num' = 0 := by
    have hq : (num : ℚ) / den = 0 ↔ (num' : ℚ) / den' = 0 := by rw [h]
    simpa [hden.ne', hden'.ne'] using hq
  by_cases hnum : num = 0
  · rw [nearestMagnitude, nearestMagnitude, if_pos hnum, if_pos (hzero.mp hnum)]
  · have hnum' : num' ≠ 0 := fun hn => hnum (hzero.mpr hn)
    have hpower : binaryPower num den = binaryPower num' den' := by
      rw [binaryPower_eq_log (Nat.pos_of_ne_zero hnum) hden,
        binaryPower_eq_log (Nat.pos_of_ne_zero hnum') hden', h]
    rw [nearestMagnitude, nearestMagnitude, if_neg hnum, if_neg hnum', hpower]
    refine congrArg (_ + ·) (roundHalfEven_congr ?_ ?_ ?_)
    · exact inUnitsOf_den_pos (by norm_num) _ _ hden
    · exact inUnitsOf_den_pos (by norm_num) _ _ hden'
    · rw [inUnitsOf_value (by norm_num), inUnitsOf_value (by norm_num), h]

/-! ## Decimals by value -/

namespace Decimal

/-- The value of a decimal. -/
def value (d : Decimal) : ℚ :=
  d.coefficient * 10 ^ d.exponent

lemma fraction_den_pos (d : Decimal) : 0 < d.fraction.2 := by
  unfold fraction
  split
  · exact Nat.one_pos
  · exact Nat.pow_pos (by norm_num)

lemma fraction_value (d : Decimal) : (d.fraction.1 : ℚ) / d.fraction.2 = d.value := by
  unfold fraction value
  split
  · rename_i e he
    rw [he]
    simp
  · rename_i e he
    rw [he, zpow_negSucc]
    simp [div_eq_mul_inv]

lemma value_eq_zero_iff (d : Decimal) : d.value = 0 ↔ d.coefficient = 0 := by
  have hpow : (10 : ℚ) ^ d.exponent ≠ 0 := zpow_ne_zero _ (by norm_num)
  simp [value, hpow]

/-- The leading digit stands for the power of ten at or below the value. -/
lemma leadingExponent_eq_log {d : Decimal} (hd : d.coefficient ≠ 0) :
    d.leadingExponent = Int.log 10 d.value := by
  have hlength : ((Text.Digits.write d.coefficient).length : ℤ)
      = Nat.log 10 d.coefficient + 1 := by
    exact_mod_cast Text.Digits.length_write hd
  have hten : (10 : ℚ) ≠ 0 := by norm_num
  have hpos : (0 : ℚ) < 10 ^ d.exponent := zpow_pos (by norm_num) _
  have hexponent : d.leadingExponent = Nat.log 10 d.coefficient + d.exponent := by
    rw [leadingExponent, hlength]
    ring
  rw [hexponent]
  symm
  refine log_eq_of_bounds (by norm_num) ?_ ?_
  · have hle : (10 : ℚ) ^ (Nat.log 10 d.coefficient) ≤ d.coefficient := by
      exact_mod_cast Nat.pow_log_le_self 10 hd
    rw [Nat.cast_ofNat, zpow_add₀ hten, zpow_natCast, value]
    exact mul_le_mul_of_nonneg_right hle hpos.le
  · have hlt : (d.coefficient : ℚ) < 10 ^ (Nat.log 10 d.coefficient + 1) := by
      exact_mod_cast Nat.lt_pow_succ_log_self (by norm_num) d.coefficient
    rw [Nat.cast_ofNat, show (Nat.log 10 d.coefficient : ℤ) + d.exponent + 1
      = ((Nat.log 10 d.coefficient + 1 : ℕ) : ℤ) + d.exponent by push_cast; ring,
      zpow_add₀ hten, zpow_natCast, value]
    exact mul_lt_mul_of_pos_right hlt hpos

/-- Decimals of one value round alike. -/
theorem magnitude_congr {d d' : Decimal} (h : d.value = d'.value) :
    d.magnitude = d'.magnitude := by
  have hzero : d.coefficient = 0 ↔ d'.coefficient = 0 := by
    rw [← value_eq_zero_iff, ← value_eq_zero_iff, h]
  by_cases hd : d.coefficient = 0
  · rw [magnitude, magnitude, if_pos hd, if_pos (hzero.mp hd)]
  · have hd' : d'.coefficient ≠ 0 := fun h0 => hd (hzero.mpr h0)
    have hleading : d.leadingExponent = d'.leadingExponent := by
      rw [leadingExponent_eq_log hd, leadingExponent_eq_log hd', h]
    have hnearest : nearestMagnitude d.fraction.1 d.fraction.2
        = nearestMagnitude d'.fraction.1 d'.fraction.2 := by
      apply nearestMagnitude_congr d.fraction_den_pos d'.fraction_den_pos
      rw [fraction_value, fraction_value, h]
    rw [magnitude, magnitude, if_neg hd, if_neg hd', hleading, hnearest]

end Decimal

end Admission.Number
