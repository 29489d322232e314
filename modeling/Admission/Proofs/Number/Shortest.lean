import Admission.Proofs.Number.Rounding

/-!
# The shortest decimal reads back

A decimal with exactly the value of a finite number is read as that number
(`magnitude_of_value_eq`): the number's own significand comes out of the rounding unrounded. What
`shortest` gives was either tried on a grid or is the number written out in full, so it is read as
the number in any case (`magnitude_shortest`).
-/

namespace Admission.Number

namespace Binary64

/-! ## The parts of a finite number -/

/-- The value of a finite number without its sign. -/
def size (x : Binary64) : ℚ :=
  (x.fraction.1 : ℚ) / x.fraction.2

lemma fraction_den_pos (x : Binary64) : 0 < x.fraction.2 := by
  dsimp only [fraction]
  positivity

lemma cast_fraction_den (x : Binary64) : (x.fraction.2 : ℚ) = 2 ^ (1074 : ℤ) := by
  dsimp only [fraction]
  simp only [Nat.cast_pow, Nat.cast_ofNat, zpow_ofNat]

/-- Above the least scale the significand has its leading bit, so it has 53 bits. -/
lemma significand_bounds (x : Binary64) :
    x.significand < 2 ^ 53 ∧ (x.raisedScale = 0 ∨ 2 ^ 52 ≤ x.significand) := by
  unfold significand raisedScale
  by_cases hfield : x.exponentField = 0
  · rw [if_pos hfield, hfield]
    rw [exponentField] at hfield
    exact ⟨by omega, .inl rfl⟩
  · rw [if_neg hfield]
    omega

/-- Scale and significand make up the magnitude bits. -/
lemma raisedScale_significand (x : Binary64) :
    x.raisedScale * 2 ^ 52 + x.significand = x.magnitude := by
  unfold significand raisedScale
  by_cases hfield : x.exponentField = 0
  · rw [if_pos hfield, hfield]
    omega
  · rw [if_neg hfield]
    rw [exponentField] at hfield ⊢
    omega

lemma significand_pos {x : Binary64} (hx : x.isZero = false) : 0 < x.significand := by
  have hmagnitude : x.magnitude ≠ 0 := by simpa [isZero] using hx
  have hsum := raisedScale_significand x
  obtain ⟨-, hscale | hbits⟩ := significand_bounds x
  · rw [hscale] at hsum
    omega
  · omega

lemma units_pos {x : Binary64} (hx : x.isZero = false) : 0 < x.fraction.1 :=
  Nat.mul_pos (significand_pos hx) (Nat.two_pow_pos _)

/-- The units as significand and scale, divided by the units of one. -/
lemma size_eq (x : Binary64) :
    x.size = x.significand * 2 ^ ((x.raisedScale : ℤ) - 1074) := by
  rw [size, cast_fraction_den, zpow_sub₀ (by norm_num), zpow_natCast, fraction, units,
    Nat.cast_mul, Nat.cast_pow, Nat.cast_ofNat, mul_div_assoc]

/-! ## Rounding the exact value -/

/-- The leading bit of a number stands 52 places above its scale, or the scale is the least. -/
lemma scale_eq {x : Binary64} (hx : x.isZero = false) :
    max (binaryPower x.fraction.1 x.fraction.2 - 52) (-1074) = (x.raisedScale : ℤ) - 1074 := by
  have hpos : (x.significand : ℚ) ≠ 0 := by exact_mod_cast (significand_pos hx).ne'
  obtain ⟨hlt, hscale⟩ := significand_bounds x
  have hlog : binaryPower x.fraction.1 x.fraction.2
      = (Nat.log 2 x.significand : ℤ) + ((x.raisedScale : ℤ) - 1074) := by
    rw [binaryPower_eq_log (units_pos hx) x.fraction_den_pos]
    change Int.log 2 x.size = _
    have htwo : (2 : ℚ) ≠ 0 := by norm_num
    have hpow : (0 : ℚ) < 2 ^ ((x.raisedScale : ℤ) - 1074) := zpow_pos (by norm_num) _
    rw [size_eq]
    refine log_eq_of_bounds (by norm_num) ?_ ?_
    · rw [Nat.cast_ofNat, zpow_add₀ htwo, zpow_natCast]
      refine mul_le_mul_of_nonneg_right ?_ hpow.le
      exact_mod_cast Nat.pow_log_le_self 2 (significand_pos hx).ne'
    · rw [Nat.cast_ofNat, add_right_comm, zpow_add₀ htwo, ← Nat.cast_succ, zpow_natCast]
      refine mul_lt_mul_of_pos_right ?_ hpow
      exact_mod_cast Nat.lt_pow_succ_log_self (by norm_num) x.significand
  have hlogle : Nat.log 2 x.significand ≤ 52 :=
    Nat.lt_succ_iff.mp (Nat.log_lt_of_lt_pow (significand_pos hx).ne' hlt)
  rw [hlog]
  rcases hscale with hleast | hleading
  · rw [hleast]
    omega
  · have hlogge : 52 ≤ Nat.log 2 x.significand :=
      Nat.le_log_of_pow_le (by norm_num) hleading
    omega

/-- Measured in units of its scale, a number is its significand, which needs no rounding. -/
lemma roundHalfEven_scaled (x : Binary64) :
    roundHalfEven
      (inUnitsOf 2 ((x.raisedScale : ℤ) - 1074) x.fraction.1 x.fraction.2).1
      (inUnitsOf 2 ((x.raisedScale : ℤ) - 1074) x.fraction.1 x.fraction.2).2 = x.significand := by
  have hden := inUnitsOf_den_pos (b := 2) (by norm_num) ((x.raisedScale : ℤ) - 1074)
    x.fraction.1 x.fraction_den_pos
  rw [← roundHalfEven_one x.significand]
  refine roundHalfEven_congr hden Nat.one_pos ?_
  rw [inUnitsOf_value (by norm_num)]
  change x.size / _ = _
  rw [size_eq, Nat.cast_ofNat, mul_div_assoc, div_self (zpow_ne_zero _ (by norm_num)), Nat.cast_one,
    div_one, mul_one]

/-- The exact value of a number is rounded to the number. -/
lemma nearestMagnitude_fraction {x : Binary64} (hx : x.isZero = false) :
    nearestMagnitude x.fraction.1 x.fraction.2 = x.magnitude := by
  rw [nearestMagnitude, if_neg (units_pos hx).ne', scale_eq hx]
  change _ * 2 ^ 52 + roundHalfEven _ _ = _
  rw [roundHalfEven_scaled, sub_add_cancel, Int.toNat_natCast, raisedScale_significand]

/-! ## The range of finite numbers -/

/-- The largest finite number lies below `10 ^ 309` and the least above `10 ^ -324`. -/
lemma range_of_decimals : (2 : ℕ) ^ 1024 < 10 ^ 309 ∧ (2 : ℕ) ^ 1074 ≤ 10 ^ 324 := by
  decide +kernel

lemma size_lt {x : Binary64} (hx : x.isFinite = true) : x.size < 10 ^ (309 : ℤ) := by
  have hfield : x.exponentField ≤ 2046 := by
    have hlt : x.magnitude < 2047 * 2 ^ 52 := of_decide_eq_true hx
    rw [exponentField]
    omega
  have hscale : (x.raisedScale : ℤ) - 1074 ≤ 971 := by
    rw [raisedScale]
    omega
  have hbits : (x.significand : ℚ) < 2 ^ 53 := by exact_mod_cast (significand_bounds x).1
  have hpow : (2 : ℚ) ^ ((x.raisedScale : ℤ) - 1074) ≤ 2 ^ (971 : ℤ) :=
    zpow_le_zpow_right₀ (by norm_num) hscale
  calc x.size = x.significand * 2 ^ ((x.raisedScale : ℤ) - 1074) := size_eq x
    _ < 2 ^ 53 * 2 ^ ((x.raisedScale : ℤ) - 1074) :=
        mul_lt_mul_of_pos_right hbits (zpow_pos (by norm_num) _)
    _ ≤ 2 ^ 53 * 2 ^ (971 : ℤ) := mul_le_mul_of_nonneg_left hpow (by positivity)
    _ = 2 ^ 1024 := by
        rw [← zpow_natCast, ← zpow_natCast, ← zpow_add₀ (by norm_num)]
        rfl
    _ < 10 ^ 309 := by exact_mod_cast range_of_decimals.1
    _ = 10 ^ (309 : ℤ) := (zpow_natCast 10 309).symm

lemma le_size {x : Binary64} (hx : x.isZero = false) : (10 : ℚ) ^ (-324 : ℤ) ≤ x.size := by
  have hunits : (1 : ℚ) ≤ x.fraction.1 := by exact_mod_cast units_pos hx
  have hpow : (2 : ℚ) ^ (1074 : ℤ) ≤ 10 ^ (324 : ℤ) := by
    rw [zpow_ofNat, zpow_ofNat]
    exact_mod_cast range_of_decimals.2
  rw [size, cast_fraction_den, zpow_neg, le_div_iff₀ (zpow_pos (by norm_num) _)]
  calc ((10 : ℚ) ^ (324 : ℤ))⁻¹ * 2 ^ (1074 : ℤ) ≤ (10 ^ (324 : ℤ))⁻¹ * 10 ^ (324 : ℤ) :=
        mul_le_mul_of_nonneg_left hpow (inv_nonneg.mpr (zpow_nonneg (by norm_num) _))
    _ = 1 := inv_mul_cancel₀ (zpow_ne_zero _ (by norm_num))
    _ ≤ x.fraction.1 := hunits

/-! ## Decimals that read as a number -/

/-- A decimal with the value of a finite number is read as that number. -/
theorem magnitude_of_value_eq {x : Binary64} {d : Decimal} (hx : x.isFinite = true)
    (hd : d.value = x.size) : d.magnitude = x.magnitude := by
  by_cases hzero : x.isZero = true
  · have hmagnitude : x.magnitude = 0 := by simpa [isZero] using hzero
    have hcoefficient : d.coefficient = 0 := by
      have hsum := raisedScale_significand x
      have hsignificand : x.significand = 0 := by omega
      rw [← Decimal.value_eq_zero_iff, hd, size_eq, hsignificand, Nat.cast_zero, zero_mul]
    rw [Decimal.magnitude, if_pos hcoefficient, hmagnitude]
  · rw [Bool.not_eq_true] at hzero
    have hpos : 0 < x.size := lt_of_lt_of_le (zpow_pos (by norm_num) _) (le_size hzero)
    have hcoefficient : d.coefficient ≠ 0 := by
      rw [Ne, ← Decimal.value_eq_zero_iff, hd]
      exact hpos.ne'
    have hlow : -324 ≤ d.leadingExponent := by
      rw [Decimal.leadingExponent_eq_log hcoefficient, hd]
      refine (Int.zpow_le_iff_le_log (by norm_num) hpos).mp ?_
      rw [Nat.cast_ofNat]
      exact le_size hzero
    have hhigh : d.leadingExponent < 309 := by
      rw [Decimal.leadingExponent_eq_log hcoefficient, hd]
      refine (Int.lt_zpow_iff_log_lt (by norm_num) hpos).mp ?_
      rw [Nat.cast_ofNat]
      exact size_lt hx
    have hnearest : nearestMagnitude d.fraction.1 d.fraction.2
        = nearestMagnitude x.fraction.1 x.fraction.2 := by
      apply nearestMagnitude_congr d.fraction_den_pos x.fraction_den_pos
      rw [Decimal.fraction_value, hd, size]
    rw [Decimal.magnitude, if_neg hcoefficient, if_neg (not_le.mpr hhigh), if_neg (not_lt.mpr hlow),
      hnearest, nearestMagnitude_fraction hzero]

/-- Written out in full, a number has its value. -/
lemma value_exactDecimal (x : Binary64) : x.exactDecimal.value = x.size := by
  have hten : (10 : ℚ) ^ (1074 : ℤ) = 2 ^ (1074 : ℤ) * 5 ^ (1074 : ℤ) := by
    rw [← mul_zpow]
    norm_num only
  have hfive : (5 : ℚ) ^ (1074 : ℤ) ≠ 0 := zpow_ne_zero _ (by norm_num)
  have hcoefficient : (x.exactDecimal.coefficient : ℚ) = x.fraction.1 * 5 ^ (1074 : ℤ) := by
    dsimp only [exactDecimal, fraction]
    simp only [Nat.cast_mul, Nat.cast_pow, Nat.cast_ofNat, zpow_ofNat]
  have hexponent : x.exactDecimal.exponent = -1074 := rfl
  rw [Decimal.value, hcoefficient, hexponent, zpow_neg, hten, ← div_eq_mul_inv,
    mul_div_mul_right _ _ hfive, size, cast_fraction_den]

/-- The shortest decimal of a finite number is read as the number. -/
theorem magnitude_shortest (tie : Tie) {x : Binary64} (hx : x.isFinite = true) :
    (x.shortest tie).magnitude = x.magnitude := by
  by_cases hzero : x.isZero = true
  · have hmagnitude : x.magnitude = 0 := by simpa [isZero] using hzero
    rw [shortest, if_pos hzero, Decimal.magnitude, if_pos rfl, hmagnitude]
  · rw [shortest, if_neg hzero]
    dsimp only
    cases hfound : (List.range 17).findSome? fun (extra : ℕ) =>
        onGrid? tie x (x.decimalPower - extra) with
    | none =>
      rw [Option.getD_none]
      exact magnitude_of_value_eq hx (value_exactDecimal x)
    | some d =>
      obtain ⟨extra, -, hgrid⟩ := List.exists_of_findSome?_eq_some hfound
      rw [Option.getD_some]
      exact beq_iff_eq.mp (reads_of_onGrid? hgrid)

/-- A decimal with the value of the shortest one is read as the number, with the sign. -/
theorem ofDecimal?_of_value {x : Binary64} {tie : Tie} {d : Decimal} (hx : x.isFinite = true)
    (hd : d.value = (x.shortest tie).value) : ofDecimal? x.isNegative d = some x := by
  have hmagnitude : d.magnitude = x.magnitude := by
    rw [Decimal.magnitude_congr hd, magnitude_shortest tie hx]
  have hfinite : x.magnitude < infinity := of_decide_eq_true hx
  rw [ofDecimal?, hmagnitude, if_pos hfinite, ofMagnitude_magnitude]

end Binary64

end Admission.Number
