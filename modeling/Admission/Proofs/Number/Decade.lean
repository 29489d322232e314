import Admission.Proofs.Number.Shortest

/-!
# The decade of the shortest decimal

A layout goes by the leading digit of the shortest decimal. Rounding to fewer digits may carry up to
the next power of ten, but no farther and never below the power of the number itself
(`bounds_shortest`). So the leading digit tells on which side of a power of ten a number lies, if
this power is not rounded down to a smaller number (`leadingExponent_shortest`); among these are the
two powers at which amounts of tokens change their layout (`isThreshold_thousandth`,
`isThreshold_tenMillion`).
-/

namespace Admission.Number.Binary64

variable {x y : Binary64} {power : ℤ}

/-! ## The order of sizes -/

/-- The magnitude bits order the numbers of one sign by size. -/
lemma units_lt_units (h : x.magnitude < y.magnitude) : x.units < y.units := by
  have hx := raisedScale_significand x
  have hy := raisedScale_significand y
  obtain ⟨hxbits, hxleading⟩ := significand_bounds x
  obtain ⟨hybits, hyleading⟩ := significand_bounds y
  unfold units
  by_cases hscale : x.raisedScale = y.raisedScale
  · rw [hscale]
    exact Nat.mul_lt_mul_of_pos_right (by omega) (Nat.two_pow_pos _)
  · have hlt : x.raisedScale + 1 ≤ y.raisedScale := by omega
    calc x.significand * 2 ^ x.raisedScale
        < 2 ^ 53 * 2 ^ x.raisedScale := Nat.mul_lt_mul_of_pos_right hxbits (Nat.two_pow_pos _)
      _ = 2 ^ 52 * 2 ^ (x.raisedScale + 1) := by ring
      _ ≤ 2 ^ 52 * 2 ^ y.raisedScale :=
          Nat.mul_le_mul_left _ (Nat.pow_le_pow_right (by omega) hlt)
      _ ≤ y.significand * 2 ^ y.raisedScale := Nat.mul_le_mul_right _ (by omega)

lemma size_lt_size_iff : x.size < y.size ↔ x.magnitude < y.magnitude := by
  have hunits : x.size < y.size ↔ x.units < y.units := by
    have hpos : (0 : ℚ) < 2 ^ (1074 : ℤ) := by positivity
    rw [size, size, cast_fraction_den, cast_fraction_den, div_lt_div_iff_of_pos_right hpos]
    exact Nat.cast_lt
  rw [hunits]
  constructor
  · intro h
    by_contra hle
    obtain heq | hlt := (Nat.not_lt.mp hle).eq_or_lt
    · have hsame : x.units = y.units := by
        unfold units significand raisedScale exponentField
        rw [heq]
      omega
    · have hgt := units_lt_units hlt
      omega
  · exact units_lt_units

lemma size_le_size_iff : x.size ≤ y.size ↔ x.magnitude ≤ y.magnitude := by
  rw [← not_lt, size_lt_size_iff, not_lt]

/-! ## The decade -/

/-- The power of ten below a number and the next one enclose it. -/
lemma decimalPower_bounds (hx : x.isZero = false) :
    (10 : ℚ) ^ x.decimalPower ≤ x.size ∧ x.size < 10 ^ (x.decimalPower + 1) := by
  have hpos : 0 < x.size := lt_of_lt_of_le (zpow_pos (by norm_num) _) (le_size hx)
  have hpower : x.decimalPower = Int.log 10 x.size := by
    have hcoefficient : x.exactDecimal.coefficient ≠ 0 := by
      rw [Ne, ← Decimal.value_eq_zero_iff, value_exactDecimal]
      exact hpos.ne'
    rw [decimalPower, Decimal.leadingExponent_eq_log hcoefficient, value_exactDecimal]
  have hlow := Int.zpow_log_le_self (b := 10) (by norm_num) hpos
  have hhigh := Int.lt_zpow_succ_log_self (b := 10) (by norm_num) x.size
  rw [Nat.cast_ofNat] at hlow hhigh
  rw [hpower]
  exact ⟨hlow, hhigh⟩

/-- What a grid gives is one of the two points of the grid next to the number. -/
lemma eq_of_onGrid? {tie : Tie} {exponent : ℤ} {d : Decimal}
    (h : onGrid? tie x exponent = some d) :
    let scaled := inUnitsOf 10 exponent x.fraction.1 x.fraction.2
    d = ⟨scaled.1 / scaled.2, exponent⟩ ∨ d = ⟨scaled.1 / scaled.2 + 1, exponent⟩ := by
  simp only [onGrid?] at h
  split at h
  · exact .inl (Option.some.inj h).symm
  · split at h
    · exact .inr (Option.some.inj h).symm
    · cases h

/-- A point of a grid is at most a number if it is at most the point next below the number. -/
lemma mul_le_size_iff (n : ℕ) (exponent : ℤ) :
    (n : ℚ) * 10 ^ exponent ≤ x.size ↔
      n ≤ (inUnitsOf 10 exponent x.fraction.1 x.fraction.2).1
        / (inUnitsOf 10 exponent x.fraction.1 x.fraction.2).2 := by
  have h := le_quotient_iff (b := 10) (by norm_num) exponent x.fraction.1 x.fraction_den_pos n
  rw [Nat.cast_ofNat] at h
  exact h.symm

/-- The power of ten below a number and the next one are points of every grid that is as fine, so
what the grid gives lies between them. -/
lemma bounds_of_onGrid? {tie : Tie} {exponent : ℤ} {d : Decimal} (hx : x.isZero = false)
    (hfine : exponent ≤ x.decimalPower) (h : onGrid? tie x exponent = some d) :
    (10 : ℚ) ^ x.decimalPower ≤ d.value ∧ d.value ≤ 10 ^ (x.decimalPower + 1) := by
  obtain ⟨steps, hsteps⟩ : ∃ steps : ℕ, x.decimalPower = steps + exponent :=
    ⟨(x.decimalPower - exponent).toNat, by omega⟩
  have hpoint : ∀ k : ℕ, (10 : ℚ) ^ (k + exponent) = ((10 ^ k : ℕ) : ℚ) * 10 ^ exponent := by
    intro k
    rw [zpow_add₀ (by norm_num), zpow_natCast, Nat.cast_pow, Nat.cast_ofNat]
  have hnext : x.decimalPower + 1 = (steps + 1 : ℕ) + exponent := by omega
  obtain ⟨hlow, hhigh⟩ := decimalPower_bounds hx
  rw [hsteps, hpoint, mul_le_size_iff] at hlow
  rw [hnext, hpoint, ← not_le, mul_le_size_iff, Nat.not_le] at hhigh
  have hd := eq_of_onGrid? h
  generalize (inUnitsOf 10 exponent x.fraction.1 x.fraction.2) = scaled at hd hlow hhigh
  have hcoefficient : d.exponent = exponent ∧ 10 ^ steps ≤ d.coefficient ∧
      d.coefficient ≤ 10 ^ (steps + 1) := by
    obtain rfl | rfl := hd
    · exact ⟨rfl, hlow, hhigh.le⟩
    · exact ⟨rfl, hlow.trans (Nat.le_succ _), hhigh⟩
  have hunit : (0 : ℚ) < 10 ^ exponent := zpow_pos (by norm_num) _
  rw [hnext, hsteps, hpoint, hpoint, Decimal.value, hcoefficient.1, mul_le_mul_iff_left₀ hunit,
    mul_le_mul_iff_left₀ hunit]
  exact_mod_cast hcoefficient.2

/-- The shortest decimal stays in the decade of the number, or is the power of ten next to it. -/
theorem bounds_shortest (tie : Tie) (hx : x.isZero = false) :
    (10 : ℚ) ^ x.decimalPower ≤ (x.shortest tie).value ∧
      (x.shortest tie).value ≤ 10 ^ (x.decimalPower + 1) := by
  rw [shortest, if_neg (by rw [hx]; decide)]
  dsimp only
  cases hfound : (List.range 17).findSome? fun (extra : ℕ) =>
      onGrid? tie x (x.decimalPower - extra) with
  | none =>
    obtain ⟨hlow, hhigh⟩ := decimalPower_bounds hx
    rw [Option.getD_none, value_exactDecimal]
    exact ⟨hlow, hhigh.le⟩
  | some d =>
    obtain ⟨extra, -, hgrid⟩ := List.exists_of_findSome?_eq_some hfound
    rw [Option.getD_some]
    exact bounds_of_onGrid? hx (by omega) hgrid

lemma value_shortest_pos (tie : Tie) (hx : x.isZero = false) : 0 < (x.shortest tie).value :=
  (zpow_pos (by norm_num) _).trans_le (bounds_shortest tie hx).1

/-- Of zero alone the shortest decimal is zero. -/
lemma coefficient_shortest_eq_zero_iff (tie : Tie) (x : Binary64) :
    (x.shortest tie).coefficient = 0 ↔ x.isZero = true := by
  constructor
  · intro h
    by_contra hzero
    rw [Bool.not_eq_true] at hzero
    exact (value_shortest_pos tie hzero).ne' ((Decimal.value_eq_zero_iff _).mpr h)
  · intro hzero
    rw [shortest, if_pos hzero]

/-! ## Powers of ten -/

/-- A power of ten that is not rounded down: the numbers that are at least as large are those from
the one that it rounds to. -/
def IsThreshold (power : ℤ) : Prop :=
  ∀ x : Binary64, (10 : ℚ) ^ power ≤ x.size ↔ (Decimal.mk 1 power).magnitude ≤ x.magnitude

lemma le_size_iff : (10 : ℚ) ^ power ≤ x.size ↔
    1 ≤ (inUnitsOf 10 power x.fraction.1 x.fraction.2).1
      / (inUnitsOf 10 power x.fraction.1 x.fraction.2).2 := by
  rw [← mul_le_size_iff, Nat.cast_one, one_mul]

/-- The number that a power rounds to and the one before it tell whether it is a threshold. -/
lemma isThreshold_of_next (next before : Binary64)
    (hnext : (Decimal.mk 1 power).magnitude = next.magnitude)
    (hbefore : next.magnitude = before.magnitude + 1)
    (hlow : ¬ (10 : ℚ) ^ power ≤ before.size) (hhigh : (10 : ℚ) ^ power ≤ next.size) :
    IsThreshold power := by
  intro x
  rw [hnext]
  constructor
  · intro h
    have hlt : before.size < x.size := (not_le.mp hlow).trans_le h
    rw [size_lt_size_iff] at hlt
    omega
  · intro h
    exact hhigh.trans (size_le_size_iff.mpr h)

/-- The number nearest to a thousandth lies above it, and the one before lies below. -/
lemma isThreshold_thousandth : IsThreshold (-3) := by
  apply isThreshold_of_next ⟨0x3F50624DD2F1A9FC⟩ ⟨0x3F50624DD2F1A9FB⟩
  · decide +kernel
  · decide +kernel
  · rw [le_size_iff]
    decide +kernel
  · rw [le_size_iff]
    decide +kernel

/-- Ten millions are a number. -/
lemma isThreshold_tenMillion : IsThreshold 7 := by
  apply isThreshold_of_next ⟨0x416312D000000000⟩ ⟨0x416312CFFFFFFFFF⟩
  · decide +kernel
  · decide +kernel
  · rw [le_size_iff]
    decide +kernel
  · rw [le_size_iff]
    decide +kernel

/-- A number reaches a threshold if and only if its shortest decimal does: what is carried up to
the threshold from below would be read as the number that the threshold rounds to. -/
lemma le_value_shortest_iff (tie : Tie) (hx : x.isFinite = true) (hzero : x.isZero = false)
    (hpower : IsThreshold power) :
    (10 : ℚ) ^ power ≤ (x.shortest tie).value ↔ (10 : ℚ) ^ power ≤ x.size := by
  obtain ⟨hlow, hhigh⟩ := decimalPower_bounds hzero
  obtain ⟨hvaluelow, hvaluehigh⟩ := bounds_shortest tie hzero
  have hten : (1 : ℚ) < 10 := by norm_num
  by_cases hreach : power ≤ x.decimalPower
  · have hle : (10 : ℚ) ^ power ≤ 10 ^ x.decimalPower := zpow_le_zpow_right₀ hten.le hreach
    exact iff_of_true (hle.trans hvaluelow) (hle.trans hlow)
  · have hle : (10 : ℚ) ^ (x.decimalPower + 1) ≤ 10 ^ power :=
      zpow_le_zpow_right₀ hten.le (by omega)
    refine iff_of_false ?_ (not_le.mpr (hhigh.trans_le hle))
    intro h
    have hvalue : (x.shortest tie).value = (Decimal.mk 1 power).value := by
      have hone : (Decimal.mk 1 power).value = 10 ^ power := by
        rw [Decimal.value, Nat.cast_one, one_mul]
      rw [hone]
      exact le_antisymm (hvaluehigh.trans hle) h
    have hmagnitude : (Decimal.mk 1 power).magnitude = x.magnitude := by
      rw [← Decimal.magnitude_congr hvalue, magnitude_shortest tie hx]
    exact absurd ((hpower x).mpr hmagnitude.le) (not_le.mpr (hhigh.trans_le hle))

/-- The leading digit of the shortest decimal tells whether a number reaches a threshold. -/
theorem leadingExponent_shortest (tie : Tie) (hx : x.isFinite = true) (hzero : x.isZero = false)
    (hpower : IsThreshold power) :
    power ≤ (x.shortest tie).leadingExponent ↔ (10 : ℚ) ^ power ≤ x.size := by
  have hpos := value_shortest_pos tie hzero
  have hcoefficient : (x.shortest tie).coefficient ≠ 0 := by
    rw [Ne, coefficient_shortest_eq_zero_iff, hzero]
    decide
  rw [← le_value_shortest_iff tie hx hzero hpower, Decimal.leadingExponent_eq_log hcoefficient,
    ← Int.zpow_le_iff_le_log (by norm_num) hpos, Nat.cast_ofNat]

end Admission.Number.Binary64
