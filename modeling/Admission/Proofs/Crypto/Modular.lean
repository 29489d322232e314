import Mathlib.FieldTheory.Finite.Basic
import Admission.Crypto.Secp256k1

/-!
# Arithmetic modulo a prime

The numbers that powers, inverses, products and differences are computed as stand for those of the
residues (`cast_powerMod`, `cast_inverse`, `cast_mul`, `cast_sub`), so that computations on numbers
are reasoned about in a field.
-/

namespace Admission.Crypto.Secp256k1

/-! ## Powers and inverses -/

/-- Squaring gives the power, if the exponent has no more bits than are looked at. -/
theorem powerMod_eq (modulus base : ℕ) {width exponent : ℕ} (h : exponent < 2 ^ width) :
    powerMod modulus width base exponent = base ^ exponent % modulus := by
  induction width generalizing exponent with
  | zero =>
    obtain rfl : exponent = 0 := by simpa using h
    rw [powerMod, pow_zero]
  | succ width ih =>
    have hhalf : exponent / 2 < 2 ^ width := by
      rw [pow_succ] at h
      omega
    have hsquare : base ^ (exponent / 2) % modulus * (base ^ (exponent / 2) % modulus) % modulus
        = base ^ (2 * (exponent / 2)) % modulus := by
      rw [← Nat.mul_mod, ← pow_add, two_mul]
    simp only [powerMod, ih hhalf, hsquare]
    split
    · rename_i hodd
      rw [Nat.mod_mul_mod, ← pow_succ]
      congr 2
      omega
    · rename_i heven
      congr 2
      omega

/-- The residue of a power is the power of the residue. -/
lemma cast_powerMod (modulus base : ℕ) {width exponent : ℕ} (h : exponent < 2 ^ width) :
    ((powerMod modulus width base exponent : ℕ) : ZMod modulus)
      = (base : ZMod modulus) ^ exponent := by
  rw [powerMod_eq modulus base h, ZMod.natCast_mod, Nat.cast_pow]

lemma powerMod_lt {modulus : ℕ} (hpos : 0 < modulus) (base : ℕ) {width exponent : ℕ}
    (h : exponent < 2 ^ width) : powerMod modulus width base exponent < modulus := by
  rw [powerMod_eq modulus base h]
  exact Nat.mod_lt _ hpos

/-- The inverse modulo an odd prime of at most 256 bits. -/
theorem cast_inverse {prime : ℕ} [Fact prime.Prime] (hodd : 2 < prime) (hwidth : prime < 2 ^ 256)
    (a : ℕ) : ((inverse prime a : ℕ) : ZMod prime) = (a : ZMod prime)⁻¹ := by
  have hexponent : prime - 2 < 2 ^ 256 := by omega
  rw [inverse, cast_powerMod prime a hexponent]
  rcases eq_or_ne (a : ZMod prime) 0 with hzero | hne
  · rw [hzero, inv_zero, zero_pow (by omega)]
  · apply eq_inv_of_mul_eq_one_left
    rw [← pow_succ, show prime - 2 + 1 = prime - 1 by omega, ZMod.pow_card_sub_one_eq_one hne]

/-! ## Coordinates -/

lemma mul_lt (a b : ℕ) : mul a b < fieldPrime :=
  Nat.mod_lt _ (by decide)

lemma sub_lt (a b : ℕ) : sub a b < fieldPrime :=
  Nat.mod_lt _ (by decide)

@[simp] lemma cast_mul (a b : ℕ) : ((mul a b : ℕ) : ZMod fieldPrime) = a * b := by
  rw [mul, ZMod.natCast_mod, Nat.cast_mul]

/-- The residue of a difference, where the number that is taken away is below the prime. -/
lemma cast_sub (a : ℕ) {b : ℕ} (hb : b < fieldPrime) :
    ((sub a b : ℕ) : ZMod fieldPrime) = a - b := by
  rw [sub, ZMod.natCast_mod, Nat.cast_add, Nat.cast_sub hb.le, ZMod.natCast_self, zero_sub,
    sub_eq_add_neg]

@[simp] lemma cast_sub_mul (a b c : ℕ) :
    ((sub a (mul b c) : ℕ) : ZMod fieldPrime) = a - b * c := by
  rw [cast_sub a (mul_lt b c), cast_mul]

@[simp] lemma cast_sub_sub_mul (a b c d : ℕ) :
    ((sub a (sub b (mul c d)) : ℕ) : ZMod fieldPrime) = a - (b - c * d) := by
  rw [cast_sub a (sub_lt b _), cast_sub_mul]

/-- Coordinates are the same if their residues are. -/
lemma eq_of_cast {a b : ℕ} (ha : a < fieldPrime) (hb : b < fieldPrime)
    (h : (a : ZMod fieldPrime) = b) : a = b := by
  rw [← ZMod.val_cast_of_lt ha, h, ZMod.val_cast_of_lt hb]

lemma eq_zero_of_cast {a : ℕ} (ha : a < fieldPrime) (h : (a : ZMod fieldPrime) = 0) : a = 0 :=
  eq_of_cast ha (by decide) (by rw [h, Nat.cast_zero])

end Admission.Crypto.Secp256k1
