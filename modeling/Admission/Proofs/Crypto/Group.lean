import Mathlib.AlgebraicGeometry.EllipticCurve.Affine.Point
import Mathlib.Tactic.LinearCombination
import Admission.Proofs.Crypto.Primes

/-!
# The group that points are computed in

Triples stand for points of the elliptic curve `y ^ 2 = x ^ 3 + 7` over the residues of the field
prime (`Point.Represents`), and what is computed on triples is the group of these points: doubling
(`Represents.double`), sums (`Represents.add`), multiples (`Represents.times`) and coordinates
(`Represents.affine?_eq`). The generator has prime order (`addOrderOf_basePoint`).
-/

namespace Admission.Crypto.Secp256k1

open WeierstrassCurve

/-! ## The curve -/

/-- The residues that coordinates stand for. -/
abbrev Residue := ZMod fieldPrime

/-- The curve `y ^ 2 = x ^ 3 + 7`. -/
def curve : Affine Residue := ⟨0, 0, 0, 0, 7⟩

lemma equation_iff {x y : Residue} : curve.Equation x y ↔ y ^ 2 = x ^ 3 + 7 := by
  rw [Affine.equation_iff]
  simp [curve]

lemma negY_eq (x y : Residue) : curve.negY x y = -y := by
  simp [Affine.negY, curve]

lemma addX_eq (x x' slope : Residue) : curve.addX x x' slope = slope ^ 2 - x - x' := by
  simp [Affine.addX, curve]

lemma addY_eq (x x' y slope : Residue) :
    curve.addY x x' y slope = slope * (2 * x + x' - slope ^ 2) - y := by
  rw [Affine.addY, negY_eq, Affine.negAddY, addX_eq]
  ring

/-- There is no singular point. -/
lemma nonsingular_iff {x y : Residue} : curve.Nonsingular x y ↔ y ^ 2 = x ^ 3 + 7 := by
  have hdiscriminant : curve.Δ = -(21168 : ℕ) := by
    simp [WeierstrassCurve.Δ, WeierstrassCurve.b₂, WeierstrassCurve.b₄, WeierstrassCurve.b₆,
      WeierstrassCurve.b₈, curve]
    norm_num
  have hne : curve.Δ ≠ 0 := by
    rw [hdiscriminant, neg_ne_zero]
    exact fun h0 => absurd (eq_zero_of_cast (by decide) h0) (by decide)
  rw [← Affine.equation_iff_nonsingular_of_Δ_ne_zero hne, equation_iff]

lemma eq_val_of_cast {a : ℕ} {X : Residue} (ha : a < fieldPrime) (h : (a : Residue) = X) :
    a = X.val := by
  rw [← h, ZMod.val_cast_of_lt ha]

/-- The coordinates of a point; infinity has none. -/
def coordinates : curve.Point → Option (ℕ × ℕ)
  | .zero => none
  | .some x y _ => some (x.val, y.val)

/-! ## Triples and points -/

namespace Point

/-- A triple stands for a point: with a third coordinate of zero for infinity, and else for the
point whose coordinates, times a square and a cube of the third one, are the first two. -/
inductive Represents : Point → curve.Point → Prop
  | infinity (x y : ℕ) : Represents ⟨x, y, 0⟩ 0
  | affine {x y z : ℕ} {X Y : Residue} (h : curve.Nonsingular X Y) (hz : (z : Residue) ≠ 0)
      (hx : (x : Residue) = X * z ^ 2) (hy : (y : Residue) = Y * z ^ 3) :
      Represents ⟨x, y, z⟩ (.some X Y h)

namespace Represents

variable {p q : Point} {P Q : curve.Point}

lemma ne_zero_of_cast {a : ℕ} (h : (a : Residue) ≠ 0) : a ≠ 0 :=
  fun h0 => h (by rw [h0, Nat.cast_zero])

/-- A triple stands for infinity if its third coordinate is zero. -/
lemma eq_zero_iff (h : p.Represents P) : P = 0 ↔ p.z = 0 := by
  cases h with
  | infinity x y => simp
  | affine hP hz hx hy => simp [ne_zero_of_cast hz, Affine.Point.some_ne_zero]

/-! ### Tangents -/

/-- The slope of a tangent that is not upright. -/
lemma slope_tangent {X Y : Residue} (hY : Y ≠ curve.negY X Y) :
    curve.slope X X Y Y * (2 * Y) = 3 * X ^ 2 := by
  have hden : Y - curve.negY X Y = 2 * Y := by
    rw [negY_eq]
    ring
  rw [Affine.slope_of_Y_ne rfl hY, hden, div_mul_cancel₀ _ (hden ▸ sub_ne_zero.mpr hY)]
  simp [curve]

/-- Doubling a triple doubles the point. -/
theorem double (h : p.Represents P) : p.double.Represents (P + P) := by
  cases h with
  | infinity x y =>
    rw [Point.double, if_pos rfl, add_zero]
    exact .infinity 1 1
  | @affine x y z X Y hP hz hx hy =>
    rw [Point.double, if_neg (ne_zero_of_cast hz)]
    have hlast : ((mul 2 (mul y z) : ℕ) : Residue) = 2 * Y * z ^ 4 := by
      simp only [cast_mul, hy, Nat.cast_ofNat]
      ring
    by_cases hY : Y = curve.negY X Y
    · -- The tangent is upright: twice the second coordinate is zero.
      have hzero : mul 2 (mul y z) = 0 := by
        apply eq_zero_of_cast (mul_lt ..)
        rw [negY_eq] at hY
        rw [hlast, two_mul]
        nth_rewrite 2 [hY]
        rw [add_neg_cancel, zero_mul]
      rw [Affine.Point.add_self_of_Y_eq hY]
      dsimp only
      rw [hzero]
      exact .infinity _ _
    · rw [Affine.Point.add_self_of_Y_ne hY]
      have hslope := slope_tangent hY
      have hY0 : 2 * Y ≠ 0 := by
        intro h0
        apply hY
        rw [negY_eq]
        linear_combination h0
      refine .affine _ ?_ ?_ ?_
      · rw [hlast]
        exact mul_ne_zero hY0 (pow_ne_zero 4 hz)
      · rw [addX_eq, hlast]
        generalize curve.slope X X Y Y = slope at hslope ⊢
        simp only [cast_sub_mul, cast_mul, hx, hy, Nat.cast_ofNat]
        linear_combination (-(z : Residue) ^ 8 * (slope * (2 * Y) + 3 * X ^ 2)) * hslope
      · rw [addY_eq, hlast]
        generalize curve.slope X X Y Y = slope at hslope ⊢
        simp only [cast_sub_mul, cast_sub_sub_mul, cast_mul, hx, hy, Nat.cast_ofNat]
        linear_combination ((z : Residue) ^ 12 * ((slope * (2 * Y)) ^ 2
          + slope * (2 * Y) * (3 * X ^ 2) + (3 * X ^ 2) ^ 2 - 12 * X * Y ^ 2)) * hslope

/-! ### Chords -/

section

variable {x y z x' y' z' : ℕ} {X Y X' Y' : Residue}

/-- The slope of a chord that is not upright. -/
lemma slope_chord (hX : X ≠ X') : curve.slope X X' Y Y' * (X - X') = Y - Y' := by
  rw [Affine.slope_of_X_ne hX, div_mul_cancel₀ _ (sub_ne_zero.mpr hX)]

/-- The difference of first coordinates, over one denominator. -/
lemma cast_xDifference (hx : (x : Residue) = X * z ^ 2) (hx' : (x' : Residue) = X' * z' ^ 2) :
    ((sub (mul x' (mul z z)) (mul x (mul z' z')) : ℕ) : Residue)
      = (X' - X) * (z * z') ^ 2 := by
  simp only [cast_sub_mul, cast_mul, hx, hx']
  ring

/-- The difference of second coordinates, over one denominator. -/
lemma cast_yDifference (hy : (y : Residue) = Y * z ^ 3) (hy' : (y' : Residue) = Y' * z' ^ 3) :
    ((sub (mul y' (mul z (mul z z))) (mul y (mul z' (mul z' z'))) : ℕ) : Residue)
      = (Y' - Y) * (z * z') ^ 3 := by
  simp only [cast_sub_mul, cast_mul, hy, hy']
  ring

/-- A difference is zero where both coordinates are the same. -/
lemma difference_eq_zero_iff {a b : ℕ} {c : Residue} (hc : c ≠ 0)
    (h : ((sub a b : ℕ) : Residue) = (X' - X) * c) : sub a b = 0 ↔ X = X' := by
  constructor
  · intro h0
    rw [h0, Nat.cast_zero, eq_comm, mul_eq_zero, or_iff_left hc] at h
    exact (sub_eq_zero.mp h).symm
  · intro heq
    apply eq_zero_of_cast (sub_lt a b)
    rw [h, heq, sub_self, zero_mul]

/-- The sum of triples for points that lie one above the other: the point is doubled, or the points
are opposite. -/
lemma add_of_x_eq {hP : curve.Nonsingular X Y} {hQ : curve.Nonsingular X Y'}
    (hz : (z : Residue) ≠ 0) (hz' : (z' : Residue) ≠ 0) (hx : (x : Residue) = X * z ^ 2)
    (hx' : (x' : Residue) = X * z' ^ 2) (hy : (y : Residue) = Y * z ^ 3)
    (hy' : (y' : Residue) = Y' * z' ^ 3) :
    (Point.add ⟨x, y, z⟩ ⟨x', y', z'⟩).Represents (.some X Y hP + .some X Y' hQ) := by
  have hzz : (z : Residue) * z' ≠ 0 := mul_ne_zero hz hz'
  have hh := (difference_eq_zero_iff (pow_ne_zero 2 hzz) (cast_xDifference hx hx')).mpr rfl
  have hr := difference_eq_zero_iff (pow_ne_zero 3 hzz) (cast_yDifference hy hy')
  rw [Point.add, if_neg (ne_zero_of_cast hz), if_neg (ne_zero_of_cast hz')]
  dsimp only
  rw [if_pos hh]
  by_cases hY : Y = Y'
  · subst hY
    rw [if_pos (hr.mpr rfl)]
    exact double (.affine hP hz hx hy)
  · have hopposite : Y = curve.negY X Y' :=
      (Affine.Y_eq_of_X_eq hP.1 hQ.1 rfl).resolve_left hY
    rw [if_neg (fun h0 => hY (hr.mp h0)), Affine.Point.add_of_Y_eq rfl hopposite]
    exact .infinity 1 1

/-- The sum of triples for points that do not lie one above the other: the chord's third point. -/
lemma add_of_x_ne {hP : curve.Nonsingular X Y} {hQ : curve.Nonsingular X' Y'} (hX : X ≠ X')
    (hz : (z : Residue) ≠ 0) (hz' : (z' : Residue) ≠ 0) (hx : (x : Residue) = X * z ^ 2)
    (hx' : (x' : Residue) = X' * z' ^ 2) (hy : (y : Residue) = Y * z ^ 3)
    (hy' : (y' : Residue) = Y' * z' ^ 3) :
    (Point.add ⟨x, y, z⟩ ⟨x', y', z'⟩).Represents (.some X Y hP + .some X' Y' hQ) := by
  have hzz : (z : Residue) * z' ≠ 0 := mul_ne_zero hz hz'
  have hh := difference_eq_zero_iff (pow_ne_zero 2 hzz) (cast_xDifference hx hx')
  have hlast : ((mul (sub (mul x' (mul z z)) (mul x (mul z' z'))) (mul z z') : ℕ) : Residue)
      = (X' - X) * (z * z') ^ 3 := by
    rw [cast_mul, cast_xDifference hx hx', cast_mul]
    ring
  have hslope := @slope_chord X Y X' Y' hX
  rw [Point.add, if_neg (ne_zero_of_cast hz), if_neg (ne_zero_of_cast hz')]
  dsimp only
  rw [if_neg (fun h0 => hX (hh.mp h0)), Affine.Point.add_of_X_ne hX]
  refine .affine _ ?_ ?_ ?_
  · rw [hlast]
    exact mul_ne_zero (sub_ne_zero.mpr (Ne.symm hX)) (pow_ne_zero 3 hzz)
  · rw [addX_eq, hlast]
    generalize curve.slope X X' Y Y' = slope at hslope ⊢
    simp only [cast_sub_mul, cast_mul, hx, hy, hx', hy', Nat.cast_ofNat]
    linear_combination (-((z : Residue) * z') ^ 6 * (slope * (X - X') + (Y - Y'))) * hslope
  · rw [addY_eq, hlast]
    generalize curve.slope X X' Y Y' = slope at hslope ⊢
    simp only [cast_sub_mul, cast_sub_sub_mul, cast_mul, hx, hy, hx', hy', Nat.cast_ofNat]
    linear_combination (-((z : Residue) * z') ^ 9 * ((slope * (X - X')) ^ 2
      + slope * (X - X') * (Y - Y') + (Y - Y') ^ 2 - (2 * X + X') * (X' - X) ^ 2)) * hslope

end

/-- The sum of triples stands for the sum of points. -/
theorem add (hp : p.Represents P) (hq : q.Represents Q) : (p.add q).Represents (P + Q) := by
  cases hp with
  | infinity x y =>
    rw [Point.add, if_pos rfl, zero_add]
    exact hq
  | @affine x y z X Y hP hz hx hy =>
    cases hq with
    | infinity x' y' =>
      rw [Point.add, if_neg (ne_zero_of_cast hz), if_pos rfl, add_zero]
      exact .affine hP hz hx hy
    | @affine x' y' z' X' Y' hQ hz' hx' hy' =>
      by_cases hX : X = X'
      · subst hX
        exact add_of_x_eq hz hz' hx hx' hy hy'
      · exact add_of_x_ne hX hz hz' hx hx' hy hy'

/-! ### Multiples and coordinates -/

/-- A multiple of a triple stands for the multiple of the point, if the factor has no more bits than
are looked at. -/
theorem multiple (h : p.Represents P) {width factor : ℕ} (hfactor : factor < 2 ^ width) :
    (Point.multiple width factor p).Represents (factor • P) := by
  induction width generalizing factor with
  | zero =>
    obtain rfl : factor = 0 := by simpa using hfactor
    rw [zero_nsmul]
    exact .infinity 1 1
  | succ width ih =>
    have hhalf : factor / 2 < 2 ^ width := by
      rw [pow_succ] at hfactor
      omega
    have htwice := (ih hhalf).double
    rw [← add_nsmul] at htwice
    simp only [Point.multiple]
    split
    · rename_i hodd
      have hsum := htwice.add h
      rwa [← succ_nsmul, show factor / 2 + factor / 2 + 1 = factor by omega] at hsum
    · rename_i heven
      rwa [show factor / 2 + factor / 2 = factor by omega] at htwice

/-- Factors of at most 256 bits give multiples. -/
theorem times (h : p.Represents P) {factor : ℕ} (hfactor : factor < 2 ^ 256) :
    (Point.times factor p).Represents (factor • P) :=
  h.multiple hfactor

/-- The coordinates of a triple are those of the point that it stands for. -/
theorem affine?_eq (h : p.Represents P) : p.affine? = coordinates P := by
  cases h with
  | infinity x y => rfl
  | @affine x y z X Y hP hz hx hy =>
    have hinverse : ((inverse fieldPrime z : ℕ) : Residue) = (z : Residue)⁻¹ :=
      cast_inverse (by decide) (by decide) z
    rw [affine?, if_neg (ne_zero_of_cast hz), coordinates]
    dsimp only
    congr 2
    · apply eq_val_of_cast (mul_lt ..)
      simp only [cast_mul, hinverse, hx]
      field_simp
    · apply eq_val_of_cast (mul_lt ..)
      simp only [cast_mul, hinverse, hy]
      field_simp

/-- A pair of coordinates, as they are, stands for its point. -/
lemma of_coordinates {x y : ℕ} (h : curve.Nonsingular x y) :
    Represents ⟨x, y, 1⟩ (.some x y h) :=
  .affine h (by simp) (by simp) (by simp)

end Represents

end Point

/-! ## Points read from a first coordinate -/

/-- The power that stands for a square root is one, where there is a root: the field prime leaves 3
modulo 4, so squaring the power again leaves the square. -/
lemma sq_root (Y : Residue) : ((Y ^ 2) ^ ((fieldPrime + 1) / 4)) ^ 2 = Y ^ 2 := by
  have hexponent : 2 * ((fieldPrime + 1) / 4 * 2) = fieldPrime + 1 := by decide
  rw [← pow_mul, ← pow_mul, hexponent, pow_succ, ZMod.pow_card, sq]

/-- Opposite residues that are not zero have different parities. -/
lemma val_neg_mod_two {Y : Residue} (hY : Y ≠ 0) : ((-Y).val % 2 == 1) ≠ (Y.val % 2 == 1) := by
  have hodd : fieldPrime % 2 = 1 := by decide
  have hlt := ZMod.val_lt Y
  have hneg : (-Y).val = fieldPrime - Y.val := by
    rw [ZMod.neg_val, if_neg hY]
  rw [hneg, ne_eq, beq_eq_beq]
  omega

/-- A point of the curve is read back from its first coordinate and the parity of the second. -/
theorem Point.ofX?_eq {X Y : Residue} (h : curve.Nonsingular X Y) :
    Point.ofX? X.val (Y.val % 2 == 1) = some ⟨X.val, Y.val, 1⟩ := by
  have hX : ¬ fieldPrime ≤ X.val := not_le.mpr (ZMod.val_lt X)
  have hsquare : (((mul X.val (mul X.val X.val) + 7) % fieldPrime : ℕ) : Residue) = Y ^ 2 := by
    rw [ZMod.natCast_mod, Nat.cast_add, cast_mul, cast_mul, ZMod.natCast_zmod_val,
      nonsingular_iff.mp h]
    push_cast
    ring
  generalize hdef : (mul X.val (mul X.val X.val) + 7) % fieldPrime = square at hsquare
  have hlt : square < fieldPrime := hdef ▸ Nat.mod_lt _ (by decide)
  have hexponent : (fieldPrime + 1) / 4 < 2 ^ 256 := by decide
  have hroot := cast_powerMod fieldPrime square hexponent
  have hrootlt := powerMod_lt prime_fieldPrime.pos square hexponent
  rw [ofX?, if_neg hX]
  dsimp only
  rw [hdef]
  generalize powerMod fieldPrime 256 square ((fieldPrime + 1) / 4) = root at hroot hrootlt ⊢
  have hsq : (root : Residue) ^ 2 = Y ^ 2 := by
    rw [hroot, hsquare, sq_root]
  have hfits : mul root root = square := by
    apply eq_of_cast (mul_lt ..) hlt
    rw [cast_mul, ← sq, hsq, hsquare]
  rw [if_neg (not_not.mpr hfits)]
  congr 2
  rcases sq_eq_sq_iff_eq_or_eq_neg.mp hsq with heq | heq
  · have hval : root = Y.val := eq_val_of_cast hrootlt heq
    rw [hval, beq_self_eq_true, if_pos rfl]
  · by_cases hY : Y = 0
    · have hval : root = Y.val := eq_val_of_cast hrootlt (by rw [heq, hY, neg_zero])
      rw [hval, beq_self_eq_true, if_pos rfl]
    · -- The root is the opposite one, so its parity is the other one.
      have hval : root = (-Y).val := eq_val_of_cast hrootlt heq
      have hparity : ¬ ((root % 2 == 1) == (Y.val % 2 == 1)) = true := by
        rw [hval, beq_iff_eq]
        exact val_neg_mod_two hY
      rw [if_neg hparity]
      apply eq_val_of_cast (sub_lt ..)
      rw [cast_sub 0 hrootlt, heq, Nat.cast_zero, zero_sub, neg_neg]

/-- Whether there is a point does not depend on the parity that is asked for. -/
lemma Point.isSome_ofX? (x : ℕ) (odd odd' : Bool) :
    (ofX? x odd).isSome = (ofX? x odd').isSome := by
  simp only [ofX?]
  split_ifs <;> rfl

/-- What is read from a first coordinate has a root for its second. -/
lemma Point.exists_root_of_ofX? {x : ℕ} {odd : Bool} {point : Point}
    (h : ofX? x odd = some point) :
    x < fieldPrime ∧ ∃ y, mul y y = (mul x (mul x x) + 7) % fieldPrime := by
  unfold ofX? at h
  dsimp only at h
  split at h
  · cases h
  · rename_i hx
    split at h
    · cases h
    · rename_i hroot
      exact ⟨not_le.mp hx, _, not_not.mp hroot⟩

/-- There is a point with a first coordinate if it is below the field prime and the curve has one.
-/
theorem Point.isSome_ofX?_iff {x : ℕ} {odd : Bool} :
    (ofX? x odd).isSome = true ↔
      x < fieldPrime ∧ ∃ y, y ^ 2 ≡ x ^ 3 + 7 [MOD fieldPrime] := by
  constructor
  · intro h
    obtain ⟨point, hpoint⟩ := Option.isSome_iff_exists.mp h
    obtain ⟨hx, y, hy⟩ := exists_root_of_ofX? hpoint
    refine ⟨hx, y, (ZMod.natCast_eq_natCast_iff _ _ _).mp ?_⟩
    have hcast := congrArg (Nat.cast (R := Residue)) hy
    rw [cast_mul, ZMod.natCast_mod, Nat.cast_add, cast_mul, cast_mul] at hcast
    push_cast at hcast ⊢
    rw [sq, hcast]
    ring
  · rintro ⟨hx, y, hy⟩
    have hcurve : curve.Nonsingular (x : Residue) y := by
      rw [nonsingular_iff]
      have hcast := (ZMod.natCast_eq_natCast_iff _ _ _).mpr hy
      push_cast at hcast
      exact hcast
    have hpoint := Point.ofX?_eq hcurve
    rw [ZMod.val_cast_of_lt hx] at hpoint
    rw [isSome_ofX? x odd, hpoint, Option.isSome_some]

/-! ## The generator -/

lemma nonsingular_generator :
    curve.Nonsingular (Point.generator.x : Residue) Point.generator.y := by
  have hcast := congrArg (Nat.cast (R := Residue)) generator_on_curve
  rw [ZMod.natCast_mod, Nat.cast_add] at hcast
  simp only [cast_mul] at hcast
  rw [nonsingular_iff, sq, hcast]
  push_cast
  ring

/-- The generator as a point of the curve. -/
def basePoint : curve.Point := .some _ _ nonsingular_generator

lemma represents_generator : Point.generator.Represents basePoint :=
  .of_coordinates nonsingular_generator

lemma basePoint_ne_zero : basePoint ≠ 0 :=
  Affine.Point.some_ne_zero _

/-- The order of the generator is the prime `order`. -/
theorem addOrderOf_basePoint : addOrderOf basePoint = order := by
  have hmultiple : (Point.times order Point.generator).Represents (order • basePoint) :=
    represents_generator.times (by decide)
  have hzero : order • basePoint = 0 := hmultiple.eq_zero_iff.mpr (by decide +kernel)
  exact addOrderOf_eq_prime hzero basePoint_ne_zero

end Admission.Crypto.Secp256k1
