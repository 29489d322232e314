import Admission.Crypto.Ecdsa
import Admission.Proofs.Crypto.Group

/-!
# Signatures fit

What is signed with a secret number fits the point of that number (`check_sign`). The signature's
first number belongs to the point of a nonce; its second one is such that the sum of points that
checking computes is the nonce's point or its opposite, and these have one first coordinate.
-/

namespace Admission.Crypto.Ecdsa

open Secp256k1

/-! ## Multiples of the generator -/

section

variable {a b : ℕ}

/-- Multiples of the generator depend on the factor modulo the order. -/
lemma nsmul_basePoint_eq_iff : a • basePoint = b • basePoint ↔ (a : ZMod order) = b := by
  rw [nsmul_eq_nsmul_iff_modEq, addOrderOf_basePoint, ZMod.natCast_eq_natCast_iff]

lemma nsmul_basePoint_eq_zero_iff : a • basePoint = 0 ↔ (a : ZMod order) = 0 := by
  rw [← zero_nsmul basePoint, nsmul_basePoint_eq_iff, Nat.cast_zero]

/-- Opposite factors give opposite points. -/
lemma nsmul_basePoint_eq_neg (h : (a : ZMod order) = -b) : a • basePoint = -(b • basePoint) := by
  rw [eq_neg_iff_add_eq_zero, ← add_nsmul, nsmul_basePoint_eq_zero_iff, Nat.cast_add, h,
    neg_add_cancel]

end

/-- The first coordinate of a point modulo the order. -/
def abscissa? (P : curve.Point) : Option ℕ :=
  (coordinates P).map fun point => point.1 % order

lemma coordinate?_eq {p : Point} {P : curve.Point} (h : p.Represents P) :
    coordinate? p = abscissa? P := by
  rw [coordinate?, h.affine?_eq, abscissa?]

/-- Opposite points have one first coordinate. -/
lemma abscissa?_neg (P : curve.Point) : abscissa? (-P) = abscissa? P := by
  cases P <;> rfl

/-- The inverse modulo the order is that of the residue. -/
lemma cast_inverse_order (a : ℕ) : ((inverse order a : ℕ) : ZMod order) = (a : ZMod order)⁻¹ :=
  cast_inverse (by decide) (by decide) a

/-! ## Signing -/

variable {secret digest nonce : ℕ} {g : Signature}

/-- What a signature of a digest says, made with a nonce: the nonce's point gives `r`, and up to its
sign `s` solves the nonce's equation. -/
structure SignedWith (secret digest nonce : ℕ) (g : Signature) : Prop where
  abscissa : abscissa? (nonce • basePoint) = some g.r
  r_ne_zero : g.r ≠ 0
  s_ne_zero : g.s ≠ 0
  s_le : g.s ≤ order / 2
  equation : (g.s : ZMod order) * nonce = digest + g.r * secret ∨
    (g.s : ZMod order) * nonce = -(digest + g.r * secret)

/-- A nonce that is in range is not zero as a residue. -/
lemma cast_nonce_ne_zero (hpos : nonce ≠ 0) (hlt : nonce < order) : (nonce : ZMod order) ≠ 0 := by
  intro h
  exact hpos (Nat.eq_zero_of_dvd_of_lt ((ZMod.natCast_eq_zero_iff nonce order).mp h) hlt)

/-- The number that signing computes for the point's first coordinate. -/
def solution (secret digest nonce r : ℕ) : ℕ :=
  inverse order nonce * ((digest + r * secret) % order) % order

/-- The lower of a number and its opposite. -/
def low (s : ℕ) : ℕ :=
  if order / 2 < s then order - s else s

lemma solution_lt (secret digest nonce r : ℕ) : solution secret digest nonce r < order :=
  Nat.mod_lt _ (by decide)

/-- The number that signing computes solves the nonce's equation. -/
lemma cast_solution (r : ℕ) (hnonce : (nonce : ZMod order) ≠ 0) :
    ((solution secret digest nonce r : ℕ) : ZMod order) * nonce = digest + r * secret := by
  rw [solution, ZMod.natCast_mod, Nat.cast_mul, ZMod.natCast_mod, cast_inverse_order,
    mul_right_comm, inv_mul_cancel₀ hnonce, one_mul]
  push_cast
  rfl

/-- The order is odd, so the opposite of a high number is low. -/
lemma low_spec {s : ℕ} (hpos : s ≠ 0) (hlt : s < order) :
    low s ≠ 0 ∧ low s < order ∧ low s ≤ order / 2 ∧
      ((low s : ZMod order) = s ∨ (low s : ZMod order) = -s) := by
  have hodd : order % 2 = 1 := by decide
  by_cases hhigh : order / 2 < s
  · have hlow : low s = order - s := if_pos hhigh
    have hcast : (low s : ZMod order) = -s := by
      rw [hlow, Nat.cast_sub hlt.le, ZMod.natCast_self, zero_sub]
    refine ⟨?_, ?_, ?_, .inr hcast⟩ <;> omega
  · have hlow : low s = s := if_neg hhigh
    refine ⟨?_, ?_, ?_, .inl (by rw [hlow])⟩ <;> omega

/-- Signing with a nonce that is in range and whose point has a first coordinate gives none for a
zero, and else a signature. -/
lemma signWith?_cases {r : ℕ} (hpos : nonce ≠ 0) (hlt : nonce < order)
    (hr : abscissa? (nonce • basePoint) = some r) :
    (signWith? secret digest nonce = none ∧
      (r = 0 ∨ (digest + r * secret : ZMod order) = 0)) ∨
    ∃ g, signWith? secret digest nonce = some g ∧ SignedWith secret digest nonce g := by
  have hcoordinate : coordinate? (Point.generator.times nonce) = some r := by
    rw [coordinate?_eq (represents_generator.times (hlt.trans (by decide))), hr]
  have hrlt : r < order := by
    rw [abscissa?, Option.map_eq_some_iff] at hr
    obtain ⟨point, -, rfl⟩ := hr
    exact Nat.mod_lt _ (by decide)
  have hsolution := @cast_solution secret digest nonce r (cast_nonce_ne_zero hpos hlt)
  have hsign : signWith? secret digest nonce
      = if r = 0 ∨ solution secret digest nonce r = 0 then none
        else if h : r < order ∧ low (solution secret digest nonce r) < order then
          some ⟨r, low (solution secret digest nonce r), h.1, h.2⟩
        else none := by
    rw [signWith?, if_neg (by omega), hcoordinate]
    rfl
  by_cases hzero : r = 0 ∨ solution secret digest nonce r = 0
  · rw [hsign, if_pos hzero]
    refine .inl ⟨rfl, hzero.imp_right fun hs => ?_⟩
    rw [← hsolution, hs, Nat.cast_zero, zero_mul]
  · obtain ⟨hr0, hs0⟩ := not_or.mp hzero
    obtain ⟨hlow0, hlowlt, hlowle, hlow⟩ := low_spec hs0 (solution_lt ..)
    rw [hsign, if_neg hzero, dif_pos ⟨hrlt, hlowlt⟩]
    refine .inr ⟨_, rfl, hr, hr0, hlow0, hlowle, ?_⟩
    dsimp only
    rw [← hsolution]
    rcases hlow with heq | heq
    · exact .inl (by rw [heq])
    · exact .inr (by rw [heq, neg_mul])

/-- Signing with a nonce gives such a signature. -/
lemma signedWith_of_eq_some (h : signWith? secret digest nonce = some g) :
    SignedWith secret digest nonce g := by
  have hpos : nonce ≠ 0 := by
    rintro rfl
    rw [signWith?, if_pos (.inl rfl)] at h
    exact nomatch h
  have hlt : nonce < order := by
    by_contra hle
    rw [signWith?, if_pos (.inr (not_lt.mp hle))] at h
    exact nomatch h
  cases hr : abscissa? (nonce • basePoint) with
  | none =>
    have hcoordinate : coordinate? (Point.generator.times nonce) = none := by
      rw [coordinate?_eq (represents_generator.times (hlt.trans (by decide))), hr]
    rw [signWith?, if_neg (by omega), hcoordinate] at h
    exact nomatch h
  | some r =>
    rcases signWith?_cases hpos hlt hr with ⟨hnone, -⟩ | ⟨g', hg', hsigned⟩
    · rw [h] at hnone
      exact nomatch hnone
    · rw [h] at hg'
      rwa [Option.some.inj hg']

/-! ## Checking -/

/-- What is signed with a nonce fits the point of the secret number. -/
theorem check_of_signedWith {digest' : ℕ} {key : Point}
    (hdigest : (digest' : ZMod order) = digest) (hkey : key.Represents (secret • basePoint))
    (h : SignedWith secret digest nonce g) : check digest' g key = true := by
  have hs : (g.s : ZMod order) ≠ 0 := cast_nonce_ne_zero h.s_ne_zero g.s_lt
  have hwidth : ∀ m, m % order < 2 ^ 256 := fun m =>
    (Nat.mod_lt m (by decide)).trans (by decide)
  -- Checking computes a multiple of the generator: the nonce, up to its sign.
  have hsum := (represents_generator.times (hwidth (digest' * inverse order g.s))).add
    (hkey.times (hwidth (g.r * inverse order g.s)))
  rw [← mul_nsmul, ← add_nsmul] at hsum
  have hfactor : ((digest' * inverse order g.s % order
        + secret * (g.r * inverse order g.s % order) : ℕ) : ZMod order)
      = (g.s : ZMod order)⁻¹ * (digest + g.r * secret) := by
    rw [Nat.cast_add, Nat.cast_mul, ZMod.natCast_mod, ZMod.natCast_mod, Nat.cast_mul, Nat.cast_mul,
      cast_inverse_order, hdigest]
    ring
  have hpoint : abscissa? ((digest' * inverse order g.s % order
      + secret * (g.r * inverse order g.s % order)) • basePoint) = some g.r := by
    rcases h.equation with heq | heq
    · rw [← heq, inv_mul_cancel_left₀ hs] at hfactor
      rw [nsmul_basePoint_eq_iff.mpr hfactor, h.abscissa]
    · rw [← neg_eq_iff_eq_neg.mpr heq, mul_neg, inv_mul_cancel_left₀ hs] at hfactor
      rw [nsmul_basePoint_eq_neg hfactor, abscissa?_neg, h.abscissa]
  have hlow : ¬ (g.r = 0 ∨ g.s = 0 ∨ order / 2 < g.s) := by
    rintro (hr | hs | hhigh)
    · exact h.r_ne_zero hr
    · exact h.s_ne_zero hs
    · exact absurd h.s_le (not_le.mpr hhigh)
  rw [check, if_neg hlow]
  dsimp only
  rw [coordinate?_eq hsum, hpoint]
  exact beq_self_eq_true _

/-! ## Drawing nonces -/

/-- The first number that is accepted is accepted. -/
lemma exists_of_first? {α : Type} {attempt : ℕ → Option α} {tries : ℕ} {generator : Nonce.Generator}
    {result : α} (h : Nonce.first? attempt tries generator = some result) :
    ∃ drawn, attempt drawn = some result := by
  induction tries generalizing generator with
  | zero => exact nomatch h
  | succ tries ih =>
    rw [Nonce.first?] at h
    split at h
    · rename_i found hfound
      rw [← Option.some.inj h]
      exact ⟨_, hfound⟩
    · exact ih h

/-- The first coordinate of the generator's double. -/
def doubleX : ℕ := 0xC6047F9441ED7D6D3045406E95C07CD85C778E4B8CEF3CA7ABAC09B95C709EE5

lemma abscissa?_one : abscissa? (1 • basePoint) = some Point.generator.x := by
  have hmultiple : (Point.times 1 Point.generator).Represents (1 • basePoint) :=
    represents_generator.times (by decide)
  rw [← coordinate?_eq hmultiple]
  decide +kernel

lemma abscissa?_two : abscissa? (2 • basePoint) = some doubleX := by
  have hmultiple : (Point.times 2 Point.generator).Represents (2 • basePoint) :=
    represents_generator.times (by decide)
  rw [← coordinate?_eq hmultiple]
  decide +kernel

/-- One of the first two nonces signs: their points have different first coordinates, so no digest
gives a zero with both. -/
lemma isSome_of_fixed (hsecret : (secret : ZMod order) ≠ 0) :
    ((signWith? secret digest 1).or (signWith? secret digest 2)).isSome = true := by
  rcases @signWith?_cases secret digest 1 _ (by decide) (by decide) abscissa?_one with
    ⟨hone, hzero⟩ | ⟨g, hone, -⟩
  · rcases @signWith?_cases secret digest 2 _ (by decide) (by decide) abscissa?_two with
      ⟨-, hzero'⟩ | ⟨g, htwo, -⟩
    · have hequation := hzero.resolve_left (by decide)
      have hequation' := hzero'.resolve_left (by decide)
      have hproduct : ((Point.generator.x : ZMod order) - doubleX) * secret = 0 := by
        linear_combination hequation - hequation'
      have hsame := sub_eq_zero.mp ((mul_eq_zero.mp hproduct).resolve_right hsecret)
      rw [ZMod.natCast_eq_natCast_iff'] at hsame
      exact absurd hsame (by decide)
    · rw [hone, htwo]
      rfl
  · rw [hone]
    rfl

/-- A digest is signed with some nonce. -/
lemma exists_signWith?_eq (hsecret : (secret : ZMod order) ≠ 0) (digest : List UInt8) :
    ∃ nonce, signWith? secret (Bytes.number digest % order) nonce = some (sign secret digest) := by
  rw [sign]
  generalize hdrawn : Nonce.first? _ _ _ = drawn
  cases drawn with
  | some g => exact exists_of_first? hdrawn
  | none =>
    obtain ⟨g, hg⟩ := Option.isSome_iff_exists.mp (isSome_of_fixed hsecret)
    rw [Option.none_or, hg, Option.getD_some]
    rcases Option.or_eq_some_iff.mp hg with hone | ⟨-, htwo⟩
    · exact ⟨1, hone⟩
    · exact ⟨2, htwo⟩

/-- The signature of a digest under a secret number fits the digest and the number's point. -/
theorem check_sign {key : Point} (hpos : 0 < secret) (hlt : secret < order)
    (hkey : key.Represents (secret • basePoint)) (digest : List UInt8) :
    check (Bytes.number digest) (sign secret digest) key = true := by
  obtain ⟨nonce, hnonce⟩ := exists_signWith?_eq (cast_nonce_ne_zero hpos.ne' hlt) digest
  exact check_of_signedWith (ZMod.natCast_mod _ _).symm hkey (signedWith_of_eq_some hnonce)

/-! ## Signatures as bytes -/

/-- A signature is read back from its 64 bytes. -/
theorem Signature.ofBytes?_bytes (g : Signature) : ofBytes? g.bytes = some g := by
  have hwidth : order < 256 ^ 32 := by decide
  have htake : g.bytes.take 32 = Bytes.ofNumber 32 g.r :=
    List.take_left' (Bytes.length_ofNumber 32 g.r)
  have hdrop : g.bytes.drop 32 = Bytes.ofNumber 32 g.s :=
    List.drop_left' (Bytes.length_ofNumber 32 g.r)
  have hfirst : Bytes.number (Bytes.ofNumber 32 g.r) = g.r :=
    Bytes.number_ofNumber (g.r_lt.trans hwidth)
  have hsecond : Bytes.number (Bytes.ofNumber 32 g.s) = g.s :=
    Bytes.number_ofNumber (g.s_lt.trans hwidth)
  simp only [ofBytes?, htake, hdrop, hfirst, hsecond, g.r_lt, g.s_lt, and_self, dite_true]

end Admission.Crypto.Ecdsa
