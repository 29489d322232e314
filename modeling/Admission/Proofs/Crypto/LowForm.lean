import Admission.Key
import Mathlib.Data.Nat.ModEq

/-!
# One form for each signature

Of a signature's two numbers, `r` and `s`, the second may be replaced by its opposite modulo the
group order without changing what the equation of the curve says, and either may be raised by the
order. None of these other forms is a signature here: what the key manager verifies is in low form
(`lowForm_of_verify`), and bytes in low form are determined by `r` modulo the order and by `s` up to
its sign (`LowForm.eq_of_writesUpToSign`).
-/

namespace Admission.Crypto.Ecdsa

open Secp256k1

/-! ## Low form -/

/-- The number that the first half of a signature writes. -/
def firstHalf (bytes : List UInt8) : ℕ :=
  Bytes.number (bytes.take 32)

/-- The number that the second half of a signature writes. -/
def secondHalf (bytes : List UInt8) : ℕ :=
  Bytes.number (bytes.drop 32)

/-- The bytes are 64, and write two numbers of the group other than zero, the second one of its
lower half. -/
structure LowForm (bytes : List UInt8) : Prop where
  length_eq : bytes.length = 64
  r_pos : 1 ≤ firstHalf bytes
  r_lt : firstHalf bytes < order
  s_pos : 1 ≤ secondHalf bytes
  s_le : secondHalf bytes ≤ (order - 1) / 2

/-- A signature is read from the halves of its bytes. -/
lemma eq_halves_of_ofBytes? {bytes : List UInt8} {g : Signature}
    (h : Signature.ofBytes? bytes = some g) : g.r = firstHalf bytes ∧ g.s = secondHalf bytes := by
  unfold Signature.ofBytes? at h
  dsimp only at h
  split at h
  · injection h with hg
    rw [← hg]
    exact ⟨rfl, rfl⟩
  · cases h

/-- A signature is read from bytes whose halves both write numbers below the order. -/
lemma isSome_ofBytes?_iff {bytes : List UInt8} :
    (Signature.ofBytes? bytes).isSome = true ↔
      firstHalf bytes < order ∧ secondHalf bytes < order := by
  unfold Signature.ofBytes? firstHalf secondHalf
  dsimp only
  split_ifs with h
  · exact iff_of_true rfl h
  · exact iff_of_false nofun h

/-- Checking takes no zero and no high number. -/
lemma range_of_check {digest : ℕ} {g : Signature} {key : Point} (h : check digest g key = true) :
    1 ≤ g.r ∧ 1 ≤ g.s ∧ g.s ≤ (order - 1) / 2 := by
  have hodd : order / 2 = (order - 1) / 2 := by decide
  unfold check at h
  split at h
  · cases h
  · rename_i hrange
    omega

/-- What the key manager verifies, for any payload and key, is in low form. -/
theorem lowForm_of_verify {payload bytes : List UInt8} {key : VerificationKey}
    (h : KeyManager.secp256k1.verify payload bytes key = .ok true) : LowForm bytes := by
  obtain ⟨-, hlength, point, g, -, hg, hcheck⟩ := checkSignature_eq_ok_iff.mp h
  obtain ⟨hr, hs⟩ := eq_halves_of_ofBytes? hg
  obtain ⟨hrpos, hspos, hsle⟩ := range_of_check hcheck
  exact ⟨hlength, hr ▸ hrpos, hr ▸ g.r_lt, hs ▸ hspos, hs ▸ hsle⟩

/-! ## Other forms -/

/-- The bytes write two numbers one after the other, of which the first is `r`, and the second `s`
or its opposite, modulo the group order. Of 64 bytes the numbers are the halves; bytes of another
length may be divided anywhere. -/
def WritesUpToSign (bytes : List UInt8) (r s : ℕ) : Prop :=
  ∃ x y, bytes = x ++ y ∧ (bytes.length = 64 → x.length = 32) ∧
    Bytes.number x ≡ r [MOD order] ∧
    (Bytes.number y ≡ s [MOD order] ∨ Bytes.number y + s ≡ 0 [MOD order])

variable {bytes bytes' : List UInt8}

/-- The same `r` before the opposite of `s` is another form of a signature. -/
lemma LowForm.writesUpToSign_opposite (h : LowForm bytes) :
    WritesUpToSign (bytes.take 32 ++ Bytes.ofNumber 32 (order - secondHalf bytes))
      (firstHalf bytes) (secondHalf bytes) := by
  have hhalf : (order - 1) / 2 ≤ order := by decide
  have hwidth : order < 256 ^ 32 := by decide
  have hlength := h.length_eq
  have hpos := h.s_pos
  have hle := h.s_le
  refine ⟨_, _, rfl, ?_, Nat.ModEq.refl _, .inr ?_⟩
  · intro _
    rw [List.length_take]
    omega
  · rw [Bytes.number_ofNumber (by omega), Nat.sub_add_cancel (by omega)]
    exact Nat.modEq_zero_iff_dvd.mpr (dvd_refl order)

/-- Two numbers of the lower half that are the same up to sign are the same. -/
lemma eq_of_low {s s' : ℕ} (hpos : 1 ≤ s) (hle : s ≤ (order - 1) / 2) (hle' : s' ≤ (order - 1) / 2)
    (h : s' ≡ s [MOD order] ∨ s' + s ≡ 0 [MOD order]) : s' = s := by
  have horder : 2 * ((order - 1) / 2) < order := by decide
  rcases h with hsame | hopposite
  · exact hsame.eq_of_lt_of_lt (by omega) (by omega)
  · -- The sum is positive and below the order, hence no multiple of it.
    have hdvd : order ∣ s' + s := Nat.modEq_zero_iff_dvd.mp hopposite
    have hzero : s' + s = 0 := Nat.eq_zero_of_dvd_of_lt hdvd (by omega)
    omega

/-- Bytes in low form are the only ones that write their numbers, up to sign and modulo the order.
-/
theorem LowForm.eq_of_writesUpToSign (h : LowForm bytes) (h' : LowForm bytes')
    (hwrites : WritesUpToSign bytes' (firstHalf bytes) (secondHalf bytes)) : bytes' = bytes := by
  obtain ⟨x, y, hsplit, hhalf, hr, hs⟩ := hwrites
  have hx : x.length = 32 := hhalf h'.length_eq
  have hfirst : firstHalf bytes' = Bytes.number x := by
    rw [firstHalf, hsplit, List.take_left' hx]
  have hsecond : secondHalf bytes' = Bytes.number y := by
    rw [secondHalf, hsplit, List.drop_left' hx]
  have hrsame : firstHalf bytes' = firstHalf bytes := by
    rw [← hfirst] at hr
    exact hr.eq_of_lt_of_lt h'.r_lt h.r_lt
  have hssame : secondHalf bytes' = secondHalf bytes := by
    rw [← hsecond] at hs
    exact eq_of_low h.s_pos h.s_le h'.s_le hs
  have hlength : bytes'.length = bytes.length := by
    rw [h.length_eq, h'.length_eq]
  have htake : bytes'.take 32 = bytes.take 32 := by
    apply Bytes.eq_of_number_eq
    · rw [List.length_take, List.length_take, hlength]
    · exact hrsame
  have hdrop : bytes'.drop 32 = bytes.drop 32 := by
    apply Bytes.eq_of_number_eq
    · rw [List.length_drop, List.length_drop, hlength]
    · exact hssame
  rw [← List.take_append_drop 32 bytes', htake, hdrop, List.take_append_drop]

end Admission.Crypto.Ecdsa
