import Admission.Key
import Admission.Proofs.Crypto.Ecdsa

/-!
# Keys that belong together

The point of a secret key is written in 33 bytes and read back from them
(`pointOfBytes?_compressed`), so the key manager takes what a secret key signs for the verification
key that belongs to it, whatever the message (`SecretKey.verify_sign`).
-/

namespace Admission

open Admission.Crypto Admission.Crypto.Secp256k1

/-! ## Points as bytes -/

lemma length_compressed (point : ℕ × ℕ) : (compressed point).length = 33 := by
  rw [compressed, List.length_cons, Bytes.length_ofNumber]

/-- A point is read back from its 33 bytes. -/
theorem pointOfBytes?_compressed {X Y : Residue} (h : curve.Nonsingular X Y) :
    pointOfBytes? (compressed (X.val, Y.val)) = some ⟨X.val, Y.val, 1⟩ := by
  have hx : Bytes.number (Bytes.ofNumber 32 X.val) = X.val :=
    Bytes.number_ofNumber ((ZMod.val_lt X).trans (by decide))
  have hpoint := Point.ofX?_eq h
  rw [compressed]
  by_cases hodd : Y.val % 2 = 1
  · rw [hodd] at hpoint
    simp only [if_pos hodd, pointOfBytes?, hx]
    exact hpoint
  · have heven : Y.val % 2 = 0 := Nat.mod_two_ne_one.mp hodd
    rw [heven] at hpoint
    simp only [if_neg hodd, pointOfBytes?, hx]
    exact hpoint

/-- The bytes write a point of the curve in short: a mark for the parity of `y`, and an `x` below
the field prime for which the curve has a point. -/
def IsCompressed (bytes : List UInt8) : Prop :=
  ∃ mark x, bytes = mark :: x ∧ (mark = 2 ∨ mark = 3) ∧ Bytes.number x < fieldPrime ∧
    ∃ y, y ^ 2 ≡ Bytes.number x ^ 3 + 7 [MOD fieldPrime]

/-- A point is read from bytes that write one. -/
theorem isSome_pointOfBytes?_iff {bytes : List UInt8} :
    (pointOfBytes? bytes).isSome = true ↔ IsCompressed bytes := by
  unfold pointOfBytes?
  split
  · rename_i x
    rw [Point.isSome_ofX?_iff]
    exact ⟨fun h => ⟨2, x, rfl, .inl rfl, h⟩, fun ⟨_, _, hbytes, _, h⟩ => by
      obtain ⟨-, rfl⟩ := List.cons.inj hbytes
      exact h⟩
  · rename_i x
    rw [Point.isSome_ofX?_iff]
    exact ⟨fun h => ⟨3, x, rfl, .inr rfl, h⟩, fun ⟨_, _, hbytes, _, h⟩ => by
      obtain ⟨-, rfl⟩ := List.cons.inj hbytes
      exact h⟩
  · rename_i heven hodd
    refine iff_of_false nofun ?_
    rintro ⟨mark, x, rfl, rfl | rfl, -⟩
    · exact heven x rfl
    · exact hodd x rfl

/-! ## Secret keys -/

namespace SecretKey

variable (key : SecretKey)

/-- The point of a secret key is a multiple of the generator. -/
lemma represents_point : key.point.Represents (key.number • basePoint) :=
  represents_generator.times (key.lt_order.trans (by decide))

/-- The point of a secret key is not infinity. -/
lemma exists_point : ∃ X Y h, key.number • basePoint = .some X Y h := by
  have hne : key.number • basePoint ≠ 0 := by
    rw [ne_eq, Ecdsa.nsmul_basePoint_eq_zero_iff]
    exact Ecdsa.cast_nonce_ne_zero key.pos.ne' key.lt_order
  cases hpoint : key.number • basePoint with
  | zero => exact absurd hpoint hne
  | some X Y h => exact ⟨X, Y, h, rfl⟩

/-- The point of a secret key is read from the bytes of its verification key. -/
theorem exists_pointOfBytes? :
    key.verificationKey.bytes.length = 33 ∧ ∃ point,
      pointOfBytes? key.verificationKey.bytes = some point ∧
        point.Represents (key.number • basePoint) := by
  obtain ⟨X, Y, h, hpoint⟩ := key.exists_point
  have haffine : key.point.affine? = some (X.val, Y.val) := by
    rw [key.represents_point.affine?_eq, hpoint]
    rfl
  have hbytes : key.verificationKey.bytes = compressed (X.val, Y.val) := by
    rw [verificationKey, haffine]
    rfl
  refine ⟨by rw [hbytes, length_compressed], ⟨X.val, Y.val, 1⟩, ?_, ?_⟩
  · rw [hbytes, pointOfBytes?_compressed h]
  · rw [hpoint]
    exact .affine h (by simp) (by simp) (by simp)

/-- What a secret key signs fits the verification key that belongs to it. -/
theorem verify_sign (message : List UInt8) :
    KeyManager.secp256k1.verify message (key.sign message) key.verificationKey = .ok true := by
  obtain ⟨hlength, point, hpoint, hrepresents⟩ := key.exists_pointOfBytes?
  show checkSignature message (key.sign message) key.verificationKey = .ok true
  exact checkSignature_eq_ok_iff.mpr ⟨hlength, Ecdsa.Signature.length_bytes _, point, _, hpoint,
    Ecdsa.Signature.ofBytes?_bytes _, Ecdsa.check_sign key.pos key.lt_order hrepresents _⟩

end SecretKey

end Admission
