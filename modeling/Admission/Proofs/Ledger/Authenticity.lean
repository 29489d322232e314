import Admission.Proofs.Crypto.LowForm
import Admission.Proofs.Key
import Admission.Proofs.Ledger.Verdict

/-!
# Malformed and not matching

A signature that does not fit is told apart from one that cannot be checked. Whether a signature
can be checked against a key is a matter of their bytes alone (`WellFormed`), and if it cannot, the
first thing that is wrong with them is reported (`Malformed`); the payload has no part in either
(`checkSignature_eq_error_iff`). To the engine both kinds are signatures that are not the sender's
(`Validator.validate_eq_unauthenticated_iff`).
-/

namespace Admission

open Admission.Text Admission.Crypto Admission.Crypto.Ecdsa Admission.Crypto.Secp256k1

/-! ## What can be checked -/

/-- A key and a signature that can be understood: a point of the curve in short and two numbers
below the group order. -/
structure WellFormed (key : VerificationKey) (signature : List UInt8) : Prop where
  key_length : key.bytes.length = 33
  signature_length : signature.length = 64
  key_compressed : IsCompressed key.bytes
  first_lt : firstHalf signature < order
  second_lt : secondHalf signature < order

/-- The first thing that is wrong with a key and a signature: the length of the key, the length of
the signature, the key's point, the signature's numbers. -/
inductive Malformed (key : VerificationKey) (signature : List UInt8) : CryptoFault → Prop
  | keyLength (h : key.bytes.length ≠ 33) : Malformed key signature (.keyLength key.bytes.length)
  | signatureLength (hkey : key.bytes.length = 33) (h : signature.length ≠ 64) :
      Malformed key signature (.signatureLength signature.length)
  | key (hkey : key.bytes.length = 33) (hsignature : signature.length = 64)
      (h : ¬ IsCompressed key.bytes) : Malformed key signature .keyMalformed
  | signature (hkey : key.bytes.length = 33) (hsignature : signature.length = 64)
      (hpoint : IsCompressed key.bytes)
      (h : order ≤ firstHalf signature ∨ order ≤ secondHalf signature) :
      Malformed key signature .signatureMalformed

variable {key : VerificationKey} {signature payload : List UInt8}

/-- Something is wrong with a key and a signature that cannot be understood. -/
lemma exists_malformed_of_not_wellFormed (h : ¬ WellFormed key signature) :
    ∃ fault, Malformed key signature fault := by
  by_cases hkey : key.bytes.length = 33
  · by_cases hsignature : signature.length = 64
    · by_cases hpoint : IsCompressed key.bytes
      · by_cases hfirst : firstHalf signature < order
        · have hsecond : order ≤ secondHalf signature := by
            by_contra hlt
            exact h ⟨hkey, hsignature, hpoint, hfirst, not_le.mp hlt⟩
          exact ⟨_, .signature hkey hsignature hpoint (.inr hsecond)⟩
        · exact ⟨_, .signature hkey hsignature hpoint (.inl (not_lt.mp hfirst))⟩
      · exact ⟨_, .key hkey hsignature hpoint⟩
    · exact ⟨_, .signatureLength hkey hsignature⟩
  · exact ⟨_, .keyLength hkey⟩

/-- Nothing is wrong with a key and a signature exactly if they can be understood. -/
theorem exists_malformed_iff : (∃ fault, Malformed key signature fault) ↔
    key.bytes.length ≠ 33 ∨ signature.length ≠ 64 ∨ ¬ IsCompressed key.bytes ∨
      order ≤ firstHalf signature ∨ order ≤ secondHalf signature := by
  constructor
  · rintro ⟨_, h | ⟨-, h⟩ | ⟨-, -, h⟩ | ⟨-, -, -, h⟩⟩
    · exact .inl h
    · exact .inr (.inl h)
    · exact .inr (.inr (.inl h))
    · exact .inr (.inr (.inr h))
  · intro h
    apply exists_malformed_of_not_wellFormed
    rintro ⟨hkey, hsignature, hpoint, hfirst, hsecond⟩
    rcases h with h | h | h | h | h
    · exact h hkey
    · exact h hsignature
    · exact h hpoint
    · exact absurd hfirst (not_lt.mpr h)
    · exact absurd hsecond (not_lt.mpr h)

/-! ## What is reported -/

/-- What is wrong with a key and a signature is reported, whatever the payload. -/
lemma checkSignature_of_malformed {fault : CryptoFault} (h : Malformed key signature fault)
    (payload : List UInt8) : checkSignature payload signature key = .error fault := by
  rw [checkSignature, Message.ofDigest?_digest]
  cases h with
  | keyLength h => rw [if_pos h]
  | signatureLength hkey h => rw [if_neg (not_not.mpr hkey), if_pos h]
  | key hkey hsignature h =>
    have hpoint : pointOfBytes? key.bytes = none := by
      rw [← Option.not_isSome_iff_eq_none, isSome_pointOfBytes?_iff]
      exact h
    rw [if_neg (not_not.mpr hkey), if_neg (not_not.mpr hsignature), hpoint]
  | signature hkey hsignature hcompressed h =>
    obtain ⟨point, hpoint⟩ :=
      Option.isSome_iff_exists.mp (isSome_pointOfBytes?_iff.mpr hcompressed)
    have hnumbers : Signature.ofBytes? signature = none := by
      rw [← Option.not_isSome_iff_eq_none, isSome_ofBytes?_iff]
      omega
    rw [if_neg (not_not.mpr hkey), if_neg (not_not.mpr hsignature), hpoint, hnumbers]

/-- A signature is checked if it can be, whatever the payload. -/
lemma exists_checkSignature_of_wellFormed (h : WellFormed key signature) (payload : List UInt8) :
    ∃ fits, checkSignature payload signature key = .ok fits := by
  obtain ⟨point, hpoint⟩ :=
    Option.isSome_iff_exists.mp (isSome_pointOfBytes?_iff.mpr h.key_compressed)
  obtain ⟨g, hg⟩ :=
    Option.isSome_iff_exists.mp (isSome_ofBytes?_iff.mpr ⟨h.first_lt, h.second_lt⟩)
  exact ⟨_, checkSignature_eq_ok_iff.mpr
    ⟨h.key_length, h.signature_length, point, g, hpoint, hg, rfl⟩⟩

/-- A fault is reported exactly if it is the first thing that is wrong. -/
theorem checkSignature_eq_error_iff {fault : CryptoFault} :
    checkSignature payload signature key = .error fault ↔ Malformed key signature fault := by
  refine ⟨fun h => ?_, fun h => checkSignature_of_malformed h payload⟩
  by_cases hform : WellFormed key signature
  · obtain ⟨fits, hfits⟩ := exists_checkSignature_of_wellFormed hform payload
    rw [hfits] at h
    cases h
  · obtain ⟨cause, hcause⟩ := exists_malformed_of_not_wellFormed hform
    rw [checkSignature_of_malformed hcause payload] at h
    cases h
    exact hcause

/-- The key's length comes first. -/
example : checkSignature [] (List.replicate 64 255) ⟨[1, 2, 3]⟩ = .error (.keyLength 3) := rfl

/-- An answer is given exactly if key and signature can be understood. -/
theorem exists_checkSignature_iff :
    (∃ fits, checkSignature payload signature key = .ok fits) ↔ WellFormed key signature := by
  refine ⟨?_, fun h => exists_checkSignature_of_wellFormed h payload⟩
  rintro ⟨fits, hfits⟩
  by_contra hform
  obtain ⟨fault, hfault⟩ := exists_malformed_of_not_wellFormed hform
  rw [checkSignature_of_malformed hfault payload] at hfits
  cases hfits

/-! ## What the engine makes of it -/

namespace Validator

variable {v : Validator} {view : View} {manager : KeyManager} {tx : Transaction}

/-- The engine asks the key manager: the sender has a key, the signature is there and new, and
there is a payload. -/
structure Consults (v : Validator) (view : View) (tx : Transaction) (key : VerificationKey)
    (signature payload : List UInt8) : Prop where
  key_eq : view.key? tx.sender = some key
  signature_eq : tx.signature = some signature
  isReplayed_eq : view.isReplayed (String.ofList (Base64.encode signature)) = false
  payload_eq : tx.payload v.scheme = .ok payload

/-- Of the gates only the signature's rejects a signature as not the sender's. -/
lemma validate_eq_unauthenticated_iff {fault : SignatureFault} :
    v.validate view manager tx = .error (.unauthenticated fault) ↔
      ∃ key signature, view.key? tx.sender = some key ∧ tx.signature = some signature ∧
        view.isReplayed (String.ofList (Base64.encode signature)) = false ∧
        v.authenticate manager key signature tx = .error (.unauthenticated fault) := by
  constructor
  · intro h
    cases hkey : view.key? tx.sender with
    | none => simp [validate, hkey] at h
    | some key =>
      cases hsignature : tx.signature with
      | none => simp [validate, hkey, hsignature] at h
      | some signature =>
        by_cases hseen : view.isReplayed (String.ofList (Base64.encode signature)) = true
        · simp [validate, hkey, hsignature, hseen] at h
        · have hnew := Bool.eq_false_iff.mpr hseen
          refine ⟨key, signature, rfl, rfl, hnew, ?_⟩
          rcases (validate_eq_error_iff_of_new hkey hsignature hnew).mp h with h | ⟨-, h | h⟩
          · exact h
          · obtain ⟨_, -, -, hreason⟩ := Operation.resolve_eq_error_iff.mp h
            cases hreason
          · obtain ⟨type, -, h⟩ := h
            rcases Transaction.checkArguments_eq_error_iff.mp h with ⟨-, hreason⟩ | ⟨-, -, hreason⟩
            all_goals cases hreason
  · rintro ⟨key, signature, hkey, hsignature, hnew, h⟩
    exact (validate_eq_error_iff_of_new hkey hsignature hnew).mpr (.inl h)

/-- If it is not for want of a payload, a signature is taken for none of the sender's exactly where
the key manager was asked and says no or reports a fault. -/
lemma validate_eq_unauthenticated_iff_consults {fault : SignatureFault}
    (hpayload : ∀ cause, fault ≠ .noPayload cause) :
    v.validate view manager tx = .error (.unauthenticated fault) ↔
      ∃ key signature payload, v.Consults view tx key signature payload ∧
        ((manager.verify payload signature key = .ok false ∧ fault = .mismatch) ∨
          ∃ cause, manager.verify payload signature key = .error cause ∧
            fault = .uncheckable cause) := by
  simp only [validate_eq_unauthenticated_iff, authenticate_eq_error_iff,
    Rejection.unauthenticated.injEq]
  constructor
  · rintro ⟨key, signature, hkey, hsignature, hnew, ⟨cause, -, h⟩ | ⟨payload, hbytes, h⟩⟩
    · exact absurd h (hpayload cause)
    · exact ⟨key, signature, payload, ⟨hkey, hsignature, hnew, hbytes⟩, h⟩
  · rintro ⟨key, signature, payload, ⟨hkey, hsignature, hnew, hbytes⟩, h⟩
    exact ⟨key, signature, hkey, hsignature, hnew, .inr ⟨payload, hbytes, h⟩⟩

/-- A signature does not match where the key manager was asked and says so. -/
lemma validate_eq_mismatch_iff :
    v.validate view manager tx = .error (.unauthenticated .mismatch) ↔
      ∃ key signature payload, v.Consults view tx key signature payload ∧
        manager.verify payload signature key = .ok false := by
  simp [validate_eq_unauthenticated_iff_consults]

/-- A signature cannot be checked where the key manager was asked and reports a fault. -/
lemma validate_eq_uncheckable_iff {fault : CryptoFault} :
    v.validate view manager tx = .error (.unauthenticated (.uncheckable fault)) ↔
      ∃ key signature payload, v.Consults view tx key signature payload ∧
        manager.verify payload signature key = .error fault := by
  simp [validate_eq_unauthenticated_iff_consults]

end Validator

/-- What the key manager reports is the first thing that is wrong with key and signature, and it
gives an answer exactly if nothing is; neither depends on the payload. The engine takes a no as it
takes a report: the signature is not the sender's. -/
theorem KeyManager.secp256k1_separates_malformed :
    (∀ payload signature key fault,
      secp256k1.verify payload signature key = .error fault ↔ Malformed key signature fault) ∧
    (∀ payload signature key,
      (∃ fault, secp256k1.verify payload signature key = .error fault) ↔
        key.bytes.length ≠ 33 ∨ signature.length ≠ 64 ∨ ¬ IsCompressed key.bytes ∨
          order ≤ firstHalf signature ∨ order ≤ secondHalf signature) ∧
    (∀ payload signature key,
      (∃ fits, secp256k1.verify payload signature key = .ok fits) ↔ WellFormed key signature) ∧
    (∀ payload payload' signature key fault,
      secp256k1.verify payload signature key = .error fault ↔
        secp256k1.verify payload' signature key = .error fault) ∧
    ∀ (manager : KeyManager) (v : Validator) (view : View) (tx : Transaction),
      (v.validate view manager tx = .error (.unauthenticated .mismatch) ↔
        ∃ key signature payload, v.Consults view tx key signature payload ∧
          manager.verify payload signature key = .ok false) ∧
      ∀ fault, v.validate view manager tx = .error (.unauthenticated (.uncheckable fault)) ↔
        ∃ key signature payload, v.Consults view tx key signature payload ∧
          manager.verify payload signature key = .error fault := by
  have hreport : ∀ payload signature key fault,
      secp256k1.verify payload signature key = .error fault ↔ Malformed key signature fault :=
    fun _ _ _ _ => checkSignature_eq_error_iff
  refine ⟨hreport, ?_, fun _ _ _ => exists_checkSignature_iff, ?_, ?_⟩
  · intro payload signature key
    rw [← exists_malformed_iff]
    exact exists_congr fun fault => hreport payload signature key fault
  · intro payload payload' signature key fault
    rw [hreport, hreport]
  · intro manager v view tx
    exact ⟨Validator.validate_eq_mismatch_iff, fun _ => Validator.validate_eq_uncheckable_iff⟩

end Admission
