import Admission.Proofs.Key
import Admission.Proofs.Ledger.Verdict
import Admission.Proofs.Outcome

/-!
# Signing in place

Signing writes once, at its end. Either there is no payload, and the transaction stays as it was
with whatever signature it had, or it gets a new signature and keeps everything else
(`Transaction.run_signHere`). The step from payload to signature cannot fail, since a digest has the
length of a message (`SecretKey.signDigest_digest`).
-/

namespace Admission

open Admission.Crypto

/-- A digest can always be signed. -/
lemma SecretKey.signDigest_digest (key : SecretKey) (message : List UInt8) :
    key.signDigest (Sha256.digest message) = .ok (key.sign message) := by
  rw [signDigest, Ecdsa.Message.ofDigest?_digest]
  rfl

namespace Transaction

variable (scheme : SigningScheme) (key : SecretKey) (tx : Transaction)

/-- Signing in place ends with the transaction that signing gives, or where it began. -/
theorem run_signHere :
    (signHere scheme key).run tx = match tx.sign scheme key with
      | .ok signed => .ok () signed
      | .error fault => .error (.encoding fault) tx := by
  let finish (payload : List UInt8) : EStateM Error Transaction Unit := do
    let signature ← ofExcept ((key.signDigest (Sha256.digest payload)).mapError .crypto)
    set (tx.withSignature signature)
  have hfinish (payload : List UInt8) :
      (finish payload).run tx = .ok () (tx.withSignature (key.sign payload)) := by
    rw [run_ofExcept_bind, key.signDigest_digest]
    rfl
  show (ofExcept ((tx.payload scheme).mapError .encoding) >>= finish).run tx = _
  rw [run_ofExcept_bind, sign]
  cases tx.payload scheme with
  | error fault => rfl
  | ok payload => exact hfinish payload

/-- Signing in place fails for want of a payload, that is of a selector or a finite amount, and then
leaves the transaction as it is, an earlier signature included. Else it changes nothing but the
signature, to 64 bytes that the key verifies for the payload; and that payload is the signed
transaction's as it was the unsigned one's. -/
theorem signHere_all_or_nothing :
    ((tx.operation.selector = "" ∨ ∃ a, tx.tokenAmount? = some a ∧ a.value.isFinite = false) ↔
      ∃ fault, tx.payload scheme = .error fault ∧
        (signHere scheme key).run tx = .error (.encoding fault) tx) ∧
    ((tx.operation.selector ≠ "" ∧ ∀ a, tx.tokenAmount? = some a → a.value.isFinite = true) ↔
      ∃ payload bytes, (signHere scheme key).run tx = .ok () { tx with signature := some bytes } ∧
        tx.payload scheme = .ok payload ∧
        { tx with signature := some bytes }.payload scheme = .ok payload ∧ bytes.length = 64 ∧
        KeyManager.secp256k1.verify payload bytes key.verificationKey = .ok true) := by
  constructor
  · rw [← @exists_payload_eq_error_iff scheme]
    refine exists_congr fun fault => (and_iff_left_of_imp fun hfault => ?_).symm
    rw [run_signHere, sign, hfault]
    rfl
  · show tx.HasPayload ↔ _
    rw [← @exists_payload_iff scheme]
    refine exists_congr fun payload => ⟨fun hpayload => ?_, fun ⟨_, _, hpayload, _⟩ => hpayload⟩
    refine ⟨key.sign payload, ?_, hpayload, ?_, Ecdsa.Signature.length_bytes _,
      key.verify_sign payload⟩
    · rw [run_signHere, sign, hpayload]
      rfl
    · exact (payload_withSignature scheme tx _).trans hpayload

/-- An earlier signature outlives an attempt to sign what has no selector. -/
example : (signHere .legacy ⟨1, by decide, by decide⟩).run
      ((plain 1 ⟨List.replicate 20 0, rfl⟩ (.call "")).withSignature [7])
    = .error (.encoding .emptySelector)
      ((plain 1 ⟨List.replicate 20 0, rfl⟩ (.call "")).withSignature [7]) := rfl

end Transaction

end Admission
