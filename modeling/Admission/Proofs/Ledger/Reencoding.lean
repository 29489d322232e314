import Admission.Proofs.Crypto.LowForm
import Admission.Proofs.Key
import Admission.Proofs.Ledger.Replay

/-!
# Signatures written anew

The ledger remembers signatures by their bytes, while the equation of the curve has several pairs of
numbers for one signature. The signature of an accepted transaction was verified, and is recorded.
As verified signatures are in low form, bytes that write the same numbers up to the sign of the
second one are the same bytes, which the ledger finds recorded, or no signature at all
(`Ledger.no_second_form`).
-/

namespace Admission

open Admission.Crypto.Ecdsa Admission.Text

namespace Ledger

/-! ## Other forms are never accepted -/

/-- What the manager of secp256k1 verifies has 64 bytes, of which the first half writes a number of
the group other than zero, and the second half one of its lower half. So in a run with this manager,
once a transaction is accepted, none is accepted whose signature writes the same two numbers modulo
the group order, the second one up to its sign: neither the same bytes nor any others. -/
theorem no_second_form :
    (∀ (payload bytes : List UInt8) (key : VerificationKey),
      KeyManager.secp256k1.verify payload bytes key = .ok true → LowForm bytes) ∧
    ∀ (start : Ledger) (requests : List Request),
      (∀ v manager tx, Request.submit v manager tx ∈ requests → manager = .secp256k1) →
      ∀ tx ∈ start.accepted requests, ∀ bytes, tx.signature = some bytes →
        ∀ (v : Validator) (again : Transaction) (bytes' : List UInt8),
          again.signature = some bytes' →
          WritesUpToSign bytes' (firstHalf bytes) (secondHalf bytes) →
          ∀ type, ((start.after requests).perform (.submit v .secp256k1 again)).1
            ≠ .verdict (.ok type) := by
  refine ⟨fun payload bytes key h => lowForm_of_verify h, ?_⟩
  intro start requests hmanager tx htx bytes hbytes v again bytes' hbytes' hwrites type hanswer
  obtain ⟨w, manager, payload, own, key, hmem, hown, hverify, hrecorded⟩ :=
    exists_of_mem_accepted htx
  rw [hbytes] at hown
  injection hown with hown
  rw [hmanager w manager tx hmem, ← hown] at hverify
  rw [perform, submit_fst] at hanswer
  injection hanswer with hok
  obtain ⟨key', own', payload', -, hown', hnew, -, hverify', -⟩ :=
    Validator.validate_eq_ok_iff.mp hok
  rw [hbytes'] at hown'
  injection hown' with hown'
  rw [← hown'] at hverify' hnew
  -- Both were verified, so they are the same bytes, and those are recorded already.
  have hsame : bytes' = bytes :=
    (lowForm_of_verify hverify).eq_of_writesUpToSign (lowForm_of_verify hverify') hwrites
  rw [hsame, hown] at hnew
  exact absurd (hnew.symm.trans hrecorded) Bool.false_ne_true

/-- The owner of the smallest secret key asks for the total supply. Its request is accepted; the
same request with the opposite of the signature's second number, sent under another number, is not.
-/
theorem no_second_form_supply :
    let key : SecretKey := ⟨1, by decide, by decide⟩
    let client : Client := .ofKey 1 key.verificationKey
    let l : Ledger := { Ledger.empty with registry := ⟨[client], List.nodup_singleton _⟩ }
    let tx : Transaction := .plain 1 client.address (.native .totalSupply)
    ∃ signed bytes, tx.sign .legacy key = .ok signed ∧ signed.signature = some bytes ∧
      l.accepted [.submit ⟨.legacy⟩ .secp256k1 signed] = [signed] ∧
      let opposite := Bytes.ofNumber 32 (Crypto.Secp256k1.order - secondHalf bytes)
      let again : Transaction := { signed with
        id := 2, signature := some (bytes.take 32 ++ opposite) }
      ∀ type, ((l.after [.submit ⟨.legacy⟩ .secp256k1 signed]).perform
        (.submit ⟨.legacy⟩ .secp256k1 again)).1 ≠ .verdict (.ok type) := by
  intro key client l tx
  have hselector : TransactionType.totalSupply.name ≠ "" := by decide
  obtain ⟨payload, hpayload⟩ : ∃ payload, tx.payload .legacy = .ok payload :=
    Transaction.exists_payload_iff.mpr ⟨hselector, fun a ha => nomatch ha⟩
  have hsigned : tx.sign .legacy key = .ok (tx.withSignature (key.sign payload)) := by
    rw [Transaction.sign, hpayload]
    rfl
  have hverify := key.verify_sign payload
  have hbytes : (tx.withSignature (key.sign payload)).signature = some (key.sign payload) := rfl
  have hok : (Validator.mk .legacy).validate l.view .secp256k1
      (tx.withSignature (key.sign payload)) = .ok .totalSupply :=
    validate_of_client rfl (List.mem_singleton_self client) rfl hbytes hpayload (.inl rfl) rfl
      hverify
  have haccepted : l.accepted [.submit ⟨.legacy⟩ .secp256k1 (tx.withSignature (key.sign payload))]
      = [tx.withSignature (key.sign payload)] := by
    rw [accepted, perform, submit_fst, hok]
    rfl
  refine ⟨tx.withSignature (key.sign payload), key.sign payload, hsigned, rfl, haccepted, ?_⟩
  intro opposite again
  refine no_second_form.2 l _ ?_ (tx.withSignature (key.sign payload)) ?_ _ rfl _ again _ rfl
    (lowForm_of_verify hverify).writesUpToSign_opposite
  · intro v manager tx' hmem
    injection List.mem_singleton.mp hmem
  · rw [haccepted]
    exact List.mem_singleton_self _

end Ledger

end Admission
