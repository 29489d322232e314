import Admission.Proofs.Key
import Admission.Proofs.Ledger.Configured
import Admission.Proofs.Wire.RoundTrip

/-!
# Honest transactions arrive

A client that signs a transaction with the key that the ledger knows has it judged by what it asks
for. What is signed has a JSON text and is read back from it (`Transaction.exists_ofJson_eq`), the
receiver computes the payload that was signed, and the key takes the signature of any payload
(`SecretKey.verify_sign`). So of the gates only those of operation and arguments are left to fail
(`Ledger.submit_of_sign`).
-/

namespace Admission

open Admission.Text

namespace Transaction

variable {scheme : SigningScheme} {key : SecretKey} {tx signed : Transaction}

/-- Signing needs a payload, and changes nothing but the signature. -/
lemma sign_eq_ok_iff :
    tx.sign scheme key = .ok signed ↔
      ∃ payload, tx.payload scheme = .ok payload ∧
        signed = tx.withSignature (key.sign payload) := by
  rw [sign]
  cases tx.payload scheme <;> simp [Except.map, eq_comm (a := signed)]

/-- A transaction can be signed exactly if it has what a payload is made of. -/
lemma exists_sign_iff : (∃ signed, tx.sign scheme key = .ok signed) ↔ tx.HasPayload := by
  have hpayload : (∃ payload, tx.payload scheme = .ok payload) ↔ tx.HasPayload :=
    exists_payload_iff
  rw [← hpayload]
  constructor
  · rintro ⟨signed, hsigned⟩
    obtain ⟨payload, h, -⟩ := sign_eq_ok_iff.mp hsigned
    exact ⟨payload, h⟩
  · rintro ⟨payload, h⟩
    exact ⟨_, sign_eq_ok_iff.mpr ⟨payload, h, rfl⟩⟩

/-- A signed transaction is read back from its JSON text. -/
lemma exists_ofJson_of_sign (h : tx.sign scheme key = .ok signed) :
    ∃ text, signed.toJson = .ok text ∧ ofJson text = .ok signed := by
  obtain ⟨payload, hpayload, rfl⟩ := sign_eq_ok_iff.mp h
  obtain ⟨-, hfinite⟩ := exists_payload_iff.mp ⟨payload, hpayload⟩
  exact exists_ofJson_eq hfinite

/-- What a key signs is authentic for the verification key that belongs to it. -/
lemma authenticate_of_sign (h : tx.sign scheme key = .ok signed) :
    ∃ bytes, signed.signature = some bytes ∧
      (Validator.mk scheme).authenticate .secp256k1 key.verificationKey bytes signed = .ok () := by
  obtain ⟨payload, hpayload, rfl⟩ := sign_eq_ok_iff.mp h
  refine ⟨key.sign payload, rfl, ?_⟩
  exact Validator.authenticate_eq_ok_iff.mpr ⟨payload, hpayload, key.verify_sign payload⟩

end Transaction

namespace Ledger

/-- A transaction that is signed with the key that the ledger knows for its sender has a JSON text
and is read back from it. If its signature is not recorded, it is admitted exactly if its operation
has a type and its arguments are those that the type asks for, and else turned down for the one or
the other. -/
theorem submit_of_sign (l : Ledger) (key : SecretKey) (scheme : SigningScheme)
    (tx signed : Transaction) (hclient : l.view.key? tx.sender = some key.verificationKey)
    (hsigned : tx.sign scheme key = .ok signed) :
    ∃ text signature, signed.toJson = .ok text ∧ Transaction.ofJson text = .ok signed ∧
      signed.signatureText? = some signature ∧ (l.seen.contains signature = false →
        (∀ type, (l.submit ⟨scheme⟩ .secp256k1 signed).1 = .ok type ↔
          l.view.Resolves tx.operation type ∧ tx.checkArguments type = .ok ()) ∧
        ∀ reason, (l.submit ⟨scheme⟩ .secp256k1 signed).1 = .error reason →
          (∃ call, tx.operation = .call call ∧ l.view.type? call = none ∧
            reason = .unknownOperation call) ∨
          ∃ type fault, l.view.Resolves tx.operation type ∧ tx.checkArguments type = .error reason ∧
            reason = .malformedArguments type fault) := by
  obtain ⟨text, htext, hread⟩ := Transaction.exists_ofJson_of_sign hsigned
  obtain ⟨bytes, hbytes, hauth⟩ := Transaction.authenticate_of_sign hsigned
  obtain ⟨payload, -, hsame⟩ := Transaction.sign_eq_ok_iff.mp hsigned
  refine ⟨text, _, htext, hread, Transaction.signatureText?_eq_some_iff.mpr hbytes, ?_⟩
  intro hnew
  -- Neither sender, operation nor arguments depend on the signature.
  have hkey : l.view.key? signed.sender = some key.verificationKey := hsame ▸ hclient
  have hop : signed.operation = tx.operation := hsame ▸ rfl
  have hargs (type : TransactionType) : signed.checkArguments type = tx.checkArguments type :=
    hsame ▸ rfl
  rw [submit_fst]
  refine ⟨fun type => ?_, fun reason h => ?_⟩
  · rw [Validator.validate_eq_ok_iff_of_new hkey hbytes hnew, hop, hargs,
      Operation.resolve_eq_ok_iff]
    exact and_iff_right hauth
  · rw [Validator.validate_eq_error_iff_of_new hkey hbytes hnew, hauth, hop] at h
    rcases h with hfault | ⟨-, hresolve | ⟨type, hresolve, hfault⟩⟩
    · exact nomatch hfault
    · exact .inl (Operation.resolve_eq_error_iff.mp hresolve)
    · rw [hargs] at hfault
      have htype := Operation.resolve_eq_ok_iff.mp hresolve
      rcases Transaction.checkArguments_eq_error_iff.mp hfault with ⟨-, rfl⟩ | ⟨-, -, rfl⟩
      · exact .inr ⟨type, _, htype, hfault, rfl⟩
      · exact .inr ⟨type, _, htype, hfault, rfl⟩

/-- The owner of the smallest secret key asks for the total supply. -/
theorem submit_of_sign_supply :
    let key : SecretKey := ⟨1, by decide, by decide⟩
    let client : Client := .ofKey 1 key.verificationKey
    let l : Ledger := { Ledger.empty with registry := ⟨[client], List.nodup_singleton _⟩ }
    let tx : Transaction := .plain 1 client.address (.native .totalSupply)
    l.view.key? tx.sender = some key.verificationKey ∧
      ∃ signed text, tx.sign .legacy key = .ok signed ∧ signed.toJson = .ok text ∧
        Transaction.ofJson text = .ok signed ∧
        (l.submit ⟨.legacy⟩ .secp256k1 signed).1 = .ok .totalSupply := by
  intro key client l tx
  have hclient : l.view.key? tx.sender = some key.verificationKey :=
    key?_eq_some_iff.mpr ⟨client, List.mem_singleton_self _, rfl, rfl⟩
  have hselector : TransactionType.totalSupply.name ≠ "" := by decide
  obtain ⟨signed, hsigned⟩ : ∃ signed, tx.sign .legacy key = .ok signed :=
    Transaction.exists_sign_iff.mpr ⟨hselector, fun a ha => nomatch ha⟩
  obtain ⟨text, signature, htext, hread, -, hanswer⟩ :=
    submit_of_sign l key .legacy tx signed hclient hsigned
  obtain ⟨hadmits, -⟩ := hanswer rfl
  exact ⟨hclient, signed, text, hsigned, htext, hread,
    (hadmits .totalSupply).mpr ⟨.inl rfl, rfl⟩⟩

end Ledger

end Admission
