import Admission.Proofs.Ledger.Gates
import Admission.Proofs.Wire.Spelling

/-!
# One text for each signature

A signature is written in one way, and no other text is read as it. The text in a record is the one
by which the ledger remembers the signature (`signature_eq_of_decode`), so a signature that was
accepted is found again however it is sent, and is never taken for another one
(`isReplayed_record_iff`).
-/

namespace Admission.Wire

open Admission.Text

/-- No two signatures have one text. -/
lemma encodeSignature_injective : Function.Injective encodeSignature := by
  intro bytes other h
  exact Base64.encode_injective (String.ofList_injective h)

/-- A text is read as the signature that its groups of symbols spell. -/
lemma decodeSignature_eq_ok_iff_spells {text : String} {bytes : List UInt8} :
    decodeSignature text = .ok bytes ↔ Base64.Spells text.toList bytes := by
  rw [← Base64.decode_eq_ok_iff_spells, decodeSignature]
  cases Base64.decode text.toList <;> simp

/-- The text of a signature that is read from a record is the one that the ledger remembers. -/
lemma signature_eq_of_decode {r : Record} {tx : Transaction} (h : r.decode = .ok tx) :
    r.signature = tx.signatureText? :=
  (Record.decode_eq_ok_iff.mp h).signature

/-- Where a signature is recorded, that signature is a replay from then on, and no other one is that
was none. -/
lemma isReplayed_record_iff {l : Ledger} {bytes other : List UInt8} :
    (l.record (encodeSignature bytes)).2.view.isReplayed (encodeSignature other) = true ↔
      other = bytes ∨ l.view.isReplayed (encodeSignature other) = true := by
  show (l.seen.insert (encodeSignature bytes)).contains (encodeSignature other) = true ↔
    other = bytes ∨ l.seen.contains (encodeSignature other) = true
  rw [ReplaySet.contains_insert, Bool.or_eq_true, beq_iff_eq, encodeSignature_injective.eq_iff]

/-- Texts and signatures correspond one to one. Every byte string is read back from its text, and
every text that is read is the text of what is read from it: groups of symbols, filled up with marks
and without stray bits, that write the same numbers as the bytes. So no two texts are read as one
signature, and no two signatures have one text, by which the ledger remembers them and which is the
text that stood in the record. -/
theorem signature_text_unique :
    (∀ bytes, decodeSignature (encodeSignature bytes) = .ok bytes) ∧
    (∀ text bytes, decodeSignature text = .ok bytes → encodeSignature bytes = text) ∧
    (∀ text bytes, decodeSignature text = .ok bytes ↔ Base64.Spells text.toList bytes) ∧
    (∀ text text' bytes, decodeSignature text = .ok bytes → decodeSignature text' = .ok bytes →
      text = text') ∧
    (∀ a b : Transaction, a.signatureText? = b.signatureText? ↔ a.signature = b.signature) ∧
    (∀ (l : Ledger) (bytes other : List UInt8),
      (l.record (encodeSignature bytes)).2.view.isReplayed (encodeSignature other) = true ↔
        other = bytes ∨ l.view.isReplayed (encodeSignature other) = true) ∧
    ∀ (r : Record) (tx : Transaction), r.decode = .ok tx → r.signature = tx.signatureText? := by
  have htext : ∀ text bytes, decodeSignature text = .ok bytes → encodeSignature bytes = text :=
    fun text bytes h => (decodeSignature_eq_ok_iff.mp h).symm
  refine ⟨fun bytes => decodeSignature_eq_ok_iff.mpr rfl, htext,
    fun text bytes => decodeSignature_eq_ok_iff_spells, ?_, fun a b => Transaction.signatureText?_inj,
    fun l bytes other => isReplayed_record_iff, fun r tx h => signature_eq_of_decode h⟩
  intro text text' bytes h h'
  rw [← htext text bytes h, htext text' bytes h']

/-- Two bytes leave two bits of their last symbol over. Other bits there, and a text without its
mark, are not read as these bytes. -/
theorem signature_text_unique_of_pair :
    let r : Record := { transactionId := 1, functionSignature := none
                        nativeOperation := some "TOTAL_SUPPLY"
                        senderAddress := "0000000000000000000000000000000000000000"
                        receiverAddress := none, ownerAddress := none, amount := none
                        weiAmount := none, signature := some "AQI=" }
    let tx : Transaction := { Transaction.plain 1 .zero (.native .totalSupply) with
      signature := some [1, 2] }
    decodeSignature "AQI=" = .ok [1, 2] ∧ encodeSignature [1, 2] = "AQI=" ∧
      decodeSignature "AQJ=" ≠ .ok [1, 2] ∧ decodeSignature "AQI" ≠ .ok [1, 2] ∧
      r.decode = .ok tx ∧ tx.signatureText? = some "AQI=" := by
  intro r tx
  obtain ⟨-, htext, -, hunique, -, -, hrecord⟩ := signature_text_unique
  have hread : decodeSignature "AQI=" = .ok [1, 2] := by decide
  have hdecode : r.decode = .ok tx := by decide +kernel
  refine ⟨hread, htext _ _ hread, ?_, ?_, hdecode, (hrecord r tx hdecode).symm⟩
  · intro h
    exact absurd (hunique _ _ _ hread h) (by decide)
  · intro h
    exact absurd (hunique _ _ _ hread h) (by decide)

end Admission.Wire
