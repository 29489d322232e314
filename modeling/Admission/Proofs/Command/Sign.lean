import Admission.Proofs.Command.Verify
import Admission.Proofs.Json.Grammar
import Admission.Proofs.Ledger.Delivery
import Admission.Proofs.Wire.Canonical

/-!
# What is printed when a transaction is signed

A transaction that was read has a finite amount, so it has a payload if it has a selector, and then
it is signed and written (`exists_signed`). What is printed is read again, with the newline that
ends it or without (`ofJson_append_newline`); the signature is no part of the payload, and the same
key signs the same payload alike. So the command changes the signature and nothing else, and a
second pass over its output changes nothing (`report_sign`).
-/

namespace Admission

open Admission.Text

namespace Transaction

variable {text : String} {tx : Transaction}

/-- The text of a transaction may end with a newline. -/
lemma ofJson_append_newline (h : ofJson text = .ok tx) : ofJson (text ++ "\n") = .ok tx := by
  obtain ⟨r, hr, -⟩ := ofJson_eq_ok_iff.mp h
  refine ofJson_of_ofText_eq h ?_
  cases hdocument : Json.Document.ofText text.toList with
  | mk t ended =>
    have hended := (Wire.Record.ofText_eq_ok_iff.mp hr).1
    rw [hdocument] at hended
    obtain rfl : ended = true := hended
    rw [String.toList_append]
    refine Json.ofText_eq_iff.mpr ((Json.ofText_eq_iff.mp hdocument).append_blank ?_)
    intro c hc
    rw [List.mem_singleton.mp hc]
    rfl

/-- A transaction that was read has a payload if its operation has a selector. -/
lemma exists_payloadText_iff_of_ofJson (scheme : SigningScheme) (h : ofJson text = .ok tx) :
    (∃ payload, tx.payloadText scheme = .ok payload) ↔ tx.operation.selector ≠ "" := by
  have hpayload : (∃ payload, tx.payloadText scheme = .ok payload) ↔ tx.HasPayload := by
    rw [← @exists_payload_iff scheme, payload]
    cases tx.payloadText scheme <;> simp [Except.map]
  rw [hpayload]
  exact ⟨And.left, fun hselector => ⟨hselector, fun a ha => isFinite_of_ofJson h ha⟩⟩

/-- The transaction with the signature of its payload. -/
def signedWith (tx : Transaction) (key : SecretKey) (payload : List Char) : Transaction :=
  tx.withSignature (key.sign (utf8 payload))

lemma sign_of_payloadText {scheme : SigningScheme} {payload : List Char} (key : SecretKey)
    (h : tx.payloadText scheme = .ok payload) :
    tx.sign scheme key = .ok (tx.signedWith key payload) :=
  sign_eq_ok_iff.mpr ⟨utf8 payload, map_eq_ok_iff.mpr ⟨payload, h, rfl⟩, rfl⟩

end Transaction

namespace Command

variable {fresh : SecretKey} {files : Files} {secret file : String} {scheme : SigningScheme}
variable {key : SecretKey} {tx : Transaction}

/-- The payload of the transaction that a file holds is printed. -/
lemma report_payload {payload : List Char} (hfile : FileHolds files file tx)
    (hpayload : tx.payloadText scheme = .ok payload) :
    report fresh files (.payload file scheme) = .line (String.ofList payload) := by
  have hreport : payloadReport files file scheme = .ok (.line (String.ofList payload)) :=
    bind_eq_ok_iff.mpr ⟨tx, readTransaction_eq_ok_iff.mpr hfile,
      bind_eq_ok_iff.mpr ⟨payload, orFail_eq_ok_iff.mpr hpayload, rfl⟩⟩
  rw [report, hreport]
  rfl

/-- What is signed is printed, whether or not the key is the sender's. -/
lemma report_sign_of {payload : List Char} {text : String}
    (hkey : SecretKey.ofText secret = .ok key) (hfile : FileHolds files file tx)
    (hpayload : tx.payloadText scheme = .ok payload)
    (htext : (tx.signedWith key payload).toJson = .ok text) :
    report fresh files (.sign secret file scheme)
      = { Report.line text with warning := senderWarning? tx key } := by
  have hsigned : signedReport key scheme tx = .ok (.line text) :=
    bind_eq_ok_iff.mpr ⟨_, orFail_eq_ok_iff.mpr (Transaction.sign_of_payloadText key hpayload),
      bind_eq_ok_iff.mpr ⟨text, orFail_eq_ok_iff.mpr htext, rfl⟩⟩
  have hreport : signReport files secret file scheme
      = .ok { Report.line text with warning := senderWarning? tx key } := by
    refine bind_eq_ok_iff.mpr ⟨key, orFail_eq_ok_iff.mpr hkey,
      bind_eq_ok_iff.mpr ⟨tx, readTransaction_eq_ok_iff.mpr hfile, ?_⟩⟩
    rw [hsigned]
    rfl
  rw [report, hreport]
  rfl

/-- Signing succeeds only with a secret key, for a transaction that has a payload. -/
lemma exists_of_report_sign (h : (report fresh files (.sign secret file scheme)).code = 0) :
    ∃ key tx payload, SecretKey.ofText secret = .ok key ∧ FileHolds files file tx ∧
      tx.payloadText scheme = .ok payload := by
  rw [report] at h
  cases hreport : signReport files secret file scheme with
  | error failure =>
    rw [hreport] at h
    cases h
  | ok r =>
    rw [hreport] at h
    simp only [signReport, bind_eq_ok_iff, orFail_eq_ok_iff, readTransaction_eq_ok_iff] at hreport
    obtain ⟨key, hkey, tx, hfile, hr⟩ := hreport
    -- The code is that of the signing, whether or not there is a warning.
    injection hr with hr
    rw [← hr] at h
    cases hsigned : signedReport key scheme tx with
    | error failure =>
      rw [hsigned] at h
      cases h
    | ok r' =>
      simp only [signedReport, bind_eq_ok_iff, orFail_eq_ok_iff] at hsigned
      obtain ⟨signed, hsign, -⟩ := hsigned
      obtain ⟨bytes, hbytes, -⟩ := Transaction.sign_eq_ok_iff.mp hsign
      obtain ⟨payload, hpayload, -⟩ := map_eq_ok_iff.mp hbytes
      exact ⟨key, tx, payload, hkey, hfile, hpayload⟩

/-- A file of what was printed, with the newline that ends it or without. -/
def HoldsLine (source : Source) (text : String) : Prop :=
  source = .file (utf8 text.toList) ∨ source = .file (utf8 (text ++ "\n").toList)

lemma fileHolds_of_line {text : String} (h : HoldsLine (files file) text)
    (hread : Transaction.ofJson text = .ok tx) : FileHolds files file tx := by
  rcases h with h | h
  · exact ⟨text, by rw [h, Source.text_file], hread⟩
  · exact ⟨text ++ "\n", by rw [h, Source.text_file], Transaction.ofJson_append_newline hread⟩

/-- A transaction of a file whose operation has a selector is signed and written, and read again. -/
lemma exists_signed (hfile : FileHolds files file tx) (hselector : tx.operation.selector ≠ "")
    (key : SecretKey) (scheme : SigningScheme) :
    ∃ payload text, tx.payloadText scheme = .ok payload ∧
      (tx.signedWith key payload).toJson = .ok text ∧
      Transaction.ofJson text = .ok (tx.signedWith key payload) := by
  obtain ⟨source, -, hread⟩ := hfile
  obtain ⟨payload, hpayload⟩ :=
    (Transaction.exists_payloadText_iff_of_ofJson scheme hread).mpr hselector
  obtain ⟨text, htext, hagain⟩ :=
    Transaction.exists_ofJson_of_sign (Transaction.sign_of_payloadText key hpayload)
  exact ⟨payload, text, hpayload, htext, hagain⟩

/-- Signing succeeds if and only if the secret is a key, the file holds a transaction, and its
operation has a selector. Then a text is printed that is read as the transaction with another
signature and nothing else: one of 64 bytes that the key manager takes, under the key of the secret,
for the signature of exactly what is printed as the payload of the file, and likewise of what was
printed. To sign what was printed once more with the same key and scheme prints the same text. -/
theorem report_sign (fresh : SecretKey) (files : Files) (secret file : String)
    (scheme : SigningScheme) :
    let signed := report fresh files (.sign secret file scheme)
    (signed.code = 0 ↔ ∃ key tx, SecretKey.ofText secret = .ok key ∧ FileHolds files file tx ∧
      tx.operation.selector ≠ "") ∧
    ∀ key tx, SecretKey.ofText secret = .ok key → FileHolds files file tx →
      tx.operation.selector ≠ "" →
      ∃ text signature payload, signed.output = text ++ "\n" ∧
        Transaction.ofJson text = .ok (tx.withSignature signature) ∧ signature.length = 64 ∧
        report fresh files (.payload file scheme) = .line payload ∧
        KeyManager.secp256k1.verify (utf8 payload.toList) signature key.verificationKey = .ok true ∧
        ∀ files' file', HoldsLine (files' file') text →
          report fresh files' (.payload file' scheme) = .line payload ∧
          (report fresh files' (.sign secret file' scheme)).output = text ++ "\n" ∧
          (report fresh files' (.sign secret file' scheme)).code = 0 := by
  intro signed
  refine ⟨⟨fun h => ?_, ?_⟩, ?_⟩
  · obtain ⟨key, tx, payload, hkey, hfile, hpayload⟩ := exists_of_report_sign h
    obtain ⟨source, hsource, hread⟩ := hfile
    exact ⟨key, tx, hkey, ⟨source, hsource, hread⟩,
      (Transaction.exists_payloadText_iff_of_ofJson scheme hread).mp ⟨payload, hpayload⟩⟩
  · rintro ⟨key, tx, hkey, hfile, hselector⟩
    obtain ⟨payload, text, hpayload, htext, -⟩ := exists_signed hfile hselector key scheme
    exact congrArg Report.code (report_sign_of hkey hfile hpayload htext)
  · intro key tx hkey hfile hselector
    obtain ⟨payload, text, hpayload, htext, hread⟩ := exists_signed hfile hselector key scheme
    refine ⟨text, key.sign (utf8 payload), String.ofList payload,
      congrArg Report.output (report_sign_of hkey hfile hpayload htext), hread,
      Crypto.Ecdsa.Signature.length_bytes _, report_payload hfile hpayload, ?_, ?_⟩
    · rw [String.toList_ofList]
      exact key.verify_sign _
    · intro files' file' hline
      have hfile' : FileHolds files' file' (tx.signedWith key payload) :=
        fileHolds_of_line hline hread
      -- The signature is no part of the payload, so the second one is made of the same bytes.
      have hpayload' : (tx.signedWith key payload).payloadText scheme = .ok payload := hpayload
      have htext' : ((tx.signedWith key payload).signedWith key payload).toJson = .ok text := htext
      have hagain : report fresh files' (.sign secret file' scheme)
          = { Report.line text with warning := senderWarning? (tx.signedWith key payload) key } :=
        report_sign_of hkey hfile' hpayload' htext'
      exact ⟨report_payload hfile' hpayload', congrArg Report.output hagain,
        congrArg Report.code hagain⟩

/-- A transaction that carries an old signature is signed anew by the smallest secret key. -/
theorem report_sign_of_mint :
    let key : SecretKey := ⟨1, by decide, by decide⟩
    let secret := "0000000000000000000000000000000000000000000000000000000000000001\n"
    let text := "\x7b\"transactionId\":7,\"functionSignature\":\"mint()\",\"signature\":\"AAAA\"," ++
      "\"senderAddress\":\"ab00000000000000000000000000000000000000\"\x7d"
    let files : Files := fun name =>
      if name = "tx.json" then .file (utf8 text.toList) else .absent .missing
    let tx : Transaction :=
      ⟨7, ⟨171 :: List.replicate 19 0, rfl⟩, .call "mint()", none, none, none, some [0, 0, 0]⟩
    (report key files (.sign secret "tx.json" .legacy)).code = 0 ∧
      ∃ printed signature, signature.length = 64 ∧
        (report key files (.sign secret "tx.json" .legacy)).output = printed ++ "\n" ∧
        Transaction.ofJson printed = .ok (tx.withSignature signature) ∧
        (report key (fun _ => .file (utf8 printed.toList)) (.sign secret "tx.json" .legacy)).output
          = printed ++ "\n" := by
  intro key secret text files tx
  have hkey : SecretKey.ofText secret = .ok key := by decide +kernel
  have hread : Transaction.ofJson text = .ok tx := by decide +kernel
  have hfile : FileHolds files "tx.json" tx := fileHolds_of_line (.inl rfl) hread
  have hselector : tx.operation.selector ≠ "" := by decide
  obtain ⟨hcode, hsigns⟩ := report_sign key files secret "tx.json" .legacy
  obtain ⟨printed, signature, payload, houtput, hprinted, hlength, -, -, hagain⟩ :=
    hsigns key tx hkey hfile hselector
  exact ⟨hcode.mpr ⟨key, tx, hkey, hfile, hselector⟩, printed, signature, hlength, houtput,
    hprinted, (hagain (fun _ => .file (utf8 printed.toList)) "tx.json" (.inl rfl)).2.1⟩

end Command

end Admission
