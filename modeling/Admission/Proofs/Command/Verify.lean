import Admission.Command.Report
import Admission.Proofs.Config.Text
import Admission.Proofs.Key.Text
import Admission.Proofs.Ledger.Agreement
import Admission.Proofs.Ledger.Delivery
import Admission.Proofs.Ledger.Order
import Admission.Proofs.Text.Digits
import Admission.Proofs.Text.Utf8

/-!
# What is printed about a verdict

A command loads what its files hold and fails if one of them holds nothing of the kind
(`readTransaction_eq_ok_iff`). Once configuration, ledger and transaction are loaded (`Loads`), the
line that is printed tells the verdict of the validator, and the line tells verdicts apart
(`eq_of_admittedLine`, `eq_of_rejectedLine`); so what is printed and the code tell exactly what the
validator says (`report_verify`). What a client of the configuration signs is never lost on the way:
if its arguments fit, the verdict is an admission (`verdict_of_sign`).
-/

namespace Admission.Command

open Admission.Text

variable {files : Files}

/-! ## What a command loads -/

lemma orFail_eq_ok_iff {ε α : Type} {wrap : ε → Error} {x : Except ε α} {a : α} :
    orFail wrap x = .ok a ↔ x = .ok a := by
  cases x <;> simp [orFail]

/-- The file holds the text of a transaction. -/
def FileHolds (files : Files) (name : String) (tx : Transaction) : Prop :=
  ∃ text, (files name).text = .ok text ∧ Transaction.ofJson text = .ok tx

lemma readTransaction_eq_ok_iff {name : String} {tx : Transaction} :
    readTransaction files name = .ok tx ↔ FileHolds files name tx := by
  rw [readTransaction, FileHolds]
  cases (files name).text with
  | error fault => simp
  | ok text => simp [orFail_eq_ok_iff]

/-- The files give a configuration with its ledger, and a transaction. -/
structure Loads (files : Files) (config file : String) (c : Config) (l : Ledger)
    (tx : Transaction) : Prop where
  config : Config.load (files config) = .ok c
  ledger : Ledger.ofConfig c = .ok l
  transaction : FileHolds files file tx

/-- The verdict of the validator with the configured scheme on the ledger. -/
def verdict (c : Config) (l : Ledger) (tx : Transaction) : Except Rejection TransactionType :=
  (Validator.mk c.node.scheme).validate l.view KeyManager.secp256k1 tx

variable {config file : String}

lemma verifyReport_eq_ok_iff {r : Report} :
    verifyReport files config file = .ok r ↔
      ∃ c l tx, Loads files config file c l tx ∧ r = verdictReport tx (verdict c l tx) := by
  simp only [verifyReport, bind_eq_ok_iff, orFail_eq_ok_iff, readTransaction_eq_ok_iff, verdict,
    Except.ok.injEq]
  constructor
  · rintro ⟨c, hc, l, hl, tx, htx, rfl⟩
    exact ⟨c, l, tx, ⟨hc, hl, htx⟩, rfl⟩
  · rintro ⟨c, l, tx, ⟨hc, hl, htx⟩, rfl⟩
    exact ⟨c, hc, l, hl, tx, htx, rfl⟩

/-- Files give one configuration with one ledger, and one transaction. -/
lemma Loads.exists_iff {c : Config} {l : Ledger} {tx : Transaction}
    (h : Loads files config file c l tx) {P : Config → Ledger → Transaction → Prop} :
    (∃ c l tx, Loads files config file c l tx ∧ P c l tx) ↔ P c l tx := by
  constructor
  · rintro ⟨c', l', tx', h', hP⟩
    obtain rfl := Except.ok.inj (h.config.symm.trans h'.config)
    obtain rfl := Except.ok.inj (h.ledger.symm.trans h'.ledger)
    have htx := readTransaction_eq_ok_iff.mpr h.transaction
    rw [readTransaction_eq_ok_iff.mpr h'.transaction] at htx
    rwa [← Except.ok.inj htx]
  · exact fun hP => ⟨c, l, tx, h, hP⟩

/-- A configuration that loads has a ledger. -/
lemma exists_ledger_of_load {source : Source} {c : Config} (h : Config.load source = .ok c) :
    ∃ l, Ledger.ofConfig c = .ok l := by
  unfold Config.load at h
  split at h
  · cases h
  · split at h
    · rename_i hvalid
      injection h with hc
      exact Ledger.exists_ofConfig (hc ▸ hvalid)
    · cases h

/-- Nothing is recorded on the ledger of a configuration, so nothing is a replay there. -/
lemma verdict_ne_replayed {c : Config} {l : Ledger} (h : Ledger.ofConfig c = .ok l)
    (tx : Transaction) : verdict c l tx ≠ .error .replayed := by
  have hcleared : l = l.cleared := by
    rw [Ledger.cleared, ← Ledger.seen_ofConfig h]
  rw [verdict, hcleared, Ledger.view_cleared]
  exact Validator.validate_unseen_ne_replayed

/-! ## Clients of a configuration -/

/-- What a client of the configuration signs with its own key is admitted to the type of its
operation, if its arguments are those that the type asks for. -/
lemma verdict_of_sign {c : Config} {l : Ledger} {client : Client} {key : SecretKey}
    {tx signed : Transaction} {type : TransactionType} (hl : Ledger.ofConfig c = .ok l)
    (hclient : client ∈ l.registry.clients) (hsender : tx.sender = client.address)
    (hkey : client.key = key.verificationKey) (hsigned : tx.sign c.node.scheme key = .ok signed)
    (htype : l.view.Resolves tx.operation type) (hargs : tx.checkArguments type = .ok ()) :
    verdict c l signed = .ok type := by
  obtain ⟨payload, hpayload, rfl⟩ := Transaction.sign_eq_ok_iff.mp hsigned
  have htakes : KeyManager.secp256k1.verify payload (key.sign payload) client.key = .ok true := by
    rw [hkey]
    exact key.verify_sign payload
  have hsame : (tx.withSignature (key.sign payload)).sender = client.address := hsender
  have hcovered : (tx.withSignature (key.sign payload)).payload c.node.scheme = .ok payload := by
    rw [Transaction.payload_withSignature, hpayload]
  rw [verdict]
  exact Ledger.validate_of_client (Ledger.seen_ofConfig hl) hclient hsame rfl hcovered htype hargs
    htakes

/-- A configuration of one client, by the texts of its address and key, is valid, and the client is
on its ledger. -/
lemma exists_client_of_key (key : SecretKey) :
    let c : Config :=
      ⟨.standard, [⟨1, key.address.toText, key.verificationKey.toText⟩], .empty⟩
    c.validate = .ok () ∧ ∃ l client, Ledger.ofConfig c = .ok l ∧ client ∈ l.registry.clients ∧
      client.address = key.address ∧ client.key = key.verificationKey := by
  intro c
  have hlevel : Text.trim NodeSettings.standard.logLevel.toList ≠ [] := by decide
  have haddress := Address.ofText_toText key.address
  have hkey := VerificationKey.ofText_toText key.verificationKey
  have hvalid : c.validate = .ok () := by
    rw [Config.validate, if_neg hlevel, Config.checkClients, Config.checkClient, haddress, hkey]
    rfl
  obtain ⟨l, hl⟩ := Ledger.exists_ofConfig hvalid
  have hclients := Ledger.clients_ofConfig hl
  obtain ⟨client, rest, hclient, -, hregistry⟩ := List.forall₂_cons_left_iff.mp hclients
  obtain ⟨-, hspelled, hspelledKey⟩ := Ledger.clientOf_eq_ok_iff.mp hclient
  refine ⟨hvalid, l, client, hl, hregistry ▸ List.mem_cons_self, ?_, ?_⟩
  · exact Except.ok.inj (hspelled.symm.trans haddress)
  · exact Except.ok.inj (hspelledKey.symm.trans hkey)

/-! ## Lines -/

/-- The line about a transaction that is admitted. -/
def admittedLine (id : UInt64) (type : TransactionType) : String :=
  s!"ADMITTED transaction {id} as {type.name}\n"

/-- The line about a transaction that is not admitted. -/
def rejectedLine (id : UInt64) (kind : RejectionKind) (words : String) : String :=
  s!"REJECTED transaction {id} ({kind.name}): {words}\n"

lemma toList_toString (id : UInt64) : (toString id).toList = Digits.write id.toNat := by
  show (String.ofList (Nat.toDigits 10 id.toNat)).toList = _
  rw [String.toList_ofList]
  rfl

lemma toList_admittedLine (id : UInt64) (type : TransactionType) :
    (admittedLine id type).toList = "ADMITTED transaction ".toList ++
      (Digits.write id.toNat ++ ' ' :: ("as ".toList ++ (type.name.toList ++ "\n".toList))) := by
  have hblank : " as ".toList = ' ' :: "as ".toList := by decide
  show ("ADMITTED transaction " ++ toString id ++ " as " ++ type.name ++ "\n").toList = _
  simp only [String.toList_append, toList_toString, hblank, List.append_assoc, List.cons_append]

lemma toList_rejectedLine (id : UInt64) (kind : RejectionKind) (words : String) :
    (rejectedLine id kind words).toList = "REJECTED transaction ".toList ++
      (Digits.write id.toNat ++ ' ' :: ('(' :: (kind.name.toList ++
        (')' :: (": ".toList ++ (words.toList ++ "\n".toList)))))) := by
  have hopen : " (".toList = [' ', '('] := by decide
  have hclose : "): ".toList = ')' :: ": ".toList := by decide
  show ("REJECTED transaction " ++ toString id ++ " (" ++ kind.name ++ "): " ++ words
    ++ "\n").toList = _
  simp only [String.toList_append, toList_toString, hopen, hclose, List.append_assoc,
    List.cons_append, List.nil_append]

lemma rejectedLine_ne_empty (id : UInt64) (kind : RejectionKind) (words : String) :
    "" ≠ rejectedLine id kind words := by
  intro h
  have hlist := congrArg String.toList h
  rw [toList_rejectedLine] at hlist
  cases hlist

/-- A text tells what stands before the first place of a character, and what follows it. -/
lemma eq_of_append_cons {c : Char} {front front' rest rest' : List Char} (hc : c ∉ front)
    (hc' : c ∉ front') (h : front ++ c :: rest = front' ++ c :: rest') :
    front = front' ∧ rest = rest' := by
  induction front generalizing front' with
  | nil =>
    cases front' with
    | nil => exact ⟨rfl, (List.cons.inj h).2⟩
    | cons d front' => exact absurd (List.cons.inj h).1 (List.ne_of_not_mem_cons hc')
  | cons d front ih =>
    cases front' with
    | nil => exact absurd (List.cons.inj h).1.symm (List.ne_of_not_mem_cons hc)
    | cons d' front' =>
      obtain ⟨rfl, htail⟩ := List.cons.inj h
      obtain ⟨rfl, hrest⟩ :=
        ih (List.not_mem_of_not_mem_cons hc) (List.not_mem_of_not_mem_cons hc') htail
      exact ⟨rfl, hrest⟩

/-- A number ends where a blank follows it. -/
lemma eq_of_number_blank {id id' : UInt64} {rest rest' : List Char}
    (h : Digits.write id.toNat ++ ' ' :: rest = Digits.write id'.toNat ++ ' ' :: rest') :
    id = id' ∧ rest = rest' := by
  have hblank : ∀ n : ℕ, ' ' ∉ Digits.write n := fun n hmem =>
    absurd (Digits.isDigit_of_mem (Digits.allDigits_write n) hmem) (by decide)
  obtain ⟨hdigits, hrest⟩ := eq_of_append_cons (hblank _) (hblank _) h
  exact ⟨UInt64.toNat_inj.mp (Digits.write_injective hdigits), hrest⟩

/-- The line about an admitted transaction tells its number and type. -/
lemma eq_of_admittedLine {id id' : UInt64} {type type' : TransactionType}
    (h : admittedLine id type = admittedLine id' type') : id = id' ∧ type = type' := by
  have hlist := congrArg String.toList h
  rw [toList_admittedLine, toList_admittedLine, List.append_cancel_left_eq] at hlist
  obtain ⟨hid, hrest⟩ := eq_of_number_blank hlist
  rw [List.append_cancel_left_eq, List.append_cancel_right_eq] at hrest
  have hname : some type = some type' := by
    rw [← TransactionType.ofName?_name, ← TransactionType.ofName?_name,
      String.toList_injective hrest]
  exact ⟨hid, Option.some.inj hname⟩

/-- The name of a kind holds no parenthesis, so it ends where one follows it. -/
lemma parenthesis_notMem_name (kind : RejectionKind) : ')' ∉ kind.name.toList := by
  cases kind <;> decide

lemma kindName_injective : Function.Injective RejectionKind.name := by
  have htable : ∀ kind kind' : RejectionKind, kind.name = kind'.name → kind = kind' := by
    intro kind kind'
    cases kind <;> cases kind' <;> decide
  exact fun kind kind' h => htable kind kind' h

/-- The line about a rejected transaction tells its number, and the kind and words of the reason. -/
lemma eq_of_rejectedLine {id id' : UInt64} {kind kind' : RejectionKind} {words words' : String}
    (h : rejectedLine id kind words = rejectedLine id' kind' words') :
    id = id' ∧ kind = kind' ∧ words = words' := by
  have hlist := congrArg String.toList h
  rw [toList_rejectedLine, toList_rejectedLine, List.append_cancel_left_eq] at hlist
  obtain ⟨hid, hrest⟩ := eq_of_number_blank hlist
  injection hrest with _ hrest
  obtain ⟨hname, hrest⟩ :=
    eq_of_append_cons (parenthesis_notMem_name kind) (parenthesis_notMem_name kind') hrest
  rw [List.append_cancel_left_eq, List.append_cancel_right_eq] at hrest
  exact ⟨hid, kindName_injective (String.toList_injective hname), String.toList_injective hrest⟩

/-! ## Reports of verdicts -/

section Verdicts

variable {tx : Transaction} {v : Except Rejection TransactionType} {id : UInt64}

/-- The report tells an admission by its line and the code zero. -/
lemma verdictReport_admits_iff {type : TransactionType} :
    (verdictReport tx v).output = admittedLine id type ∧ (verdictReport tx v).code = 0 ↔
      tx.id = id ∧ v = .ok type := by
  cases v with
  | ok type' =>
    have houtput : (verdictReport tx (.ok type')).output = admittedLine tx.id type' := rfl
    have hcode : (verdictReport tx (.ok type')).code = 0 := rfl
    rw [houtput, hcode, Except.ok.injEq]
    constructor
    · exact fun h => eq_of_admittedLine h.1
    · rintro ⟨rfl, rfl⟩
      exact ⟨rfl, rfl⟩
  | error reason =>
    have hcode : (verdictReport tx (.error reason)).code = 1 := rfl
    rw [hcode]
    exact iff_of_false (fun h => nomatch h.2) (fun h => nomatch h.2)

/-- The report tells a rejection by its line and the code one. -/
lemma verdictReport_rejects_iff {kind : RejectionKind} {words : String} :
    (verdictReport tx v).output = rejectedLine id kind words ∧ (verdictReport tx v).code = 1 ↔
      tx.id = id ∧ ∃ reason, v = .error reason ∧ reason.kind = kind ∧ reason.message = words := by
  cases v with
  | ok type =>
    have hcode : (verdictReport tx (.ok type)).code = 0 := rfl
    rw [hcode]
    refine iff_of_false (fun h => nomatch h.2) ?_
    rintro ⟨-, reason, h, -⟩
    cases h
  | error reason =>
    have houtput : (verdictReport tx (.error reason)).output
        = rejectedLine tx.id reason.kind reason.message := rfl
    have hcode : (verdictReport tx (.error reason)).code = 1 := rfl
    rw [houtput, hcode]
    constructor
    · rintro ⟨hline, -⟩
      obtain ⟨hid, hkind, hwords⟩ := eq_of_rejectedLine hline
      exact ⟨hid, reason, rfl, hkind, hwords⟩
    · rintro ⟨rfl, reason', h, rfl, rfl⟩
      rw [Except.error.inj h]
      exact ⟨rfl, rfl⟩

lemma verdictReport_code_eq_zero_iff : (verdictReport tx v).code = 0 ↔ ∃ type, v = .ok type := by
  cases v with
  | ok type => exact iff_of_true rfl ⟨type, rfl⟩
  | error reason => exact iff_of_false Nat.one_ne_zero fun ⟨_, h⟩ => nomatch h

end Verdicts

/-- A reason that is a replay by its kind is a replay. -/
lemma eq_replayed_of_kind {reason : Rejection} (h : reason.kind = .replayed) :
    reason = .replayed := by
  cases reason with
  | replayed => rfl
  | _ => cases h

/-- The command fails, or the files are loaded and it reports on the verdict. -/
lemma report_verify_cases (fresh : SecretKey) (files : Files) (config file : String) :
    ((∀ c l tx, ¬ Loads files config file c l tx) ∧
      ∃ failure, report fresh files (.verify config file) = .failed failure) ∨
    ∃ c l tx, Loads files config file c l tx ∧
      report fresh files (.verify config file) = verdictReport tx (verdict c l tx) := by
  rw [report]
  cases hreport : verifyReport files config file with
  | error failure =>
    refine .inl ⟨fun c l tx hloads => ?_, failure, rfl⟩
    have hok := verifyReport_eq_ok_iff.mpr ⟨c, l, tx, hloads, rfl⟩
    rw [hreport] at hok
    cases hok
  | ok r =>
    obtain ⟨c, l, tx, hloads, hr⟩ := verifyReport_eq_ok_iff.mp hreport
    exact .inr ⟨c, l, tx, hloads, hr⟩

/-- What is printed and the code tell the verdict: a transaction is told as admitted, with its type
and the code zero, if and only if everything loads and the validator admits it to that type; it is
told as rejected, with the reason and the code one, if and only if everything loads and the
validator rejects it for that reason, which is never a replay. If the configuration or the
transaction does not load, nothing is printed and the code is one. A configuration that loads has a
ledger, and the standard one loads where no file is. -/
theorem report_verify (fresh : SecretKey) (files : Files) (config file : String) :
    let r := report fresh files (.verify config file)
    (∀ id type, r.output = admittedLine id type ∧ r.code = 0 ↔
      ∃ c l tx, Loads files config file c l tx ∧ tx.id = id ∧ verdict c l tx = .ok type) ∧
    (∀ id kind words, r.output = rejectedLine id kind words ∧ r.code = 1 ↔
      kind ≠ .replayed ∧ ∃ c l tx, Loads files config file c l tx ∧ tx.id = id ∧
        ∃ reason, verdict c l tx = .error reason ∧ reason.kind = kind ∧ reason.message = words) ∧
    (r.code = 0 ↔ ∃ c l tx, Loads files config file c l tx ∧ ∃ type, verdict c l tx = .ok type) ∧
    ((∀ c, Config.load (files config) ≠ .ok c) ∨ (∀ tx, ¬ FileHolds files file tx) →
      r.output = "" ∧ r.code = 1) ∧
    (∀ c, Config.load (files config) = .ok c → ∃ l, Ledger.ofConfig c = .ok l) ∧
    ∀ why, files config = .absent why → Config.load (files config) = .ok .standard := by
  intro r
  have hledger : ∀ c, Config.load (files config) = .ok c → ∃ l, Ledger.ofConfig c = .ok l :=
    fun _ => exists_ledger_of_load
  have hstandard : ∀ why, files config = .absent why →
      Config.load (files config) = .ok .standard := by
    intro why hwhy
    rw [hwhy]
    rfl
  rcases report_verify_cases fresh files config file with ⟨hnone, failure, hr⟩ | ⟨c, l, tx, h, hr⟩
  · -- Nothing was loaded, so nothing is printed, and no line is empty.
    have houtput : r.output = "" := congrArg Report.output hr
    have hcode : r.code = 1 := congrArg Report.code hr
    rw [houtput, hcode]
    refine ⟨fun id type => iff_of_false (fun h => nomatch h.2) ?_,
      fun id kind words => iff_of_false (fun h => rejectedLine_ne_empty id kind words h.1) ?_,
      iff_of_false Nat.one_ne_zero ?_, fun _ => ⟨rfl, rfl⟩, hledger, hstandard⟩
    · exact fun ⟨c, l, tx, h, _⟩ => hnone c l tx h
    · exact fun ⟨_, c, l, tx, h, _⟩ => hnone c l tx h
    · exact fun ⟨c, l, tx, h, _⟩ => hnone c l tx h
  · -- What was loaded is the only thing that the files give, so every side is about its verdict.
    have hreport : r = verdictReport tx (verdict c l tx) := hr
    rw [hreport]
    refine ⟨fun id type => ?_, fun id kind words => ?_, ?_, ?_, hledger, hstandard⟩
    · rw [h.exists_iff, verdictReport_admits_iff]
    · rw [h.exists_iff, verdictReport_rejects_iff, iff_and_self]
      rintro ⟨-, reason, hreason, rfl, -⟩ hreplayed
      rw [eq_replayed_of_kind hreplayed] at hreason
      exact verdict_ne_replayed h.ledger tx hreason
    · rw [h.exists_iff, verdictReport_code_eq_zero_iff]
    · rintro (hconfig | hfile)
      · exact absurd h.config (hconfig c)
      · exact absurd h.transaction (hfile tx)

/-- Without a configuration, the transaction of a stranger is rejected; without a transaction,
nothing is printed. With a configuration of one client, what that client signs is admitted. -/
theorem report_verify_of_stranger_and_client :
    let key : SecretKey := ⟨1, by decide, by decide⟩
    let text := "\x7b\"transactionId\":7,\"functionSignature\":\"mint()\"," ++
      "\"senderAddress\":\"ab00000000000000000000000000000000000000\"\x7d"
    let files : Files := fun name =>
      if name = "tx.json" then .file (utf8 text.toList) else .absent .missing
    let rejected := report key files (.verify "config.toml" "tx.json")
    let failed := report key files (.verify "config.toml" "other.json")
    let c : Config := ⟨.standard, [⟨1, key.address.toText, key.verificationKey.toText⟩], .empty⟩
    let tx : Transaction := .plain 7 key.address (.native .totalSupply)
    let filesWith : String → Files := fun text name =>
      if name = "tx.json" then .file (utf8 text.toList) else .file (utf8 c.toText.toList)
    (rejected.output = rejectedLine 7 .unauthenticated
        "sender 0xab00000000000000000000000000000000000000 is not a registered client" ∧
      rejected.code = 1 ∧ failed.output = "" ∧ failed.code = 1) ∧
      ∃ signed text, tx.sign c.node.scheme key = .ok signed ∧ signed.toJson = .ok text ∧
        Config.load (filesWith text "config.toml") = .ok c ∧
        (report key (filesWith text) (.verify "config.toml" "tx.json")).output
          = admittedLine 7 .totalSupply ∧
        (report key (filesWith text) (.verify "config.toml" "tx.json")).code = 0 := by
  intro key text files rejected failed c tx filesWith
  constructor
  · let tx : Transaction :=
      ⟨7, ⟨171 :: List.replicate 19 0, rfl⟩, .call "mint()", none, none, none, none⟩
    have hfile : (files "tx.json").text = .ok text := Source.text_file text
    have hread : Transaction.ofJson text = .ok tx := by decide +kernel
    have hloads : Loads files "config.toml" "tx.json" .standard .empty tx :=
      ⟨rfl, rfl, text, hfile, hread⟩
    have hverdict : verdict .standard .empty tx = .error (.unknownSender tx.sender) := rfl
    obtain ⟨-, hrejects, -⟩ := report_verify key files "config.toml" "tx.json"
    obtain ⟨-, -, -, hfails, -⟩ := report_verify key files "config.toml" "other.json"
    have hline := (hrejects 7 .unauthenticated _).mpr
      ⟨by decide, .standard, .empty, tx, hloads, rfl, .unknownSender tx.sender, hverdict, rfl, rfl⟩
    have hmissing : ∀ tx, ¬ FileHolds files "other.json" tx := by
      rintro tx ⟨_, h, -⟩
      cases h
    exact ⟨hline.1.trans (by decide +kernel), hline.2, hfails (.inr hmissing)⟩
  · have hselector : TransactionType.totalSupply.name ≠ "" := by decide
    obtain ⟨signed, hsigned⟩ : ∃ signed, tx.sign c.node.scheme key = .ok signed :=
      Transaction.exists_sign_iff.mpr ⟨hselector, by rintro a ⟨⟩⟩
    obtain ⟨text, htext, hread⟩ := Transaction.exists_ofJson_of_sign hsigned
    obtain ⟨hvalid, l, client, hl, hclient, haddress, hkey⟩ := exists_client_of_key key
    have hconfig : Config.load (filesWith text "config.toml") = .ok c := by
      show Config.load (.file (utf8 c.toText.toList)) = .ok c
      rw [c.load_toText, hvalid]
      rfl
    have hfile : (filesWith text "tx.json").text = .ok text := Source.text_file text
    have hverdict : verdict c l signed = .ok .totalSupply :=
      verdict_of_sign hl hclient haddress.symm hkey hsigned (.inl rfl) rfl
    have hid : signed.id = 7 := by
      obtain ⟨_, -, rfl⟩ := Transaction.sign_eq_ok_iff.mp hsigned
      rfl
    obtain ⟨hadmits, -⟩ := report_verify key (filesWith text) "config.toml" "tx.json"
    have hline := (hadmits 7 .totalSupply).mpr
      ⟨c, l, signed, ⟨hconfig, hl, text, hfile, hread⟩, hid, hverdict⟩
    exact ⟨signed, text, hsigned, htext, hconfig, hline⟩

end Admission.Command
