import Admission.Proofs.Amount.Native
import Admission.Proofs.Json.Object
import Admission.Proofs.Text.Base64
import Admission.Proofs.Address
import Admission.Wire.Json

/-!
# Transactions read back from JSON

A record is written as an object whose members are read back one after the other, each into its own
field of the draft (`Draft.Carries`). So the text of a record gives the record
(`Record.ofText_toText`), and as each field spells its part of the transaction, the text of a
transaction gives the transaction. The only transactions without a text are those with a token
amount that is not finite.
-/

namespace Admission.Wire

open Admission.Text Admission.Json Admission.Number

/-! ## Members that fill a draft -/

namespace Draft

/-- The texts are members whose reading takes the draft `d` to the draft `d'`. -/
def Carries (d : Draft) (texts : List (List Char)) (d' : Draft) : Prop :=
  ∃ ms : List Member, texts = ms.map Member.written ∧ (∀ m ∈ ms, Writes m.text m.tree)
    ∧ d.readMembers (ms.map Member.read) = .ok d'

/-- Members are read on from the draft that the members before them left. -/
lemma readMembers_append {d d' : Draft} {before : List (Written × Tree)}
    (h : d.readMembers before = .ok d') (after : List (Written × Tree)) :
    d.readMembers (before ++ after) = d'.readMembers after := by
  induction before generalizing d with
  | nil =>
    rw [readMembers] at h
    injection h with hd
    rw [hd, List.nil_append]
  | cons m before ih =>
    obtain ⟨written, value⟩ := m
    rw [readMembers] at h
    rw [List.cons_append, readMembers]
    cases hname : textOf? written with
    | none => simp [hname] at h
    | some name =>
      cases hfield : Field.ofName? (String.ofList name) with
      | none =>
        simp only [hname, hfield] at h ⊢
        exact ih h
      | some field =>
        by_cases hhas : d.has field = true
        · simp [hname, hfield, hhas] at h
        · cases hread : d.read field value with
          | error fault => simp [hname, hfield, hhas, hread] at h
          | ok next =>
            simp only [hname, hfield, if_neg hhas, hread] at h ⊢
            exact ih h

lemma Carries.append {d₁ d₂ d₃ : Draft} {texts texts' : List (List Char)}
    (h : d₁.Carries texts d₂) (h' : d₂.Carries texts' d₃) : d₁.Carries (texts ++ texts') d₃ := by
  obtain ⟨ms, rfl, hwrites, hread⟩ := h
  obtain ⟨ms', rfl, hwrites', hread'⟩ := h'
  refine ⟨ms ++ ms', (List.map_append ..).symm, ?_, ?_⟩
  · intro m hm
    rcases List.mem_append.mp hm with hm | hm
    · exact hwrites m hm
    · exact hwrites' m hm
  · rw [List.map_append, readMembers_append hread, hread']

/-- A member fills its field, if nothing has filled it before. -/
lemma carries_member {d d' : Draft} {f : Field} {text : List Char} {tree : Tree}
    (hwrites : Writes text tree) (hnew : d.has f = false) (hread : d.read f tree = .ok d') :
    d.Carries [memberText f.name text] d' := by
  refine ⟨[⟨f.name, text, tree⟩], rfl, ?_, ?_⟩
  · intro m hm
    rw [List.mem_singleton.mp hm]
    exact hwrites
  · have hname : textOf? (writtenOf f.name.toList) = some f.name.toList := textOf?_writtenOf _
    rw [List.map_singleton, Member.read, readMembers]
    simp [hname, Field.ofName?_name, hnew, hread, readMembers]

/-- A member that may be absent fills its field if it is there. Here `fill` puts what has been read
into the field, and `read` is how the field is read. -/
lemma carries_optionalMember {α : Type} {d : Draft} {f : Field} {render : α → List Char}
    (fill : Option (Option α) → Draft) {read : Tree → Except Json.Fault (Option α)}
    (hnew : d.has f = false) (hnone : fill none = d)
    (hread : ∀ t, d.read f t = (read t).map fun v => fill (some v)) (value : Option α)
    (hvalue : ∀ v ∈ value, ∃ tree, Writes (render v) tree ∧ read tree = .ok (some v)) :
    d.Carries (optionalMember f render value) (fill (value.map some)) := by
  cases value with
  | none =>
    rw [Option.map_none, hnone]
    refine ⟨[], rfl, ?_, rfl⟩
    intro m hm
    exact absurd hm List.not_mem_nil
  | some v =>
    obtain ⟨tree, hwrites, htree⟩ := hvalue v rfl
    refine carries_member hwrites hnew ?_
    rw [hread, htree]
    rfl

end Draft

/-! ## Values of fields -/

/-- The number of a record is read back. -/
lemma asWord_write (id : UInt64) :
    (Tree.number ⟨false, Digits.write id.toNat, [], none⟩).asWord = .ok id := by
  have hvalue : Digits.value (Digits.write id.toNat) = id.toNat := Digits.value_write _
  have hlt : id.toNat < 2 ^ 64 := id.toNat_lt
  have hwhole : Numeral.whole? ⟨false, Digits.write id.toNat, [], none⟩ = some (id.toNat : ℤ) := by
    simp only [Numeral.whole?, hvalue, hlt]
    rfl
  have hnonneg : (0 : ℤ) ≤ id.toNat := Int.natCast_nonneg _
  simp only [Tree.asWord, Numeral.value?, hwhole, if_pos hnonneg]
  rw [Int.toNat_natCast, UInt64.ofNat_toNat]

/-- A string is read back as its text. -/
lemma asText_writtenOf (expected s : String) :
    (Tree.string (writtenOf s.toList)).asText expected = .ok s := by
  simp [Tree.asText, textOf?_writtenOf]

/-- A text in a field that may be absent is read back. -/
lemma exists_writes_text (s : String) :
    ∃ tree, Writes (stringText s.toList) tree ∧ Draft.optionalText tree = .ok (some s) := by
  refine ⟨_, writes_stringText s.toList, ?_⟩
  rw [Draft.optionalText, Tree.asOptional, asText_writtenOf]
  · rfl
  · intro h
    exact Tree.noConfusion h

/-- A finite number in a field that may be absent is read back, bit for bit. -/
lemma exists_writes_number {x : Binary64} (hx : x.isFinite = true) :
    ∃ tree, Writes (numberText x) tree ∧ tree.asOptional Tree.asBinary = .ok (some x) := by
  obtain ⟨n, hwrites, hbinary⟩ := exists_writes_numberText hx
  refine ⟨.number n, hwrites, ?_⟩
  rw [Tree.asOptional, Tree.asBinary, hbinary]
  · rfl
  · intro h
    exact Tree.noConfusion h

/-! ## Records -/

/-- The written members of a record fill a draft with its fields. -/
lemma carries_members {r : Record} (hamount : ∀ x ∈ r.amount, x.isFinite = true) :
    Draft.empty.Carries r.members
      ⟨some r.transactionId, r.functionSignature.map some, r.nativeOperation.map some,
        some r.senderAddress, r.receiverAddress.map some, r.ownerAddress.map some,
        r.amount.map some, r.weiAmount.map some, r.signature.map some⟩ := by
  let text := fun (s : String) => stringText s.toList
  let d₁ : Draft := { Draft.empty with transactionId := some r.transactionId }
  let d₂ : Draft := { d₁ with functionSignature := r.functionSignature.map some }
  let d₃ : Draft := { d₂ with nativeOperation := r.nativeOperation.map some }
  let d₄ : Draft := { d₃ with senderAddress := some r.senderAddress }
  let d₅ : Draft := { d₄ with receiverAddress := r.receiverAddress.map some }
  let d₆ : Draft := { d₅ with ownerAddress := r.ownerAddress.map some }
  let d₇ : Draft := { d₆ with amount := r.amount.map some }
  let d₈ : Draft := { d₇ with weiAmount := r.weiAmount.map some }
  let d₉ : Draft := { d₈ with signature := r.signature.map some }
  have hid : Draft.empty.Carries
      [memberText Field.transactionId.name (Digits.write r.transactionId.toNat)] d₁ := by
    refine Draft.carries_member (writes_write _) rfl ?_
    rw [Draft.read, asWord_write]
    rfl
  have hfunction : d₁.Carries (optionalMember .functionSignature text r.functionSignature) d₂ :=
    Draft.carries_optionalMember (fun v => { d₁ with functionSignature := v }) rfl rfl
      (fun _ => rfl) _ fun s _ => exists_writes_text s
  have hnative : d₂.Carries (optionalMember .nativeOperation text r.nativeOperation) d₃ :=
    Draft.carries_optionalMember (fun v => { d₂ with nativeOperation := v }) rfl rfl
      (fun _ => rfl) _ fun s _ => exists_writes_text s
  have hsender : d₃.Carries [memberText Field.senderAddress.name (text r.senderAddress)] d₄ := by
    refine Draft.carries_member (writes_stringText _) rfl ?_
    rw [Draft.read, asText_writtenOf]
    rfl
  have hreceiver : d₄.Carries (optionalMember .receiverAddress text r.receiverAddress) d₅ :=
    Draft.carries_optionalMember (fun v => { d₄ with receiverAddress := v }) rfl rfl
      (fun _ => rfl) _ fun s _ => exists_writes_text s
  have howner : d₅.Carries (optionalMember .ownerAddress text r.ownerAddress) d₆ :=
    Draft.carries_optionalMember (fun v => { d₅ with ownerAddress := v }) rfl rfl
      (fun _ => rfl) _ fun s _ => exists_writes_text s
  have hnumber : d₆.Carries (optionalMember .amount numberText r.amount) d₇ :=
    Draft.carries_optionalMember (fun v => { d₆ with amount := v }) rfl rfl
      (fun _ => rfl) _ fun x hx => exists_writes_number (hamount x hx)
  have hwei : d₇.Carries (optionalMember .weiAmount text r.weiAmount) d₈ :=
    Draft.carries_optionalMember (fun v => { d₇ with weiAmount := v }) rfl rfl
      (fun _ => rfl) _ fun s _ => exists_writes_text s
  have hsignature : d₈.Carries (optionalMember .signature text r.signature) d₉ :=
    Draft.carries_optionalMember (fun v => { d₈ with signature := v }) rfl rfl
      (fun _ => rfl) _ fun s _ => exists_writes_text s
  exact ((((((hid.append hfunction).append hnative).append (hsender.append hreceiver)).append
    howner).append hnumber).append hwei).append hsignature

lemma join_map_some {α : Type} (value : Option α) : (value.map some).join = value := by
  cases value <;> rfl

/-- A record whose amount is finite is read back from its text. -/
theorem Record.ofText_toText {r : Record} (hamount : ∀ x ∈ r.amount, x.isFinite = true) :
    Record.ofText r.toText = .ok r := by
  obtain ⟨ms, htexts, hwrites, hread⟩ := carries_members hamount
  have hne : ms ≠ [] := by
    intro hnil
    rw [hnil] at htexts
    exact absurd htexts (by simp [Record.members])
  rw [Record.ofText, Record.toText, String.toList_ofList, htexts, ofText_objectText ms hne hwrites,
    Document.read, Record.ofTree, hread]
  simp only [bind, Except.bind, Draft.finish, join_map_some, if_true]

/-! ## Transactions -/

/-- An address that may be absent is read back. -/
lemma decodeOptionalAddress_map (field : String) (address : Option Address) :
    decodeOptionalAddress field (address.map Address.toText) = .ok address := by
  cases address with
  | none => rfl
  | some a =>
    rw [Option.map_some, decodeOptionalAddress, decodeOptional, decodeAddress,
      Address.ofText_toText]
    rfl

/-- An operation is read back from the one of its two fields that is there. -/
lemma decodeOperation_of (op : Operation) :
    decodeOperation op.call? (op.native?.map TransactionType.name) = .ok op := by
  cases op with
  | call signature => rfl
  | native type =>
    have hname : TransactionType.ofName type.name = .ok type := by
      rw [TransactionType.ofName, TransactionType.ofName?_name]
    simp only [Operation.call?, Operation.native?, Option.map_some, decodeOperation, hname]
    rfl

/-- A signature that may be absent is read back, the empty one too. -/
lemma decodeSignature_map (signature : Option (List UInt8)) :
    decodeOptional decodeSignature (signature.map encodeSignature) = .ok signature := by
  cases signature with
  | none => rfl
  | some bytes =>
    rw [Option.map_some, decodeOptional, decodeSignature, encodeSignature, String.toList_ofList,
      Base64.decode_encode]
    rfl

/-- An amount is read back from the one of its two fields that is there. -/
lemma decodeAmount_of (tx : Transaction) :
    decodeAmount (tx.tokenAmount?.map TokenAmount.value)
      (tx.nativeAmount?.map NativeAmount.toDisplay) = .ok tx.amount := by
  rw [Transaction.tokenAmount?, Transaction.nativeAmount?]
  rcases tx.amount with _ | ⟨amount⟩ | ⟨amount⟩
  · rfl
  · rfl
  · show decodeAmount none (some amount.toDisplay) = _
    rw [decodeAmount, decodeNativeAmount, NativeAmount.ofDisplay_toDisplay]
    rfl

/-- The number in the record of a transaction is its amount of tokens, and is finite. -/
lemma tokenField_eq_ok {tx : Transaction} {tokens : Option Binary64}
    (h : tokenField tx.amount = .ok tokens) :
    tokens = tx.tokenAmount?.map TokenAmount.value ∧ ∀ x ∈ tokens, x.isFinite = true := by
  rw [Transaction.tokenAmount?]
  rcases hamount : tx.amount with _ | ⟨amount⟩ | ⟨amount⟩
  · rw [hamount] at h
    injection h with htokens
    rw [← htokens]
    exact ⟨rfl, fun x hx => nomatch hx⟩
  · rw [hamount, tokenField, TokenAmount.toNumber] at h
    split at h
    · rename_i hfinite
      injection h with htokens
      rw [← htokens]
      refine ⟨rfl, ?_⟩
      intro x hx
      injection hx with hx
      rw [← hx]
      exact hfinite
    · exact nomatch h
  · rw [hamount] at h
    injection h with htokens
    rw [← htokens]
    exact ⟨rfl, fun x hx => nomatch hx⟩

/-- Only an amount of tokens that is not finite has no place in a record. -/
lemma tokenField_eq_error_iff {tx : Transaction} {fault : EncodingFault} :
    tokenField tx.amount = .error fault ↔
      ∃ a, tx.tokenAmount? = some a ∧ a.value.isFinite = false ∧ fault = .noNumber a.value := by
  rw [Transaction.tokenAmount?]
  rcases hamount : tx.amount with _ | ⟨amount⟩ | ⟨amount⟩
  · simp [tokenField]
  · show amount.toNumber.map some = .error fault ↔ ∃ a, some amount = some a ∧ _
    by_cases hfinite : amount.value.isFinite = true
    · simp [TokenAmount.toNumber, hfinite, Except.map]
    · have hfault : amount.toNumber.map some = .error (.noNumber amount.value) := by
        rw [TokenAmount.toNumber, if_neg hfinite, Except.map]
      rw [hfault]
      constructor
      · intro h
        injection h with hcause
        exact ⟨amount, rfl, Bool.eq_false_iff.mpr hfinite, hcause.symm⟩
      · intro h
        obtain ⟨a, ha, -, hcause⟩ := h
        injection ha with ha
        rw [ha, hcause]
  · simp [tokenField, Amount.token?]

/-- The transaction that a record was made of. -/
theorem Record.decode_ofTransaction {tx : Transaction} {r : Record}
    (h : Record.ofTransaction tx = .ok r) : r.decode = .ok tx := by
  rw [Record.ofTransaction] at h
  cases htokens : tokenField tx.amount with
  | error fault =>
    rw [htokens] at h
    exact nomatch h
  | ok tokens =>
    rw [htokens] at h
    injection h with hr
    have hsender : decodeAddress "senderAddress" tx.sender.toText = .ok tx.sender := by
      rw [decodeAddress, Address.ofText_toText, inField]
    rw [← hr, Record.decode, (tokenField_eq_ok htokens).1]
    simp only [hsender, decodeOperation_of, decodeOptionalAddress_map, decodeAmount_of,
      decodeSignature_map, bind, Except.bind]

end Admission.Wire

namespace Admission.Transaction

open Admission.Wire

/-- A transaction without an amount of tokens that is not finite has a JSON text, and the text is
read back as the transaction. -/
lemma exists_ofJson_eq {tx : Transaction}
    (hfinite : ∀ a, tx.tokenAmount? = some a → a.value.isFinite = true) :
    ∃ text, tx.toJson = .ok text ∧ ofJson text = .ok tx := by
  cases htokens : tokenField tx.amount with
  | error fault =>
    obtain ⟨a, ha, hinfinite, -⟩ := tokenField_eq_error_iff.mp htokens
    rw [hfinite a ha] at hinfinite
    exact nomatch hinfinite
  | ok tokens =>
    obtain ⟨r, hr, hamount⟩ : ∃ r, Record.ofTransaction tx = .ok r ∧ r.amount = tokens := by
      rw [Record.ofTransaction, htokens]
      exact ⟨_, rfl, rfl⟩
    refine ⟨r.toText, ?_, ?_⟩
    · rw [toJson, hr]
      rfl
    · have hread : Record.ofText r.toText = .ok r := by
        apply Record.ofText_toText
        rw [hamount]
        exact (tokenField_eq_ok htokens).2
      rw [ofJson, hread]
      exact Record.decode_ofTransaction hr

/-- A transaction is refused as JSON exactly when its amount of tokens is not finite, and that is
the fault; every other transaction has a JSON text, and the text is read back as the transaction. -/
theorem ofJson_toJson (tx : Transaction) :
    (∀ fault, tx.toJson = .error fault ↔
      ∃ a, tx.tokenAmount? = some a ∧ a.value.isFinite = false ∧ fault = .noNumber a.value) ∧
    ((∀ a, tx.tokenAmount? = some a → a.value.isFinite = true) →
      ∃ text, tx.toJson = .ok text ∧ ofJson text = .ok tx) := by
  refine ⟨?_, exists_ofJson_eq⟩
  intro fault
  rw [← tokenField_eq_error_iff, toJson, Record.ofTransaction]
  cases htokens : tokenField tx.amount with
  | error cause => simp [Except.map]
  | ok tokens => simp [Except.map]

/-- A call whose signature needs every kind of escape, of the negative zero, signed by no bytes. -/
theorem ofJson_toJson_negativeZero :
    let tx : Transaction :=
      ⟨UInt64.ofNat (2 ^ 64 - 1), .zero, .call "\\überweise(\"☕\",\x01𝒳)\n", some .zero, none,
        some (.token ⟨⟨UInt64.ofNat (2 ^ 63)⟩⟩), some []⟩
    (∀ a, tx.tokenAmount? = some a → a.value.isFinite = true) ∧
      ∃ text, tx.toJson = .ok text ∧ ofJson text = .ok tx := by
  intro tx
  have hfinite : ∀ a, tx.tokenAmount? = some a → a.value.isFinite = true := by
    intro a ha
    injection ha with ha
    rw [← ha]
    decide
  exact ⟨hfinite, (ofJson_toJson tx).2 hfinite⟩

end Admission.Transaction
