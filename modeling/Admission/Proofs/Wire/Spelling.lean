import Admission.Proofs.Outcome
import Admission.Proofs.Wire.RoundTrip

/-!
# What records spell

A record is decoded exactly if each of its fields spells a part of a transaction
(`Record.decode_eq_ok_iff`). An address has several spellings, and an amount of the base currency
has as many as there are texts that write it; everything else has one. So two records are of one
transaction if and only if they differ in nothing but these spellings (`Record.Spells.eq_iff`).
-/

namespace Admission

/-- A type is found under its own name only. -/
lemma TransactionType.ofName_eq_ok_iff {name : String} {type : TransactionType} :
    ofName name = .ok type ↔ name = type.name := by
  constructor
  · intro h
    unfold ofName at h
    split at h
    · rename_i found hfound
      injection h with htype
      have hfind : all.find? (fun t => t.name == name) = some found := hfound
      have hname := List.find?_some hfind
      rw [← htype, beq_iff_eq.mp hname]
    · cases h
  · rintro rfl
    rw [ofName, ofName?_name]

namespace Wire

open Admission.Text Admission.Number

/-! ## Single fields -/

/-- What succeeds in a field succeeds by itself. -/
lemma inField_eq_ok_iff {α : Type} {field : String} {x : Except DecodingFault α} {value : α} :
    inField field x = .ok value ↔ x = .ok value := by
  cases x <;> simp [inField]

/-- A field that may be absent is decoded if it is absent, or what is there is decoded. -/
lemma decodeOptional_eq_ok_iff {α β : Type} {decode : α → Except DecodingFault β}
    {value : Option α} {result : Option β} :
    decodeOptional decode value = .ok result ↔
      Option.Rel (fun value result => decode value = .ok result) value result := by
  cases value with
  | none =>
    constructor
    · intro h
      injection h with hresult
      rw [← hresult]
      exact .none
    · rintro ⟨⟩
      rfl
  | some v =>
    rw [decodeOptional, map_eq_ok_iff]
    constructor
    · rintro ⟨w, hw, rfl⟩
      exact .some hw
    · rintro ⟨hw⟩
      exact ⟨_, hw, rfl⟩

lemma decodeAddress_eq_ok_iff {field value : String} {address : Address} :
    decodeAddress field value = .ok address ↔ address.SpelledBy value := by
  rw [decodeAddress, inField_eq_ok_iff, Address.ofText_eq_ok_iff]

lemma decodeOptionalAddress_eq_ok_iff {field : String} {value : Option String}
    {address : Option Address} :
    decodeOptionalAddress field value = .ok address ↔
      Option.Rel (fun text address => address.SpelledBy text) value address := by
  simp only [decodeOptionalAddress, decodeOptional_eq_ok_iff, decodeAddress_eq_ok_iff]

lemma decodeOperation_eq_ok_iff {signature name : Option String} {op : Operation} :
    decodeOperation signature name = .ok op ↔
      signature = op.call? ∧ name = op.native?.map TransactionType.name := by
  constructor
  · intro h
    rcases signature with _ | signature <;> rcases name with _ | name
    · cases h
    · rw [decodeOperation, map_eq_ok_iff] at h
      obtain ⟨type, htype, rfl⟩ := h
      rw [inField_eq_ok_iff, TransactionType.ofName_eq_ok_iff] at htype
      exact ⟨rfl, congrArg some htype⟩
    · injection h with hop
      rw [← hop]
      exact ⟨rfl, rfl⟩
    · cases h
  · rintro ⟨rfl, rfl⟩
    exact decodeOperation_of op

/-- A number of tokens is decoded as it is, and an amount of the base currency from any text that
writes it. -/
lemma decodeAmount_eq_ok_iff {tokens : Option Binary64} {wei : Option String}
    {amount : Option Amount} :
    decodeAmount tokens wei = .ok amount ↔
      tokens = (amount.bind Amount.token?).map TokenAmount.value ∧
      Option.Rel (fun text native => NativeAmount.ofDisplay text = .ok native) wei
        (amount.bind Amount.native?) := by
  constructor
  · intro h
    rcases tokens with _ | tokens <;> rcases wei with _ | wei
    · injection h with hamount
      rw [← hamount]
      exact ⟨rfl, .none⟩
    · rw [decodeAmount, map_eq_ok_iff] at h
      obtain ⟨native, hnative, rfl⟩ := h
      exact ⟨rfl, .some (inField_eq_ok_iff.mp hnative)⟩
    · injection h with hamount
      rw [← hamount]
      exact ⟨rfl, .none⟩
    · cases h
  · rintro ⟨rfl, hnative⟩
    rcases amount with _ | ⟨amount⟩ | ⟨amount⟩
    · rcases hnative with _ | _
      rfl
    · rcases hnative with _ | _
      rfl
    · rcases hnative with hwei | _
      have hfield : decodeNativeAmount _ = .ok amount := inField_eq_ok_iff.mpr hwei
      show (decodeNativeAmount _).map _ = _
      rw [hfield]
      rfl

/-- A signature has one spelling. -/
lemma decodeSignature_eq_ok_iff {value : String} {bytes : List UInt8} :
    decodeSignature value = .ok bytes ↔ value = encodeSignature bytes := by
  have hdecode : decodeSignature value = .ok bytes ↔ Base64.decode value.toList = .ok bytes := by
    rw [decodeSignature]
    cases Base64.decode value.toList <;> simp
  rw [hdecode, Base64.decode_eq_ok_iff, encodeSignature]
  constructor
  · intro h
    rw [← h, String.ofList_toList]
  · rintro rfl
    exact String.toList_ofList

lemma decodeOptionalSignature_eq_ok_iff {value : Option String}
    {signature : Option (List UInt8)} :
    decodeOptional decodeSignature value = .ok signature ↔
      value = signature.map encodeSignature := by
  rw [decodeOptional_eq_ok_iff]
  constructor
  · rintro (h | _)
    · exact congrArg some (decodeSignature_eq_ok_iff.mp h)
    · rfl
  · rintro rfl
    cases signature with
    | none => exact .none
    | some bytes => exact .some (decodeSignature_eq_ok_iff.mpr rfl)

/-! ## Whole records -/

namespace Record

/-- Every field of the record spells its part of the transaction. -/
structure Spells (r : Record) (tx : Transaction) : Prop where
  transactionId : r.transactionId = tx.id
  functionSignature : r.functionSignature = tx.operation.call?
  nativeOperation : r.nativeOperation = tx.operation.native?.map TransactionType.name
  senderAddress : tx.sender.SpelledBy r.senderAddress
  receiverAddress : Option.Rel (fun text address => address.SpelledBy text) r.receiverAddress
    tx.receiver
  ownerAddress : Option.Rel (fun text address => address.SpelledBy text) r.ownerAddress tx.owner
  amount : r.amount = tx.tokenAmount?.map TokenAmount.value
  weiAmount : Option.Rel (fun text amount => NativeAmount.ofDisplay text = .ok amount) r.weiAmount
    tx.nativeAmount?
  signature : r.signature = tx.signature.map encodeSignature

/-- A record is decoded as the transaction that it spells. -/
theorem decode_eq_ok_iff {r : Record} {tx : Transaction} :
    r.decode = .ok tx ↔ r.Spells tx := by
  simp only [decode, bind_eq_ok_iff, decodeAddress_eq_ok_iff, decodeOperation_eq_ok_iff,
    decodeOptionalAddress_eq_ok_iff, decodeAmount_eq_ok_iff, decodeOptionalSignature_eq_ok_iff]
  constructor
  · rintro ⟨sender, hsender, op, ⟨hcall, hnative⟩, owner, howner, receiver, hreceiver, amount,
      ⟨htokens, hwei⟩, signature, hsignature, h⟩
    injection h with htx
    rw [← htx]
    exact ⟨rfl, hcall, hnative, hsender, hreceiver, howner, htokens, hwei, hsignature⟩
  · rintro ⟨hid, hcall, hnative, hsender, hreceiver, howner, htokens, hwei, hsignature⟩
    refine ⟨tx.sender, hsender, tx.operation, ⟨hcall, hnative⟩, tx.owner, howner, tx.receiver,
      hreceiver, tx.amount, ⟨htokens, hwei⟩, tx.signature, hsignature, ?_⟩
    rw [hid]

end Record

/-! ## Records of one transaction -/

section Optional

variable {α β : Type} {spells : α → β → Prop} {value value' : Option α} {result : Option β}

/-- Fields that may be absent and spell one result agree. -/
lemma agree_of_spells (h : Option.Rel spells value result)
    (h' : Option.Rel spells value' result) :
    Option.Rel (fun v v' => ∃ w, spells v w ∧ spells v' w) value value' := by
  rcases h with hv | _
  · rcases h' with hv' | _
    exact .some ⟨_, hv, hv'⟩
  · rcases h' with _ | _
    exact .none

/-- A field that agrees with another one spells what that one does, if a value spells one result. -/
lemma spells_of_agree (hunique : ∀ {v w w'}, spells v w → spells v w' → w = w')
    (h : Option.Rel spells value result)
    (hagree : Option.Rel (fun v v' => ∃ w, spells v w ∧ spells v' w) value value') :
    Option.Rel spells value' result := by
  rcases hagree with ⟨w, hv, hv'⟩ | _
  · rcases h with hw | _
    rw [hunique hw hv]
    exact .some hv'
  · rcases h with _ | _
    exact .none

end Optional

namespace Record

/-- Two texts spell one address. -/
def SameAddress (text text' : String) : Prop :=
  ∃ address : Address, address.SpelledBy text ∧ address.SpelledBy text'

/-- Two texts write one amount of the base currency. -/
def SameWei (text text' : String) : Prop :=
  ∃ amount, NativeAmount.ofDisplay text = .ok amount ∧ NativeAmount.ofDisplay text' = .ok amount

/-- Two records differ in the spelling of addresses and of a native amount at most. -/
structure Respells (r r' : Record) : Prop where
  transactionId : r.transactionId = r'.transactionId
  functionSignature : r.functionSignature = r'.functionSignature
  nativeOperation : r.nativeOperation = r'.nativeOperation
  senderAddress : SameAddress r.senderAddress r'.senderAddress
  receiverAddress : Option.Rel SameAddress r.receiverAddress r'.receiverAddress
  ownerAddress : Option.Rel SameAddress r.ownerAddress r'.ownerAddress
  amount : r.amount = r'.amount
  weiAmount : Option.Rel SameWei r.weiAmount r'.weiAmount
  signature : r.signature = r'.signature

/-- A text spells one address. -/
lemma eq_of_spelledBy {text : String} {a a' : Address} (h : a.SpelledBy text)
    (h' : a'.SpelledBy text) : a = a' :=
  Except.ok.inj ((Address.ofText_eq_ok_iff.mpr h).symm.trans (Address.ofText_eq_ok_iff.mpr h'))

variable {r r' : Record} {tx tx' : Transaction}

/-- A record that is spelled differently is of the same transaction. -/
lemma Spells.respell (h : r.Spells tx) (hsame : r.Respells r') : r'.Spells tx where
  transactionId := hsame.transactionId.symm.trans h.transactionId
  functionSignature := hsame.functionSignature.symm.trans h.functionSignature
  nativeOperation := hsame.nativeOperation.symm.trans h.nativeOperation
  senderAddress := by
    obtain ⟨address, hspells, hspells'⟩ := hsame.senderAddress
    rwa [eq_of_spelledBy h.senderAddress hspells]
  receiverAddress := spells_of_agree eq_of_spelledBy h.receiverAddress hsame.receiverAddress
  ownerAddress := spells_of_agree eq_of_spelledBy h.ownerAddress hsame.ownerAddress
  amount := hsame.amount.symm.trans h.amount
  weiAmount := spells_of_agree (fun hw hw' => Except.ok.inj (hw.symm.trans hw')) h.weiAmount
    hsame.weiAmount
  signature := hsame.signature.symm.trans h.signature

/-- Two records are of one transaction if and only if they differ in spelling at most. -/
theorem Spells.eq_iff (h : r.Spells tx) (h' : r'.Spells tx') : tx = tx' ↔ r.Respells r' := by
  constructor
  · rintro rfl
    exact {
      transactionId := h.transactionId.trans h'.transactionId.symm
      functionSignature := h.functionSignature.trans h'.functionSignature.symm
      nativeOperation := h.nativeOperation.trans h'.nativeOperation.symm
      senderAddress := ⟨tx.sender, h.senderAddress, h'.senderAddress⟩
      receiverAddress := agree_of_spells h.receiverAddress h'.receiverAddress
      ownerAddress := agree_of_spells h.ownerAddress h'.ownerAddress
      amount := h.amount.trans h'.amount.symm
      weiAmount := agree_of_spells h.weiAmount h'.weiAmount
      signature := h.signature.trans h'.signature.symm }
  · intro hsame
    have hdecode : r'.decode = .ok tx := decode_eq_ok_iff.mpr (h.respell hsame)
    have hdecode' : r'.decode = .ok tx' := decode_eq_ok_iff.mpr h'
    exact Except.ok.inj (hdecode.symm.trans hdecode')

end Record

end Wire

end Admission
