import Admission.Proofs.Wire.Spelling

/-!
# Which records are accepted, and what the others are blamed for

Six items of a record are judged, in order: the sender, the operation, the owner, the receiver, the
amounts and the signature. What each of them may be is told by the texts alone, without the decoder
(`Fits`), and so is what an item that does not fit is blamed for (`Offends`). A record is accepted
if and only if all items fit, and otherwise gets the blame of the first item that does not
(`Record.decode_accepts`), whatever is wrong with the items behind it.
-/

namespace Admission

/-- A name that no type has is refused, and is named. -/
lemma TransactionType.ofName_eq_error_iff {name : String} {fault : DecodingFault} :
    ofName name = .error fault ↔
      (¬ ∃ type : TransactionType, name = type.name) ∧ fault = .unknownType name := by
  cases hname : ofName name with
  | ok type =>
    have htype : name = type.name := ofName_eq_ok_iff.mp hname
    exact iff_of_false nofun fun h => h.1 ⟨type, htype⟩
  | error found =>
    have hnone : ¬ ∃ type : TransactionType, name = type.name := by
      rintro ⟨type, htype⟩
      rw [ofName_eq_ok_iff.mpr htype] at hname
      exact nomatch hname
    have hfound : found = .unknownType name := by
      unfold ofName at hname
      split at hname
      · exact nomatch hname
      · injection hname with hname
        exact hname.symm
    simp [hnone, hfound, eq_comm]

namespace Wire

open Admission.Text

/-! ## Faults of single fields -/

/-- What fails in a field fails by itself, and the field is named. -/
lemma inField_eq_error_iff {α : Type} {field : String} {x : Except DecodingFault α}
    {fault : DecodingFault} :
    inField field x = .error fault ↔ ∃ cause, x = .error cause ∧ fault = .field field cause := by
  cases x <;> simp [inField, eq_comm]

/-- A field that may be absent is read if what is there is read. -/
lemma exists_decodeOptional_iff {α β : Type} {decode : α → Except DecodingFault β}
    {value : Option α} :
    (∃ result, decodeOptional decode value = .ok result) ↔
      ∀ v, value = some v → ∃ w, decode v = .ok w := by
  cases value with
  | none => simp [decodeOptional]
  | some v => simp [decodeOptional, map_eq_ok_iff]

lemma decodeOptional_eq_error_iff {α β : Type} {decode : α → Except DecodingFault β}
    {value : Option α} {fault : DecodingFault} :
    decodeOptional decode value = .error fault ↔ ∃ v, value = some v ∧ decode v = .error fault := by
  cases value with
  | none => simp [decodeOptional]
  | some v => simp [decodeOptional, map_eq_error_iff]

lemma exists_decodeAddress_iff {field text : String} :
    (∃ address, decodeAddress field text = .ok address) ↔ Address.IsText text := by
  simp only [decodeAddress, inField_eq_ok_iff, Address.exists_ofText_iff]

lemma decodeAddress_eq_error_iff {field text : String} {fault : DecodingFault} :
    decodeAddress field text = .error fault ↔
      ∃ cause, Address.ofText text = .error cause ∧ fault = .field field cause :=
  inField_eq_error_iff

lemma exists_decodeSignature_iff {text : String} :
    (∃ bytes, decodeSignature text = .ok bytes) ↔ Base64.IsText text.toList := by
  rw [← Base64.exists_decode_iff, decodeSignature]
  cases Base64.decode text.toList <;> simp

lemma decodeSignature_eq_error_iff {text : String} {fault : DecodingFault} :
    decodeSignature text = .error fault ↔
      ∃ cause, Base64.decode text.toList = .error cause ∧ fault = .signature cause := by
  rw [decodeSignature]
  cases Base64.decode text.toList <;> simp [eq_comm]

namespace Record

/-! ## Items -/

/-- What is judged of a record. -/
inductive Item where
  | sender
  | operation
  | owner
  | receiver
  | amounts
  | signature
deriving DecidableEq, Repr

/-- All items, in the order in which they are judged. -/
def Item.all : List Item :=
  [.sender, .operation, .owner, .receiver, .amounts, .signature]

lemma Item.mem_all (item : Item) : item ∈ all := by
  cases item <;> decide

/-- What an item must be. -/
def Fits (r : Record) : Item → Prop
  | .sender => Address.IsText r.senderAddress
  | .operation =>
    (∃ selector, r.functionSignature = some selector ∧ r.nativeOperation = none) ∨
      ∃ type : TransactionType, r.functionSignature = none ∧ r.nativeOperation = some type.name
  | .owner => ∀ text, r.ownerAddress = some text → Address.IsText text
  | .receiver => ∀ text, r.receiverAddress = some text → Address.IsText text
  | .amounts => (r.amount = none ∨ r.weiAmount = none) ∧
      ∀ text, r.weiAmount = some text → NativeAmount.IsDisplayText text
  | .signature => ∀ text, r.signature = some text → Base64.IsText text.toList

/-- What an item is blamed for. Two amounts are blamed for being two, whatever the second one is. -/
inductive Offends (r : Record) : Item → DecodingFault → Prop
  | sender {cause : DecodingFault} (h : Address.ofText r.senderAddress = .error cause) :
      Offends r .sender (.field "senderAddress" cause)
  | noOperation (hselector : r.functionSignature = none) (hname : r.nativeOperation = none) :
      Offends r .operation .noOperation
  | bothOperations {selector name : String} (hselector : r.functionSignature = some selector)
      (hname : r.nativeOperation = some name) : Offends r .operation .bothOperations
  | unknownName {name : String} (hselector : r.functionSignature = none)
      (hname : r.nativeOperation = some name) (h : ¬ ∃ type : TransactionType, name = type.name) :
      Offends r .operation (.field "nativeOperation" (.unknownType name))
  | owner {text : String} {cause : DecodingFault} (htext : r.ownerAddress = some text)
      (h : Address.ofText text = .error cause) : Offends r .owner (.field "ownerAddress" cause)
  | receiver {text : String} {cause : DecodingFault} (htext : r.receiverAddress = some text)
      (h : Address.ofText text = .error cause) :
      Offends r .receiver (.field "receiverAddress" cause)
  | bothAmounts {tokens : Number.Binary64} {text : String} (htokens : r.amount = some tokens)
      (htext : r.weiAmount = some text) : Offends r .amounts .bothAmounts
  | weiAmount {text : String} {cause : DecodingFault} (htokens : r.amount = none)
      (htext : r.weiAmount = some text) (h : NativeAmount.ofDisplay text = .error cause) :
      Offends r .amounts (.field "weiAmount" cause)
  | signature {text : String} {cause : Base64.Fault} (htext : r.signature = some text)
      (h : Base64.decode text.toList = .error cause) : Offends r .signature (.signature cause)

/-! ## Judging -/

/-- Decodes an item and keeps nothing but its fault. -/
def judge (r : Record) : Item → Except DecodingFault Unit
  | .sender => (decodeAddress "senderAddress" r.senderAddress).map fun _ => ()
  | .operation => (decodeOperation r.functionSignature r.nativeOperation).map fun _ => ()
  | .owner => (decodeOptionalAddress "ownerAddress" r.ownerAddress).map fun _ => ()
  | .receiver => (decodeOptionalAddress "receiverAddress" r.receiverAddress).map fun _ => ()
  | .amounts => (decodeAmount r.amount r.weiAmount).map fun _ => ()
  | .signature => (decodeOptional decodeSignature r.signature).map fun _ => ()

variable {r : Record} {fault : DecodingFault}

/-- To decode a record is to judge its items in order. -/
lemma forM_judge : forM Item.all r.judge = r.decode.map fun _ => () := by
  unfold decode
  simp only [Item.all, List.forM_cons, List.forM_nil, judge]
  -- Both sides stop at the first step that fails, with its fault.
  cases decodeAddress "senderAddress" r.senderAddress with
  | error _ => rfl
  | ok _ =>
  cases decodeOperation r.functionSignature r.nativeOperation with
  | error _ => rfl
  | ok _ =>
  cases decodeOptionalAddress "ownerAddress" r.ownerAddress with
  | error _ => rfl
  | ok _ =>
  cases decodeOptionalAddress "receiverAddress" r.receiverAddress with
  | error _ => rfl
  | ok _ =>
  cases decodeAmount r.amount r.weiAmount with
  | error _ => rfl
  | ok _ => cases decodeOptional decodeSignature r.signature <;> rfl

/-- An operation is decoded from a selector alone, or from the name of a type alone. -/
lemma exists_decodeOperation_iff {selector name : Option String} :
    (∃ op, decodeOperation selector name = .ok op) ↔
      (∃ s, selector = some s ∧ name = none) ∨
        ∃ type : TransactionType, selector = none ∧ name = some type.name := by
  simp only [decodeOperation_eq_ok_iff]
  constructor
  · rintro ⟨op, rfl, rfl⟩
    cases op with
    | call s => exact .inl ⟨s, rfl, rfl⟩
    | native type => exact .inr ⟨type, rfl, rfl⟩
  · rintro (⟨s, rfl, rfl⟩ | ⟨type, rfl, rfl⟩)
    · exact ⟨.call s, rfl, rfl⟩
    · exact ⟨.native type, rfl, rfl⟩

/-- At most one amount is decoded, and one of the base currency from a text that writes it. -/
lemma exists_decodeAmount_iff {tokens : Option Number.Binary64} {wei : Option String} :
    (∃ amount, decodeAmount tokens wei = .ok amount) ↔
      (tokens = none ∨ wei = none) ∧ ∀ text, wei = some text → NativeAmount.IsDisplayText text := by
  rcases tokens with _ | tokens <;> rcases wei with _ | text
  · simp [decodeAmount]
  · simp [decodeAmount, decodeNativeAmount, map_eq_ok_iff, inField_eq_ok_iff,
      ← NativeAmount.exists_ofDisplay_iff]
  · simp [decodeAmount]
  · simp [decodeAmount]

/-- An item passes if it is what it must be. -/
lemma judge_eq_ok_iff {item : Item} : r.judge item = .ok () ↔ r.Fits item := by
  cases item with
  | sender => simp [judge, Fits, map_eq_ok_iff, exists_decodeAddress_iff]
  | operation => simp [judge, Fits, map_eq_ok_iff, exists_decodeOperation_iff]
  | owner =>
    simp [judge, Fits, map_eq_ok_iff, decodeOptionalAddress, exists_decodeOptional_iff,
      exists_decodeAddress_iff]
  | receiver =>
    simp [judge, Fits, map_eq_ok_iff, decodeOptionalAddress, exists_decodeOptional_iff,
      exists_decodeAddress_iff]
  | amounts => simp [judge, Fits, map_eq_ok_iff, exists_decodeAmount_iff]
  | signature =>
    simp [judge, Fits, map_eq_ok_iff, exists_decodeOptional_iff, exists_decodeSignature_iff]

/-- An item is blamed for its fault. -/
lemma Offends.judge {item : Item} (h : r.Offends item fault) : r.judge item = .error fault := by
  cases h with
  | sender h => exact map_eq_error_iff.mpr (decodeAddress_eq_error_iff.mpr ⟨_, h, rfl⟩)
  | noOperation hselector hname => rw [Record.judge, hselector, hname]; rfl
  | bothOperations hselector hname => rw [Record.judge, hselector, hname]; rfl
  | unknownName hselector hname h =>
    have htype := TransactionType.ofName_eq_error_iff.mpr ⟨h, rfl⟩
    rw [Record.judge, hselector, hname, decodeOperation, htype]
    rfl
  | owner htext h =>
    exact map_eq_error_iff.mpr (decodeOptional_eq_error_iff.mpr
      ⟨_, htext, decodeAddress_eq_error_iff.mpr ⟨_, h, rfl⟩⟩)
  | receiver htext h =>
    exact map_eq_error_iff.mpr (decodeOptional_eq_error_iff.mpr
      ⟨_, htext, decodeAddress_eq_error_iff.mpr ⟨_, h, rfl⟩⟩)
  | bothAmounts htokens htext => rw [Record.judge, htokens, htext]; rfl
  | weiAmount htokens htext h =>
    rw [Record.judge, htokens, htext, decodeAmount, decodeNativeAmount, h]
    rfl
  | signature htext h =>
    exact map_eq_error_iff.mpr (decodeOptional_eq_error_iff.mpr
      ⟨_, htext, decodeSignature_eq_error_iff.mpr ⟨_, h, rfl⟩⟩)

/-- What an item fails with is what it is blamed for. -/
lemma offends_of_judge {item : Item} (h : r.judge item = .error fault) : r.Offends item fault := by
  cases item with
  | sender =>
    obtain ⟨cause, hcause, rfl⟩ := decodeAddress_eq_error_iff.mp (map_eq_error_iff.mp h)
    exact .sender hcause
  | operation =>
    rw [Record.judge, map_eq_error_iff] at h
    cases hselector : r.functionSignature with
    | none =>
      cases hname : r.nativeOperation with
      | none =>
        rw [hselector, hname] at h
        injection h with h
        exact h ▸ .noOperation hselector hname
      | some name =>
        rw [hselector, hname, decodeOperation, map_eq_error_iff] at h
        obtain ⟨cause, hcause, rfl⟩ := inField_eq_error_iff.mp h
        obtain ⟨hnone, rfl⟩ := TransactionType.ofName_eq_error_iff.mp hcause
        exact .unknownName hselector hname hnone
    | some selector =>
      cases hname : r.nativeOperation with
      | none =>
        rw [hselector, hname] at h
        cases h
      | some name =>
        rw [hselector, hname] at h
        injection h with h
        exact h ▸ .bothOperations hselector hname
  | owner =>
    obtain ⟨text, htext, h⟩ := decodeOptional_eq_error_iff.mp (map_eq_error_iff.mp h)
    obtain ⟨cause, hcause, rfl⟩ := decodeAddress_eq_error_iff.mp h
    exact .owner htext hcause
  | receiver =>
    obtain ⟨text, htext, h⟩ := decodeOptional_eq_error_iff.mp (map_eq_error_iff.mp h)
    obtain ⟨cause, hcause, rfl⟩ := decodeAddress_eq_error_iff.mp h
    exact .receiver htext hcause
  | amounts =>
    rw [Record.judge, map_eq_error_iff] at h
    -- The text of the second amount is looked at only where there is no first one.
    cases htokens : r.amount with
    | none =>
      cases htext : r.weiAmount with
      | none =>
        rw [htokens, htext] at h
        cases h
      | some text =>
        rw [htokens, htext, decodeAmount, map_eq_error_iff] at h
        obtain ⟨cause, hcause, rfl⟩ := inField_eq_error_iff.mp h
        exact .weiAmount htokens htext hcause
    | some tokens =>
      cases htext : r.weiAmount with
      | none =>
        rw [htokens, htext] at h
        cases h
      | some text =>
        rw [htokens, htext] at h
        injection h with h
        exact h ▸ .bothAmounts htokens htext
  | signature =>
    obtain ⟨text, htext, h⟩ := decodeOptional_eq_error_iff.mp (map_eq_error_iff.mp h)
    obtain ⟨cause, hcause, rfl⟩ := decodeSignature_eq_error_iff.mp h
    exact .signature htext hcause

lemma judge_eq_error_iff {item : Item} : r.judge item = .error fault ↔ r.Offends item fault :=
  ⟨offends_of_judge, Offends.judge⟩

/-- An item either fits or is blamed for one thing. -/
lemma not_fits_iff {item : Item} : ¬ r.Fits item ↔ ∃! fault, r.Offends item fault := by
  simp only [← judge_eq_ok_iff, ← judge_eq_error_iff]
  cases r.judge item with
  | ok _ => simp
  | error found => simp [eq_comm (a := found)]

/-! ## Verdicts -/

/-- A record is accepted if and only if all its items fit, and otherwise gets the blame of the first
item that does not, which is one. Two amounts are blamed for being two as soon as what is judged
before them fits, whatever the text of the second one is. -/
theorem decode_accepts (r : Record) :
    ((∃ tx, r.decode = .ok tx) ↔ ∀ item, r.Fits item) ∧
    (∀ fault, r.decode = .error fault ↔
      ∃ earlier item later, Item.all = earlier ++ item :: later ∧
        (∀ before ∈ earlier, r.Fits before) ∧ r.Offends item fault) ∧
    (∀ item, ¬ r.Fits item ↔ ∃! fault, r.Offends item fault) ∧
    (∀ tokens text, r.amount = some tokens → r.weiAmount = some text →
      (∀ before ∈ [Item.sender, .operation, .owner, .receiver], r.Fits before) →
      r.decode = .error .bothAmounts) := by
  have hfails : ∀ fault, r.decode = .error fault ↔
      ∃ earlier item later, Item.all = earlier ++ item :: later ∧
        (∀ before ∈ earlier, r.Fits before) ∧ r.Offends item fault := by
    intro fault
    have hjudge : r.decode = .error fault ↔ forM Item.all r.judge = .error fault := by
      rw [forM_judge, map_eq_error_iff]
    rw [hjudge, forM_eq_error_iff]
    simp only [judge_eq_ok_iff, judge_eq_error_iff]
  refine ⟨?_, hfails, fun item => not_fits_iff, ?_⟩
  · have hjudge : (∃ tx, r.decode = .ok tx) ↔ forM Item.all r.judge = .ok () := by
      simp [forM_judge, map_eq_ok_iff]
    rw [hjudge, forM_eq_ok_iff]
    simp only [judge_eq_ok_iff]
    exact ⟨fun h item => h item item.mem_all, fun h item _ => h item⟩
  · intro tokens text htokens htext hbefore
    exact (hfails _).mpr ⟨_, .amounts, [.signature], rfl, hbefore, .bothAmounts htokens htext⟩

/-- A record with three faults: two amounts, of which the second one is no decimal, and a signature
that is no padded text. It is blamed for the two amounts. -/
theorem decode_accepts_of_two_amounts :
    let r : Record :=
      ⟨7, none, some "TRANSFER", String.ofList ('0' :: 'X' :: List.replicate 40 'A'), none, none,
        some ⟨0⟩, some "1,5", some "QQ="⟩
    NativeAmount.ofDisplay "1,5" = .error (.nativeShape "1,5") ∧
      ¬ r.Fits .signature ∧ r.decode = .error .bothAmounts := by
  intro r
  obtain ⟨-, -, -, htwo⟩ := decode_accepts r
  have hsender : Address.IsText r.senderAddress :=
    ⟨['0', 'X'], by decide, List.replicate 40 'A', String.toList_ofList, List.length_replicate,
      fun c hc => by rw [List.eq_of_mem_replicate hc]; decide⟩
  have hsignature : Base64.decode "QQ=".toList = .error .badPadding := by decide
  refine ⟨by decide, ?_, htwo _ _ rfl rfl ?_⟩
  · intro hfits
    obtain ⟨bytes, hbytes⟩ := Base64.exists_decode_iff.mpr (hfits _ rfl)
    rw [hsignature] at hbytes
    exact nomatch hbytes
  · simp only [List.forall_mem_cons]
    exact ⟨hsender, .inr ⟨.transfer, rfl, rfl⟩, nofun, nofun, List.forall_mem_nil _⟩

end Record

end Wire

end Admission
