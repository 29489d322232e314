import Mathlib.Data.List.Forall2
import Admission.Proofs.Amount.Token
import Admission.Proofs.Transaction.Binding

/-!
# The fields of a payload

After number and selector, a payload shows the arguments: first addresses, then an amount. The type
of the operation says which (`Shape.fields`), and a field's text tells which of them it is, as only
addresses have an `x` and only amounts of tokens a point (`FieldKind.kindOf_of_spells`). So the
payloads of an operation are its selector followed by any texts of the kinds that its type asks for
(`Transaction.exists_fields_of_payload`, `Transaction.exists_of_fields`).
-/

namespace Admission

open Admission.Text Admission.Number

/-! ## Kinds of fields -/

/-- What a field of a payload can be, after the selector. -/
inductive FieldKind where
  | address
  | tokens
  | wei
deriving DecidableEq, Repr

namespace FieldKind

/-- The texts of a kind. -/
def Spells : FieldKind → List Char → Prop
  | address, text => ∃ a : Address, text = a.toText.toList
  | tokens, text => ∃ a : TokenAmount, a.canonical = .ok text
  | wei, text => ∃ a : NativeAmount, text = a.weiText.toList

/-- The kind that a text looks like. -/
def kindOf (text : List Char) : FieldKind :=
  if 'x' ∈ text then address else if '.' ∈ text then tokens else wei

variable {kind : FieldKind} {text : List Char}

/-- There are texts of every kind. -/
lemma exists_spells (kind : FieldKind) : ∃ text, kind.Spells text := by
  cases kind with
  | address => exact ⟨_, .zero, rfl⟩
  | tokens => exact ⟨_, ⟨⟨0⟩⟩, rfl⟩
  | wei => exact ⟨_, ⟨0⟩, rfl⟩

/-- What is no digit is not in the text of an amount in wei. -/
lemma notMem_weiText (a : NativeAmount) {c : Char} (hc : c.isDigit = false) :
    c ∉ a.weiText.toList := by
  intro hmem
  rw [NativeAmount.weiText, String.toList_ofList] at hmem
  rw [Digits.isDigit_of_mem (Digits.allDigits_write a.wei) hmem] at hc
  exact nomatch hc

/-- No field has a comma. -/
lemma comma_notMem (h : kind.Spells text) : ',' ∉ text := by
  cases kind with
  | address =>
    obtain ⟨a, rfl⟩ := h
    rw [Address.toList_toText]
    intro hmem
    simp only [List.mem_cons, Char.reduceEq, false_or] at hmem
    obtain ⟨value, hvalue, hdigit⟩ := Hex.exists_digit_of_mem_encode hmem
    exact (Hex.digitChar_plain value hvalue).2 hdigit.symm
  | tokens =>
    obtain ⟨a, ha⟩ := h
    exact TokenAmount.notMem_canonical ha (.inl rfl)
  | wei =>
    obtain ⟨a, rfl⟩ := h
    exact notMem_weiText a rfl

/-- A field looks like what it is. -/
theorem kindOf_of_spells (h : kind.Spells text) : kindOf text = kind := by
  cases kind with
  | address =>
    obtain ⟨a, rfl⟩ := h
    have hx : 'x' ∈ a.toText.toList := by simp [Address.toList_toText]
    rw [kindOf, if_pos hx]
  | tokens =>
    obtain ⟨a, ha⟩ := h
    obtain ⟨-, htext⟩ := TokenAmount.canonical_eq_ok_iff.mp ha
    have hx : 'x' ∉ text := TokenAmount.notMem_canonical ha (.inr rfl)
    have hpoint : '.' ∈ text := htext ▸ Layout.point_mem_finiteText rfl a.value
    rw [kindOf, if_neg hx, if_pos hpoint]
  | wei =>
    obtain ⟨a, rfl⟩ := h
    rw [kindOf, if_neg (notMem_weiText a rfl), if_neg (notMem_weiText a rfl)]

/-! ## Lists of fields -/

/-- There are texts of all kinds that are asked for. -/
lemma exists_forall₂_spells (kinds : List FieldKind) :
    ∃ texts, List.Forall₂ Spells kinds texts := by
  induction kinds with
  | nil => exact ⟨[], .nil⟩
  | cons kind kinds ih =>
    obtain ⟨texts, htexts⟩ := ih
    obtain ⟨text, htext⟩ := exists_spells kind
    exact ⟨text :: texts, .cons htext htexts⟩

variable {kinds : List FieldKind} {texts : List (List Char)}

/-- Fields look like what they are. -/
lemma map_kindOf (h : List.Forall₂ Spells kinds texts) : texts.map kindOf = kinds := by
  induction h with
  | nil => rfl
  | cons htext _ ih => rw [List.map_cons, kindOf_of_spells htext, ih]

lemma comma_notMem_of_forall₂ (h : List.Forall₂ Spells kinds texts) :
    ∀ text ∈ texts, ',' ∉ text := by
  induction h with
  | nil => exact List.forall_mem_nil _
  | cons htext _ ih => exact List.forall_mem_cons.mpr ⟨comma_notMem htext, ih⟩

/-- Where the last fields are of certain kinds, the fields before them are of the kinds before. -/
lemma forall₂_of_append {shown texts' : List (List Char)} {kinds' : List FieldKind}
    (h : List.Forall₂ Spells kinds (shown ++ texts')) (h' : List.Forall₂ Spells kinds' texts') :
    ∃ before, List.Forall₂ Spells before shown ∧ kinds = before ++ kinds' := by
  refine ⟨shown.map kindOf, ?_, ?_⟩
  · have hbefore := List.forall₂_take_append kinds shown texts' h
    rwa [← map_kindOf hbefore] at hbefore
  · rw [← map_kindOf h, List.map_append, map_kindOf h']

end FieldKind

/-! ## Fields told apart by commas -/

section

variable {fields fields' : List (List Char)}

/-- A text with a comma after it does not open a text without commas. -/
lemma not_prefix_of_comma_notMem {text : List Char} (s : List Char) (h : ',' ∉ text) :
    ¬ s ++ [','] <+: text :=
  fun hopens => h (hopens.subset (by simp))

/-- Fields without commas are told apart by the commas before them. -/
lemma commaFields_inj (hfields : ∀ text ∈ fields, ',' ∉ text)
    (hfields' : ∀ text ∈ fields', ',' ∉ text) (h : commaFields fields = commaFields fields') :
    fields = fields' := by
  induction fields generalizing fields' with
  | nil =>
    cases fields' with
    | nil => rfl
    | cons field' rest' => exact nomatch h
  | cons field rest ih =>
    cases fields' with
    | nil => exact nomatch h
    | cons field' rest' =>
      obtain ⟨hfield, hrest⟩ := List.forall_mem_cons.mp hfields
      obtain ⟨hfield', hrest'⟩ := List.forall_mem_cons.mp hfields'
      have htails : field ++ commaFields rest = field' ++ commaFields rest' :=
        (List.cons.inj h).2
      obtain ⟨rfl, htail⟩ := append_commaFields_inj (not_prefix_of_comma_notMem _ hfield')
        (not_prefix_of_comma_notMem _ hfield) htails
      rw [ih hrest hrest' htail]

/-- Every text is a text without commas and fields after it. -/
lemma exists_eq_append_commaFields (text : List Char) :
    ∃ first fields, text = first ++ commaFields fields ∧ ',' ∉ first ∧
      ∀ field ∈ fields, ',' ∉ field := by
  induction text with
  | nil => exact ⟨[], [], rfl, List.not_mem_nil, List.forall_mem_nil _⟩
  | cons c text ih =>
    obtain ⟨first, fields, rfl, hfirst, hfields⟩ := ih
    by_cases hc : c = ','
    · exact ⟨[], first :: fields, by rw [hc]; rfl, List.not_mem_nil,
        List.forall_mem_cons.mpr ⟨hfirst, hfields⟩⟩
    · refine ⟨c :: first, fields, rfl, ?_, hfields⟩
      rw [List.mem_cons, not_or]
      exact ⟨fun h => hc h.symm, hfirst⟩

/-- Where fields end like others, the others are the last of them, and the fields before those make
up the rest. -/
lemma exists_of_commaFields_eq_append {part : List Char} (hfields : ∀ text ∈ fields, ',' ∉ text)
    (hfields' : ∀ text ∈ fields', ',' ∉ text)
    (h : commaFields fields = part ++ commaFields fields') :
    ∃ shown, fields = shown ++ fields' ∧ part = commaFields shown := by
  obtain ⟨first, shown, rfl, hfirst, hshown⟩ := exists_eq_append_commaFields part
  -- What begins with a field's comma begins with no text before it.
  have hnone : first = [] := by
    cases first with
    | nil => rfl
    | cons c first =>
      cases fields with
      | nil => exact nomatch h
      | cons field rest =>
        obtain ⟨rfl, -⟩ := List.cons.inj h
        exact absurd (List.mem_cons_self ..) hfirst
  rw [hnone, List.nil_append] at h ⊢
  rw [← commaFields_append] at h
  have hall : ∀ text ∈ shown ++ fields', ',' ∉ text :=
    List.forall_mem_append.mpr ⟨hshown, hfields'⟩
  exact ⟨shown, commaFields_inj hfields hall h, rfl⟩

end

/-! ## Fields that a type asks for -/

/-- The fields of the addresses that are asked for. -/
def AddressNeed.fields : AddressNeed → List FieldKind
  | .none => []
  | .receiver => [.address]
  | .ownerAndReceiver => [.address, .address]

/-- The fields of the amount that is asked for. -/
def AmountNeed.fields (scheme : SigningScheme) : AmountNeed → List FieldKind
  | .absent => []
  | .token => [.tokens]
  | .native => match scheme with
    | .legacy => []
    | .includeNativeAmount => [.wei]

/-- The fields that a payload shows of the arguments that are asked for. -/
def Shape.fields (scheme : SigningScheme) (shape : Shape) : List FieldKind :=
  shape.addresses.fields ++ shape.amount.fields scheme

/-- The payload of these texts. -/
def payloadOf (id : UInt64) (selector : String) (texts : List (List Char)) : List UInt8 :=
  utf8 (Digits.write id.toNat ++ commaFields (selector.toList :: texts))

section

variable {scheme : SigningScheme} {texts : List (List Char)}

/-- Addresses that are those that are asked for show the fields that are asked for. -/
lemma AddressNeed.spells_of_met {need : AddressNeed} {tx : Transaction} (h : need.met tx = true) :
    List.Forall₂ FieldKind.Spells need.fields
      (addressFields (tx.owner.toList ++ tx.receiver.toList)) := by
  obtain ⟨id, sender, op, owner, receiver, amount, signature⟩ := tx
  have hspells (a : Address) : FieldKind.address.Spells a.toText.toList := ⟨a, rfl⟩
  cases need <;> cases owner <;> cases receiver <;>
    simp_all [met, Transaction.hasNoAddress, Transaction.hasOneAddress,
      Transaction.hasTwoAddresses, fields, addressFields]

/-- There are addresses for any texts of the fields that are asked for. -/
lemma AddressNeed.exists_of_spells {need : AddressNeed}
    (h : List.Forall₂ FieldKind.Spells need.fields texts) :
    ∃ owner receiver : Option Address, addressFields (owner.toList ++ receiver.toList) = texts ∧
      ∀ tx : Transaction, tx.owner = owner → tx.receiver = receiver → need.met tx = true := by
  cases need with
  | none =>
    cases h
    exact ⟨.none, .none, rfl, fun tx ho hr => by simp [met, Transaction.hasNoAddress, ho, hr]⟩
  | receiver =>
    rcases h with _ | ⟨⟨r, rfl⟩, _ | _⟩
    exact ⟨.none, some r, rfl, fun tx ho hr => by simp [met, Transaction.hasOneAddress, ho, hr]⟩
  | ownerAndReceiver =>
    rcases h with _ | ⟨⟨o, rfl⟩, _ | ⟨⟨r, rfl⟩, _ | _⟩⟩
    exact ⟨some o, some r, rfl, fun tx ho hr => by simp [met, Transaction.hasTwoAddresses, ho, hr]⟩

/-- An amount that is the one that is asked for shows the field that is asked for. -/
lemma AmountNeed.spells_of_met {need : AmountNeed} {tx : Transaction}
    (hmet : need.met tx.amount = true) (h : tx.amountField scheme = .ok texts) :
    List.Forall₂ FieldKind.Spells (need.fields scheme) texts := by
  obtain ⟨id, sender, op, owner, receiver, amount, signature⟩ := tx
  rcases amount with _ | ⟨a⟩ | ⟨a⟩
  · obtain rfl : need = .absent := by cases need <;> first | rfl | exact nomatch hmet
    injection h with h
    rw [← h]
    exact .nil
  · obtain rfl : need = .token := by cases need <;> first | rfl | exact nomatch hmet
    have hfield : a.canonical.map ([·]) = .ok texts := h
    cases htext : a.canonical with
    | error fault =>
      rw [htext] at hfield
      exact nomatch hfield
    | ok text =>
      rw [htext] at hfield
      injection hfield with hfield
      rw [← hfield]
      exact .cons ⟨a, htext⟩ .nil
  · obtain rfl : need = .native := by cases need <;> first | rfl | exact nomatch hmet
    cases scheme with
    | legacy =>
      injection h with h
      rw [← h]
      exact .nil
    | includeNativeAmount =>
      injection h with h
      rw [← h]
      exact .cons ⟨a, rfl⟩ .nil

/-- There is an amount for any text of the field that is asked for. -/
lemma AmountNeed.exists_of_spells {need : AmountNeed}
    (h : List.Forall₂ FieldKind.Spells (need.fields scheme) texts) :
    ∃ amount, need.met amount = true ∧
      ∀ tx : Transaction, tx.amount = amount → tx.amountField scheme = .ok texts := by
  cases need with
  | absent =>
    cases h
    refine ⟨none, rfl, fun tx ha => ?_⟩
    simp [Transaction.amountField, ha]
  | token =>
    rcases h with _ | ⟨⟨a, ha⟩, _ | _⟩
    refine ⟨some (.token a), rfl, fun tx htx => ?_⟩
    simp [Transaction.amountField, htx, ha, Except.map]
  | native =>
    cases scheme with
    | legacy =>
      cases h
      refine ⟨some (.native ⟨0⟩), rfl, fun tx htx => ?_⟩
      simp [Transaction.amountField, htx]
    | includeNativeAmount =>
      rcases h with _ | ⟨⟨a, rfl⟩, _ | _⟩
      refine ⟨some (.native a), rfl, fun tx htx => ?_⟩
      simp [Transaction.amountField, htx]

namespace Transaction

/-- A payload shows the fields that the type asks for. -/
theorem exists_fields_of_payload {tx : Transaction} {type : TransactionType} {bytes : List UInt8}
    (hargs : tx.checkArguments type = .ok ()) (h : tx.payload scheme = .ok bytes) :
    ∃ texts, List.Forall₂ FieldKind.Spells (type.shape.fields scheme) texts ∧
      bytes = payloadOf tx.id tx.operation.selector texts := by
  obtain ⟨haddresses, hamount⟩ := checkArguments_eq_ok_iff.mp hargs
  obtain ⟨amount, hfield, rfl⟩ := payload_eq_ok h
  exact ⟨_, List.rel_append (AddressNeed.spells_of_met haddresses)
    (AmountNeed.spells_of_met hamount hfield), rfl⟩

/-- Any texts of the fields that a type asks for are shown by a payload. -/
theorem exists_of_fields {type : TransactionType}
    (h : List.Forall₂ FieldKind.Spells (type.shape.fields scheme) texts) (id : UInt64)
    (sender : Address) {op : Operation} (hselector : op.selector ≠ "") (signature : List UInt8) :
    ∃ tx : Transaction, tx.id = id ∧ tx.sender = sender ∧ tx.operation = op ∧
      tx.signature = some signature ∧ tx.checkArguments type = .ok () ∧
      tx.payload scheme = .ok (payloadOf id op.selector texts) := by
  let count := type.shape.addresses.fields.length
  have haddresses := List.forall₂_take count h
  have hamount := List.forall₂_drop count h
  rw [Shape.fields, List.take_left] at haddresses
  rw [Shape.fields, List.drop_left] at hamount
  obtain ⟨owner, receiver, hshown, hmet⟩ := AddressNeed.exists_of_spells haddresses
  obtain ⟨amount, hmet', hfield⟩ := AmountNeed.exists_of_spells hamount
  let tx : Transaction := ⟨id, sender, op, owner, receiver, amount, some signature⟩
  refine ⟨tx, rfl, rfl, rfl, rfl, ?_, ?_⟩
  · exact checkArguments_eq_ok_iff.mpr ⟨hmet tx rfl rfl, hmet'⟩
  · rw [payload_of_amountField hselector (hfield tx rfl), hshown, List.take_append_drop]
    rfl

end Transaction

end

end Admission
