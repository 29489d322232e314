import Admission.Proofs.Amount.Native
import Admission.Proofs.Json.Numeral
import Admission.Proofs.Address
import Admission.Proofs.Text.Utf8
import Admission.Validator

/-!
# What a payload binds

A payload is a list of fields joined by commas, and neither its selector is free of commas nor does
it say which of its fields are left out. It can be taken apart all the same, where no selector and a
comma open another selector: the number has no comma, the selector ends before the first comma that
can end it, the operation's type tells which arguments follow, and addresses are of one length. So
two transactions that fit the ledger's functions and share a payload ask for the same thing.
-/

namespace Admission

open Admission.Text Admission.Number

/-! ## Selectors -/

namespace FunctionTable

/-- The texts that can stand for an operation in a payload. -/
def selectors (table : FunctionTable) : List String :=
  table.map Prod.fst ++ TransactionType.all.map TransactionType.name

/-- A comma tells where a selector ends: no function is called like a type, and no selector with a
comma after it opens a selector. -/
structure CommaPrefixFree (table : FunctionTable) : Prop where
  signature_ne_name : ∀ signature ∈ table.map Prod.fst, ∀ type : TransactionType,
    signature ≠ type.name
  not_prefix : ∀ s ∈ table.selectors, ∀ t ∈ table.selectors, ¬ s.toList ++ [','] <+: t.toList

instance (table : FunctionTable) : Decidable table.CommaPrefixFree :=
  decidable_of_iff
    ((∀ signature ∈ table.map Prod.fst, ∀ type ∈ TransactionType.all, signature ≠ type.name) ∧
      ∀ s ∈ table.selectors, ∀ t ∈ table.selectors, ¬ s.toList ++ [','] <+: t.toList)
    ⟨fun h => ⟨fun s hs type => h.1 s hs type type.mem_all, h.2⟩,
      fun h => ⟨fun s hs type _ => h.signature_ne_name s hs type, h.not_prefix⟩⟩

/-- The standard functions are such: the commas in their signatures stand after a first parameter,
where no other selector ends. -/
lemma commaPrefixFree_standard : standard.CommaPrefixFree := by
  decide +kernel

/-- A function that has a type is in the table. -/
lemma mem_of_type? {table : FunctionTable} {signature : String} {type : TransactionType}
    (h : table.type? signature = some type) : signature ∈ table.map Prod.fst := by
  rw [type?, List.lookup_eq_some_iff] at h
  obtain ⟨before, after, rfl, -⟩ := h
  simp

end FunctionTable

namespace Operation

variable {l : Ledger} {op op' : Operation} {type type' : TransactionType}

/-- A call that has a type on a ledger is one of the ledger's functions. -/
lemma mem_of_resolve_call {signature : String}
    (h : (Operation.call signature).resolve l.view = .ok type) :
    signature ∈ l.functions.map Prod.fst := by
  rw [resolve] at h
  cases htype : l.view.type? signature with
  | none =>
    rw [htype] at h
    exact nomatch h
  | some found => exact FunctionTable.mem_of_type? htype

/-- An operation that has a type on a ledger is written as one of the ledger's selectors. -/
lemma selector_mem (h : op.resolve l.view = .ok type) : op.selector ∈ l.functions.selectors := by
  rw [FunctionTable.selectors, List.mem_append]
  cases op with
  | call signature => exact .inl (mem_of_resolve_call h)
  | native named => exact .inr (List.mem_map_of_mem named.mem_all)

/-- Operations with one selector are the same, where no function is called like a type. -/
lemma eq_of_selector (hfree : l.functions.CommaPrefixFree) (h : op.resolve l.view = .ok type)
    (h' : op'.resolve l.view = .ok type') (hselector : op.selector = op'.selector) : op = op' := by
  cases op with
  | call signature =>
    cases op' with
    | call signature' => exact congrArg Operation.call hselector
    | native named =>
      exact absurd hselector (hfree.signature_ne_name _ (mem_of_resolve_call h) named)
  | native named =>
    cases op' with
    | call signature =>
      exact absurd hselector.symm (hfree.signature_ne_name _ (mem_of_resolve_call h') named)
    | native named' =>
      have hfound : some named = some named' := by
        rw [← TransactionType.ofName?_name named, ← TransactionType.ofName?_name named']
        exact congrArg TransactionType.ofName? hselector
      injection hfound with hname
      rw [hname]

end Operation

/-! ## Fields after a comma -/

/-- Fields as they stand after other fields, a comma before each of them. -/
def commaFields (fields : List (List Char)) : List Char :=
  fields.flatMap (',' :: ·)

lemma intercalate_cons_eq_commaFields (field : List Char) (fields : List (List Char)) :
    List.intercalate [','] (field :: fields) = field ++ commaFields fields := by
  induction fields generalizing field with
  | nil => rw [List.intercalate_singleton, commaFields, List.flatMap_nil, List.append_nil]
  | cons next fields ih =>
    rw [List.intercalate_cons_cons, ih, commaFields, commaFields, List.flatMap_cons,
      List.append_assoc]
    rfl

lemma commaFields_singleton (field : List Char) : commaFields [field] = ',' :: field :=
  List.flatMap_singleton ..

lemma commaFields_append (fields fields' : List (List Char)) :
    commaFields (fields ++ fields') = commaFields fields ++ commaFields fields' :=
  List.flatMap_append

/-- Where a text with a comma after it does not open a longer text, the longer text is not longer by
a part of the fields that follow. -/
lemma eq_nil_of_commaFields {s part rest : List Char} {fields : List (List Char)}
    (hs : ¬ s ++ [','] <+: s ++ part) (h : commaFields fields = part ++ rest) : part = [] := by
  by_contra hpart
  obtain ⟨c, part, rfl⟩ := List.exists_cons_of_ne_nil hpart
  cases fields with
  | nil => exact nomatch h
  | cons field fields =>
    -- The part opens with the comma before the first field.
    have hc : ',' = c := by
      injection h
    apply hs
    rw [← hc, List.append_cons s ',' part]
    exact List.prefix_append _ _

/-- Two texts with fields after them are taken apart alike, where neither text with a comma after it
opens the other one. -/
lemma append_commaFields_inj {s t : List Char} {fields fields' : List (List Char)}
    (hs : ¬ s ++ [','] <+: t) (ht : ¬ t ++ [','] <+: s)
    (h : s ++ commaFields fields = t ++ commaFields fields') :
    s = t ∧ commaFields fields = commaFields fields' := by
  rcases List.append_eq_append_iff.mp h with ⟨part, rfl, hrest⟩ | ⟨part, rfl, hrest⟩
  · have hpart : part = [] := eq_nil_of_commaFields hs hrest
    rw [hpart, List.nil_append] at hrest
    rw [hpart, List.append_nil]
    exact ⟨rfl, hrest⟩
  · have hpart : part = [] := eq_nil_of_commaFields ht hrest
    rw [hpart, List.nil_append] at hrest
    rw [hpart, List.append_nil]
    exact ⟨rfl, hrest.symm⟩

/-- A number has no comma, so no text with a comma after it opens a number. -/
lemma not_prefix_write (s : List Char) (n : ℕ) : ¬ s ++ [','] <+: Digits.write n := by
  intro hprefix
  have hmem : ',' ∈ Digits.write n := hprefix.subset (by simp)
  exact absurd (Digits.isDigit_of_mem (Digits.allDigits_write n) hmem) (by decide)

/-- The addresses of a payload, which tell themselves apart by their length. -/
def addressFields (addresses : List Address) : List (List Char) :=
  addresses.map fun a => a.toText.toList

lemma commaFields_addressFields_cons (a : Address) (as : List Address) (x : List Char) :
    commaFields (addressFields (a :: as)) ++ x
      = ',' :: a.toText.toList ++ (commaFields (addressFields as) ++ x) := by
  rw [addressFields, List.map_cons, commaFields, List.flatMap_cons, List.append_assoc]
  rfl

lemma commaFields_addressFields_inj {as bs : List Address} {x y : List Char}
    (hlength : as.length = bs.length)
    (h : commaFields (addressFields as) ++ x = commaFields (addressFields bs) ++ y) :
    as = bs ∧ x = y := by
  induction as generalizing bs with
  | nil =>
    cases bs with
    | nil => exact ⟨rfl, h⟩
    | cons b bs => exact nomatch hlength
  | cons a as ih =>
    cases bs with
    | nil => exact nomatch hlength
    | cons b bs =>
      rw [commaFields_addressFields_cons, commaFields_addressFields_cons] at h
      have htexts : (',' :: a.toText.toList).length = (',' :: b.toText.toList).length := by
        rw [List.length_cons, List.length_cons, a.length_toText, b.length_toText]
      obtain ⟨htext, hrest⟩ := List.append_inj h htexts
      obtain ⟨has, hxy⟩ := ih (Nat.succ.inj hlength) hrest
      injection htext with _ htext
      refine ⟨?_, hxy⟩
      rw [Address.toText_injective (String.toList_injective htext), has]

/-! ## Arguments -/

namespace Transaction

variable {a b : Transaction}

/-- A transaction's arguments fit a type when its addresses and its amount do. -/
lemma checkArguments_eq_ok_iff {tx : Transaction} {type : TransactionType} :
    tx.checkArguments type = .ok () ↔
      type.shape.addresses.met tx = true ∧ type.shape.amount.met tx.amount = true := by
  simp only [checkArguments]
  split
  · simp_all
  · split
    · simp_all
    · simp_all

/-- The transaction fits the ledger's functions: its operation has a type there, and its arguments
are those that the type asks for. -/
def Fits (tx : Transaction) (l : Ledger) : Prop :=
  ∃ type, tx.operation.resolve l.view = .ok type ∧ tx.checkArguments type = .ok ()

/-- Transactions that meet one need for addresses have the same addresses present. -/
lemma isSome_eq_of_met {need : AddressNeed} (ha : need.met a = true) (hb : need.met b = true) :
    a.owner.isSome = b.owner.isSome ∧ a.receiver.isSome = b.receiver.isSome := by
  cases need <;>
    simp_all [AddressNeed.met, hasNoAddress, hasOneAddress, hasTwoAddresses]

/-- Amounts that meet one need are both absent or of one kind. -/
lemma cases_of_met {need : AmountNeed} {x y : Option Amount} (hx : need.met x = true)
    (hy : need.met y = true) :
    (x = none ∧ y = none)
      ∨ (∃ s t, x = some (.token s) ∧ y = some (.token t))
      ∨ ∃ s t, x = some (.native s) ∧ y = some (.native t) := by
  rcases x with _ | ⟨s⟩ | ⟨s⟩ <;> rcases y with _ | ⟨t⟩ | ⟨t⟩ <;>
    cases need <;> simp_all [AmountNeed.met]

/-- The text of a payload: the number, the selector, and a comma before each field after them. -/
lemma payload_of_amountField {scheme : SigningScheme} {tx : Transaction}
    {amount : List (List Char)} (hselector : tx.operation.selector ≠ "")
    (hamount : tx.amountField scheme = .ok amount) :
    tx.payload scheme = .ok (utf8 (Digits.write tx.id.toNat ++
      commaFields (tx.operation.selector.toList ::
        (addressFields (tx.owner.toList ++ tx.receiver.toList) ++ amount)))) := by
  rw [payload, payloadText, payloadFields, if_neg hselector, hamount]
  show Except.ok (utf8 (List.intercalate [','] (Digits.write tx.id.toNat ::
    tx.operation.selector.toList :: (addressFields (tx.owner.toList ++ tx.receiver.toList)
      ++ amount)))) = _
  rw [intercalate_cons_eq_commaFields]

/-- A payload needs a field for its amount. -/
lemma payload_eq_ok {scheme : SigningScheme} {tx : Transaction} {bytes : List UInt8}
    (h : tx.payload scheme = .ok bytes) :
    ∃ amount, tx.amountField scheme = .ok amount ∧
      bytes = utf8 (Digits.write tx.id.toNat ++ commaFields (tx.operation.selector.toList ::
        (addressFields (tx.owner.toList ++ tx.receiver.toList) ++ amount))) := by
  by_cases hselector : tx.operation.selector = ""
  · rw [payload, payloadText, payloadFields, if_pos hselector] at h
    exact nomatch h
  · cases hamount : tx.amountField scheme with
    | error fault =>
      rw [payload, payloadText, payloadFields, if_neg hselector, hamount] at h
      exact nomatch h
    | ok amount =>
      rw [payload_of_amountField hselector hamount] at h
      exact ⟨amount, rfl, (Except.ok.inj h).symm⟩

/-- An amount of tokens in a payload is finite, and its canonical text stands there. -/
lemma commaFields_token {scheme : SigningScheme} {tx : Transaction} {s : TokenAmount}
    {fields : List (List Char)} (hamount : tx.amount = some (.token s))
    (h : tx.amountField scheme = .ok fields) :
    s.value.isFinite = true ∧
      commaFields fields = ',' :: TokenAmount.canonicalLayout.finiteText s.value := by
  have hfield : tx.amountField scheme = s.canonical.map ([·]) := by
    unfold amountField
    rw [hamount]
  rw [hfield, TokenAmount.canonical] at h
  by_cases hfinite : s.value.isFinite = true
  · rw [if_pos hfinite] at h
    injection h with h
    rw [← h, commaFields_singleton]
    exact ⟨hfinite, rfl⟩
  · rw [if_neg hfinite] at h
    exact nomatch h

/-- An amount of the base currency that is signed stands in the payload in wei. -/
lemma commaFields_native {tx : Transaction} {s : NativeAmount} {fields : List (List Char)}
    (hamount : tx.amount = some (.native s))
    (h : tx.amountField .includeNativeAmount = .ok fields) :
    commaFields fields = ',' :: s.weiText.toList := by
  unfold amountField at h
  rw [hamount] at h
  injection h with h
  rw [← h, commaFields_singleton]

/-- The amount that a payload shows is the same where its field is the same: an amount of tokens bit
for bit, and an amount of the base currency if the scheme has it signed. -/
lemma amount_eq_of_commaFields {scheme : SigningScheme} {need : AmountNeed}
    {fields fields' : List (List Char)} (ha : need.met a.amount = true)
    (hb : need.met b.amount = true) (hfields : a.amountField scheme = .ok fields)
    (hfields' : b.amountField scheme = .ok fields')
    (h : commaFields fields = commaFields fields') :
    a.tokenAmount? = b.tokenAmount? ∧
      (scheme = .includeNativeAmount → a.nativeAmount? = b.nativeAmount?) := by
  rw [tokenAmount?, tokenAmount?, nativeAmount?, nativeAmount?]
  rcases cases_of_met ha hb with ⟨hx, hy⟩ | ⟨s, t, hx, hy⟩ | ⟨s, t, hx, hy⟩
  · rw [hx, hy]
    exact ⟨rfl, fun _ => rfl⟩
  · obtain ⟨hs, hstext⟩ := commaFields_token hx hfields
    obtain ⟨ht, httext⟩ := commaFields_token hy hfields'
    rw [hstext, httext] at h
    injection h with _ h
    have hvalue : s.value = t.value := Json.finiteText_injective (.inr rfl) hs ht h
    have hst : s = t := congrArg TokenAmount.mk hvalue
    rw [hx, hy, hst]
    exact ⟨rfl, fun _ => rfl⟩
  · rw [hx, hy]
    refine ⟨rfl, ?_⟩
    intro hscheme
    rw [hscheme] at hfields hfields'
    rw [commaFields_native hx hfields, commaFields_native hy hfields'] at h
    injection h with _ h
    have hst : s = t := NativeAmount.weiText_injective (String.toList_injective h)
    rw [hst]

/-- Owners and receivers that are present alike are told apart in the list of both. -/
lemma addresses_inj (howner : a.owner.isSome = b.owner.isSome)
    (h : a.owner.toList ++ a.receiver.toList = b.owner.toList ++ b.receiver.toList) :
    a.owner = b.owner ∧ a.receiver = b.receiver := by
  have htoList : ∀ {x y : Option Address}, x.toList = y.toList → x = y := by
    intro x y hxy
    rw [← Option.head?_toList (o := x), hxy, Option.head?_toList]
  have hlength : a.owner.toList.length = b.owner.toList.length := by
    rw [Option.length_toList, Option.length_toList, howner]
  obtain ⟨ho, hr⟩ := List.append_inj h hlength
  exact ⟨htoList ho, htoList hr⟩

/-! ## Payloads -/

/-- A comma tells selectors apart on the standard ledger. Where it does, transactions that fit the
ledger and have one payload ask for the same thing: number, operation, owner, receiver and amount of
tokens are the same, and so is the amount of the base currency if the scheme has it signed. If it
does not, that amount can be exchanged for any other under one payload. -/
theorem payload_binds :
    Ledger.empty.functions.CommaPrefixFree ∧
    (∀ (l : Ledger) (scheme : SigningScheme) (a b : Transaction) (bytes : List UInt8),
      l.functions.CommaPrefixFree → a.Fits l → b.Fits l →
      a.payload scheme = .ok bytes → b.payload scheme = .ok bytes →
        a.id = b.id ∧ a.operation = b.operation ∧ a.owner = b.owner ∧ a.receiver = b.receiver ∧
          a.tokenAmount? = b.tokenAmount? ∧
          (scheme = .includeNativeAmount → a.nativeAmount? = b.nativeAmount?)) ∧
    ∀ (tx : Transaction) (amount amount' : NativeAmount),
      ({ tx with amount := some (.native amount) } : Transaction).payload .legacy
        = ({ tx with amount := some (.native amount') } : Transaction).payload .legacy := by
  refine ⟨FunctionTable.commaPrefixFree_standard, ?_, fun _ _ _ => rfl⟩
  intro l scheme a b bytes hfree hfits hfits' ha hb
  obtain ⟨s, hs, hargs⟩ := hfits
  obtain ⟨t, ht, hargs'⟩ := hfits'
  obtain ⟨fields, hfields, hbytes⟩ := payload_eq_ok ha
  obtain ⟨fields', hfields', hbytes'⟩ := payload_eq_ok hb
  have htext := utf8_injective (hbytes.symm.trans hbytes')
  -- The number ends at the first comma.
  obtain ⟨hid, htext⟩ := append_commaFields_inj (not_prefix_write _ _) (not_prefix_write _ _) htext
  have hid : a.id = b.id := by
    apply UInt64.toNat_inj.mp
    rw [← Digits.value_write a.id.toNat, hid, Digits.value_write]
  -- The selector ends where no other selector goes on.
  have hmem := Operation.selector_mem hs
  have hmem' := Operation.selector_mem ht
  injection htext with _ htext
  obtain ⟨hselector, htext⟩ := append_commaFields_inj (hfree.not_prefix _ hmem _ hmem')
    (hfree.not_prefix _ hmem' _ hmem) htext
  have hop : a.operation = b.operation :=
    Operation.eq_of_selector hfree hs ht (String.toList_injective hselector)
  -- The type of the operation tells how many addresses there are.
  have hst : s = t := by
    rw [hop, ht] at hs
    injection hs with hs
    exact hs.symm
  rw [checkArguments_eq_ok_iff] at hargs hargs'
  rw [← hst] at hargs'
  obtain ⟨howner, hreceiver⟩ := isSome_eq_of_met hargs.1 hargs'.1
  have hlength : (a.owner.toList ++ a.receiver.toList).length
      = (b.owner.toList ++ b.receiver.toList).length := by
    simp only [List.length_append, Option.length_toList, howner, hreceiver]
  rw [commaFields_append, commaFields_append] at htext
  obtain ⟨haddresses, hamount⟩ := commaFields_addressFields_inj hlength htext
  obtain ⟨howner, hreceiver⟩ := addresses_inj howner haddresses
  obtain ⟨htoken, hnative⟩ :=
    amount_eq_of_commaFields hargs.2 hargs'.2 hfields hfields' hamount
  exact ⟨hid, hop, howner, hreceiver, htoken, hnative⟩

/-- A transfer in an owner's name of the negative zero, sent twice by different senders. -/
theorem payload_binds_negativeZero :
    let a : Transaction := .delegatedCall 7 .zero .zero .zero
      "transferFrom(address,address,uint256)" (some ⟨⟨UInt64.ofNat (2 ^ 63)⟩⟩)
    let b : Transaction := { a with sender := ⟨List.replicate 20 255, rfl⟩, signature := some [] }
    Ledger.empty.functions.CommaPrefixFree ∧ a.Fits .empty ∧ b.Fits .empty ∧
      ∃ bytes, a.payload .legacy = .ok bytes ∧ b.payload .legacy = .ok bytes ∧
        a.owner = b.owner ∧ a.tokenAmount? = b.tokenAmount? := by
  intro a b
  have ha : a.Fits .empty := ⟨.transferFrom, rfl, rfl⟩
  have hb : b.Fits .empty := ⟨.transferFrom, rfl, rfl⟩
  obtain ⟨bytes, hbytes⟩ : ∃ bytes, a.payload .legacy = .ok bytes := ⟨_, rfl⟩
  obtain ⟨-, -, howner, -, htoken, -⟩ :=
    payload_binds.2.1 .empty .legacy a b bytes payload_binds.1 ha hb hbytes hbytes
  exact ⟨payload_binds.1, ha, hb, bytes, hbytes, hbytes, howner, htoken⟩

end Transaction

end Admission
