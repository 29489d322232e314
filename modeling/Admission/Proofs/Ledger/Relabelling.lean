import Admission.Proofs.Ledger.Agreement
import Admission.Proofs.Transaction.Fields

/-!
# Whether a signature is for one operation

A payload names its operation by a selector only: the name of a type and a function that is called
like it share one, and a function's signature may go on where another's arguments begin. Such a pair
is *ambiguous* if it has different types and the arguments that the types ask for leave the same
text behind the selectors. A signature is for operations of one type if a ledger has no ambiguous
pair, and only then: with one, a signed transaction can be sent as one of another type
(`Config.authorisesOneType_iff`).
-/

namespace Admission

open Admission.Text

namespace Ledger

/-- Admissible transactions of one sender, with one number, payload and signature, are of one
type. -/
def AuthorisesOneType (l : Ledger) (scheme : SigningScheme) : Prop :=
  ∀ (manager : KeyManager) (a b : Transaction), a.id = b.id → a.sender = b.sender →
    a.signature = b.signature → a.payload scheme = b.payload scheme →
    ∀ type type' : TransactionType,
      (Validator.mk scheme).validate l.view manager a = .ok type →
      (Validator.mk scheme).validate l.view manager b = .ok type' → type = type'

/-- Two operations of different types, where the selector of the second is that of the first with
some texts of the first one's fields behind it, and the second shows the fields that are left. -/
def Ambiguous (l : Ledger) (scheme : SigningScheme) : Prop :=
  ∃ (op op' : Operation) (type type' : TransactionType) (kinds : List FieldKind)
    (shown : List (List Char)),
    l.view.Resolves op type ∧ l.view.Resolves op' type' ∧ type ≠ type' ∧ op.selector ≠ "" ∧
    List.Forall₂ FieldKind.Spells kinds shown ∧
    op'.selector.toList = op.selector.toList ++ commaFields shown ∧
    type.shape.fields scheme = kinds ++ type'.shape.fields scheme

variable {l : Ledger} {scheme : SigningScheme}

/-- A comma that tells where selectors end leaves no ambiguous pair. -/
theorem not_ambiguous_of_commaPrefixFree (hfree : l.functions.CommaPrefixFree) :
    ¬ l.Ambiguous scheme := by
  rintro ⟨op, op', type, type', kinds, shown, htype, htype', hne, -, -, hselector, -⟩
  have hresolve := Operation.resolve_eq_ok_iff.mpr htype
  have hresolve' := Operation.resolve_eq_ok_iff.mpr htype'
  cases shown with
  | nil =>
    have hsame : op.selector = op'.selector :=
      String.toList_injective (hselector.trans (List.append_nil _)).symm
    rw [Operation.eq_of_selector hfree hresolve hresolve' hsame] at htype
    exact hne (Operation.resolves_unique htype htype')
  | cons first shown =>
    refine hfree.not_prefix _ (Operation.selector_mem hresolve) _
      (Operation.selector_mem hresolve') ?_
    have hcomma : commaFields (first :: shown) = [','] ++ (first ++ commaFields shown) := rfl
    rw [hselector, hcomma, ← List.append_assoc]
    exact List.prefix_append _ _

/-- Of two operations of different types that have a payload in common, the one with the shorter
selector and the other one are an ambiguous pair. -/
lemma ambiguous_of_commaFields {op op' : Operation} {type type' : TransactionType}
    {texts texts' : List (List Char)} {part : List Char} (htype : l.view.Resolves op type)
    (htype' : l.view.Resolves op' type') (hne : type ≠ type') (hselector : op.selector ≠ "")
    (htexts : List.Forall₂ FieldKind.Spells (type.shape.fields scheme) texts)
    (htexts' : List.Forall₂ FieldKind.Spells (type'.shape.fields scheme) texts')
    (hop' : op'.selector.toList = op.selector.toList ++ part)
    (hpart : commaFields texts = part ++ commaFields texts') : l.Ambiguous scheme := by
  obtain ⟨shown, rfl, rfl⟩ := exists_of_commaFields_eq_append
    (FieldKind.comma_notMem_of_forall₂ htexts) (FieldKind.comma_notMem_of_forall₂ htexts') hpart
  obtain ⟨kinds, hshown, hkinds⟩ := FieldKind.forall₂_of_append htexts htexts'
  exact ⟨op, op', type, type', kinds, shown, htype, htype', hne, hselector, hshown, hop', hkinds⟩

/-- Without an ambiguous pair, a payload tells the type. -/
lemma authorisesOneType_of_not_ambiguous (h : ¬ l.Ambiguous scheme) :
    l.AuthorisesOneType scheme := by
  intro manager a b hid _ _ hpayload type type' ha hb
  obtain ⟨-, -, bytes, -, -, -, hbytes, -, hresolve, hargs⟩ := Validator.validate_eq_ok_iff.mp ha
  obtain ⟨-, -, bytes', -, -, -, hbytes', -, hresolve', hargs'⟩ :=
    Validator.validate_eq_ok_iff.mp hb
  have htype := Operation.resolve_eq_ok_iff.mp hresolve
  have htype' := Operation.resolve_eq_ok_iff.mp hresolve'
  obtain ⟨hselector, -⟩ := Transaction.exists_payload_iff.mp ⟨bytes, hbytes⟩
  obtain ⟨hselector', -⟩ := Transaction.exists_payload_iff.mp ⟨bytes', hbytes'⟩
  obtain ⟨texts, htexts, rfl⟩ := Transaction.exists_fields_of_payload hargs hbytes
  obtain ⟨texts', htexts', rfl⟩ := Transaction.exists_fields_of_payload hargs' hbytes'
  -- The number is the same, so what is behind it is the same.
  rw [hbytes, hbytes', hid] at hpayload
  have htext := utf8_injective (Except.ok.inj hpayload)
  obtain ⟨-, htext⟩ := List.cons.inj (List.append_cancel_left htext)
  by_contra hne
  rcases List.append_eq_append_iff.mp htext with ⟨part, hop, hpart⟩ | ⟨part, hop, hpart⟩
  · exact h (ambiguous_of_commaFields htype htype' hne hselector htexts htexts' hop hpart)
  · exact h (ambiguous_of_commaFields htype' htype (Ne.symm hne) hselector' htexts' htexts hop
      hpart)

/-- With an ambiguous pair, a client's signature is good for either type. -/
lemma not_authorisesOneType_of_ambiguous (hseen : l.seen = .empty) {client : Client}
    (hclient : client ∈ l.registry.clients) (h : l.Ambiguous scheme) :
    ¬ l.AuthorisesOneType scheme := by
  intro hone
  obtain ⟨op, op', type, type', kinds, shown, htype, htype', hne, hselector, hshown, hop',
    hkinds⟩ := h
  have hselector' : op'.selector ≠ "" := by
    intro hempty
    rw [hempty] at hop'
    exact hselector (String.toList_injective (List.append_eq_nil_iff.mp hop'.symm).1)
  -- The fields that both show; the first operation shows the others before them.
  obtain ⟨texts', htexts'⟩ := FieldKind.exists_forall₂_spells (type'.shape.fields scheme)
  have htexts : List.Forall₂ FieldKind.Spells (type.shape.fields scheme) (shown ++ texts') := by
    rw [hkinds]
    exact List.rel_append hshown htexts'
  obtain ⟨a, haid, hasender, haop, hasigned, haargs, hapayload⟩ :=
    Transaction.exists_of_fields htexts 0 client.address hselector []
  obtain ⟨b, hbid, hbsender, hbop, hbsigned, hbargs, hbpayload⟩ :=
    Transaction.exists_of_fields htexts' 0 client.address hselector' []
  have hsame : payloadOf 0 op.selector (shown ++ texts') = payloadOf 0 op'.selector texts' := by
    have htail : commaFields (op.selector.toList :: (shown ++ texts'))
        = commaFields (op'.selector.toList :: texts') := by
      show ',' :: (op.selector.toList ++ commaFields (shown ++ texts'))
        = ',' :: (op'.selector.toList ++ commaFields texts')
      rw [hop', commaFields_append, List.append_assoc]
    rw [payloadOf, payloadOf, htail]
  let manager : KeyManager := ⟨fun _ _ _ => .ok true⟩
  have ha : (Validator.mk scheme).validate l.view manager a = .ok type :=
    validate_of_client hseen hclient hasender hasigned hapayload (haop ▸ htype) haargs rfl
  have hb : (Validator.mk scheme).validate l.view manager b = .ok type' :=
    validate_of_client hseen hclient hbsender hbsigned hbpayload (hbop ▸ htype') hbargs rfl
  exact hne (hone manager a b (haid.trans hbid.symm) (hasender.trans hbsender.symm)
    (hasigned.trans hbsigned.symm) (by rw [hapayload, hbpayload, hsame]) type type' ha hb)

end Ledger

namespace Config

/-- On the ledger of a configuration with clients, a signature is for one type of operation if and
only if the ledger has no ambiguous pair. -/
theorem authorisesOneType_iff (c : Config) (h : c.validate = .ok ()) :
    ∃ l, Ledger.ofConfig c = .ok l ∧ ∀ scheme, l.AuthorisesOneType scheme ↔
      c.clients = [] ∨ ¬ l.Ambiguous scheme := by
  obtain ⟨l, hl⟩ := Ledger.exists_ofConfig h
  have hclients := Ledger.clients_ofConfig hl
  refine ⟨l, hl, fun scheme => ⟨fun hone => ?_, ?_⟩⟩
  · by_contra hnone
    obtain ⟨hsome, hambiguous⟩ := not_or.mp hnone
    cases hregistry : l.registry.clients with
    | nil =>
      rw [hregistry, List.forall₂_nil_right_iff] at hclients
      exact hsome hclients
    | cons client rest =>
      have hmem : client ∈ l.registry.clients := hregistry ▸ List.mem_cons_self ..
      exact Ledger.not_authorisesOneType_of_ambiguous (Ledger.seen_ofConfig hl) hmem
        (not_not.mp hambiguous) hone
  · rintro (hnone | hclear)
    · -- Without clients nothing is admissible.
      intro manager a b _ _ _ _ type type' ha _
      obtain ⟨key, -, -, hkey, -⟩ := Validator.validate_eq_ok_iff.mp ha
      obtain ⟨client, hmem, -⟩ := Ledger.key?_eq_some_iff.mp hkey
      rw [hnone, List.forall₂_nil_left_iff] at hclients
      rw [hclients] at hmem
      exact nomatch hmem
    · exact Ledger.authorisesOneType_of_not_ambiguous hclear

/-- A client, and one more name for a transfer. -/
theorem authorisesOneType_iff_of_mint :
    let c : Config := ⟨.standard, [⟨1, "0x0000000000000000000000000000000000000001", "02aa"⟩],
      FunctionNames.empty.insert "mint(address,uint256)" "TRANSFER"⟩
    c.validate = .ok () ∧
      ∃ l, Ledger.ofConfig c = .ok l ∧ ∀ scheme, l.AuthorisesOneType scheme := by
  intro c
  have hvalid : c.validate = .ok () := by decide +kernel
  obtain ⟨l, hl, hone⟩ := authorisesOneType_iff c hvalid
  have hfree : l.functions.CommaPrefixFree := by
    obtain ⟨types, htypes, hfunctions⟩ := Ledger.functions_ofConfig hl
    rcases htypes with _ | ⟨htype, _ | _⟩
    obtain rfl : TransactionType.transfer = _ := Except.ok.inj htype
    rw [hfunctions]
    decide +kernel
  exact ⟨hvalid, l, hl, fun scheme =>
    (hone scheme).mpr (.inr (Ledger.not_ambiguous_of_commaPrefixFree hfree))⟩

/-- A function that is called like a type, but approves: a transfer that its sender signed can be
sent as an approval. -/
theorem not_authorisesOneType_of_typeName :
    let c : Config := ⟨.standard, [⟨1, "0x0000000000000000000000000000000000000001",
      "0279be667ef9dcbbac55a06295ce870b07029bfcdb2dce28d959f2815b16f81798"⟩],
      FunctionNames.empty.insert "TRANSFER" "APPROVE"⟩
    c.validate = .ok () ∧
      ∃ l, Ledger.ofConfig c = .ok l ∧ ∀ scheme, ¬ l.AuthorisesOneType scheme := by
  intro c
  have hvalid : c.validate = .ok () := by decide +kernel
  obtain ⟨l, hl⟩ := Ledger.exists_ofConfig hvalid
  have happrove : l.view.type? "TRANSFER" = some .approve := by
    obtain ⟨types, htypes, hfunctions⟩ := Ledger.functions_ofConfig hl
    rcases htypes with _ | ⟨htype, _ | _⟩
    obtain rfl : TransactionType.approve = _ := Except.ok.inj htype
    show l.functions.type? "TRANSFER" = _
    rw [hfunctions]
    rfl
  obtain ⟨client, hclient⟩ : ∃ client, client ∈ l.registry.clients := by
    have hclients := Ledger.clients_ofConfig hl
    cases hregistry : l.registry.clients with
    | nil =>
      rw [hregistry] at hclients
      exact nomatch hclients
    | cons client rest => exact ⟨client, List.mem_cons_self ..⟩
  refine ⟨hvalid, l, hl, fun scheme => ?_⟩
  apply Ledger.not_authorisesOneType_of_ambiguous (Ledger.seen_ofConfig hl) hclient
  exact ⟨.native .transfer, .call "TRANSFER", .transfer, .approve, [], [], .inl rfl,
    .inr ⟨_, rfl, happrove⟩, by decide, by decide, .nil, rfl, rfl⟩

end Config

end Admission
