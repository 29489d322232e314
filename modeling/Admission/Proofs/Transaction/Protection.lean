import Admission.Proofs.Ledger.Verdict

/-!
# What a signing scheme protects

A validator asks a transaction for its sender, its signature, its payload, its operation and the
kinds of its arguments, and for nothing else (`Validator.validate_eq_of_payload`). The schemes
differ in one field of the payload, that of a native amount. So without such an amount they judge
alike; with one, `legacy` judges a transaction and the one with any other native amount alike, while
under `includeNativeAmount` no two native amounts leave the same payload, whatever stands before
them (`Validator.scheme_protects`). A key manager that takes a signature for one payload only then
turns the changed transaction down (`Validator.validate_withNative_ne_ok`).
-/

namespace Admission

open Admission.Text

/-! ## Payloads with another amount -/

namespace Transaction

variable {tx : Transaction} {a b : NativeAmount}

/-- The transaction with this native amount. -/
def withNative (tx : Transaction) (a : NativeAmount) : Transaction :=
  { tx with amount := some (.native a) }

lemma withNative_withNative (tx : Transaction) (a b : NativeAmount) :
    (tx.withNative a).withNative b = tx.withNative b := rfl

/-- A transaction with a native amount is the one with this amount. -/
lemma withNative_of_nativeAmount? (h : tx.nativeAmount? = some a) : tx.withNative a = tx := by
  obtain ⟨amount, hamount, hnative⟩ := Option.bind_eq_some_iff.mp h
  cases amount with
  | token tokens => exact nomatch hnative
  | native found =>
    obtain rfl := Option.some.inj hnative
    rw [withNative, ← hamount]

/-- What is no native amount is signed under either scheme. -/
lemma payload_eq_of_nativeAmount?_eq_none (h : tx.nativeAmount? = none)
    (scheme scheme' : SigningScheme) : tx.payload scheme = tx.payload scheme' := by
  have hfield : tx.amountField scheme = tx.amountField scheme' := by
    unfold amountField
    unfold nativeAmount? at h
    cases hamount : tx.amount with
    | none => rfl
    | some amount =>
      cases amount with
      | token tokens => rfl
      | native found =>
        rw [hamount] at h
        exact nomatch h
  simp only [payload, payloadText, payloadFields, hfield]

/-- Without a selector there is no payload, whatever the native amount. -/
lemma payload_withNative_of_empty (h : tx.operation.selector = "") (a : NativeAmount)
    (scheme : SigningScheme) : (tx.withNative a).payload scheme = .error .emptySelector :=
  payload_eq_error_iff.mpr (.inl ⟨h, rfl⟩)

/-- A native amount that is signed stands behind all other fields. -/
lemma payload_withNative (h : tx.operation.selector ≠ "") (a : NativeAmount) :
    (tx.withNative a).payload .includeNativeAmount =
      .ok (utf8 (Digits.write tx.id.toNat ++
        (commaFields (tx.operation.selector.toList ::
          addressFields (tx.owner.toList ++ tx.receiver.toList)) ++ ',' :: a.weiText.toList))) := by
  have hselector : (tx.withNative a).operation.selector ≠ "" := h
  have hamount : (tx.withNative a).amountField .includeNativeAmount = .ok [a.weiText.toList] := rfl
  have hfields := payload_of_amountField hselector hamount
  rw [← List.cons_append, commaFields_append, commaFields_singleton] at hfields
  exact hfields

/-- Different native amounts leave different payloads if they are signed. -/
lemma payload_withNative_inj (h : tx.operation.selector ≠ "") :
    (tx.withNative a).payload .includeNativeAmount
      = (tx.withNative b).payload .includeNativeAmount ↔ a = b := by
  refine ⟨fun hsame => ?_, fun hab => by rw [hab]⟩
  rw [payload_withNative h, payload_withNative h] at hsame
  have htext := utf8_injective (Except.ok.inj hsame)
  -- The amounts stand behind the same text.
  have hwei := (List.cons.inj (List.append_cancel_left (List.append_cancel_left htext))).2
  exact NativeAmount.weiText_injective (String.toList_injective hwei)

/-- A native amount is an argument of the same kind as any other. -/
lemma checkArguments_withNative (tx : Transaction) (a b : NativeAmount) (type : TransactionType) :
    (tx.withNative a).checkArguments type = (tx.withNative b).checkArguments type := by
  cases type <;> rfl

end Transaction

/-! ## Verdicts on one payload -/

namespace Validator

variable {v v' : Validator} {view : View} {manager : KeyManager} {tx tx' : Transaction}

/-- Transactions with one sender, signature, payload and operation, and with arguments of the same
kinds, have one verdict. -/
lemma validate_eq_of_payload (hsender : tx.sender = tx'.sender)
    (hsignature : tx.signature = tx'.signature)
    (hpayload : tx.payload v.scheme = tx'.payload v'.scheme)
    (hoperation : tx.operation = tx'.operation)
    (hargs : ∀ type, tx.checkArguments type = tx'.checkArguments type) :
    v.validate view manager tx = v'.validate view manager tx' := by
  unfold validate authenticate
  rw [hsender, hsignature, hpayload, hoperation, funext hargs]

/-- Without a native amount, no scheme makes a difference. -/
lemma validate_eq_of_nativeAmount?_eq_none (h : tx.nativeAmount? = none) (v v' : Validator) :
    v.validate view manager tx = v'.validate view manager tx :=
  validate_eq_of_payload rfl rfl
    (Transaction.payload_eq_of_nativeAmount?_eq_none h v.scheme v'.scheme) rfl fun _ => rfl

/-- Native amounts that are not signed are exchanged without notice. -/
lemma validate_legacy_withNative (tx : Transaction) (a b : NativeAmount) :
    (Validator.mk .legacy).validate view manager (tx.withNative a)
      = (Validator.mk .legacy).validate view manager (tx.withNative b) :=
  validate_eq_of_payload rfl rfl rfl rfl (Transaction.checkArguments_withNative tx a b)

end Validator

/-- A submission depends on the verdict and the signature. -/
lemma Ledger.submit_eq_of_validate {l : Ledger} {v v' : Validator} {manager : KeyManager}
    {tx tx' : Transaction} (hsignature : tx.signature = tx'.signature)
    (hverdict : v.validate l.view manager tx = v'.validate l.view manager tx') :
    l.submit v manager tx = l.submit v' manager tx' := by
  unfold submit settle Transaction.signatureText?
  rw [hverdict, hsignature]

/-! ## The schemes -/

/-- A signature fits one payload at most under a key. -/
def KeyManager.BindsPayload (manager : KeyManager) : Prop :=
  ∀ payload payload' signature key, manager.verify payload signature key = .ok true →
    manager.verify payload' signature key = .ok true → payload = payload'

namespace Validator

/-- Where a signature fits one payload at most, no two native amounts are admissible with one
signature if they are signed. -/
theorem validate_withNative_ne_ok {view : View} {manager : KeyManager} {tx : Transaction}
    {a b : NativeAmount} {type : TransactionType} (hmanager : manager.BindsPayload)
    (hok : (Validator.mk .includeNativeAmount).validate view manager (tx.withNative a) = .ok type)
    (hne : a ≠ b) (type' : TransactionType) :
    (Validator.mk .includeNativeAmount).validate view manager (tx.withNative b) ≠ .ok type' := by
  intro hok'
  obtain ⟨key, bytes, payload, hkey, hbytes, -, hpayload, hverify, -⟩ := validate_eq_ok_iff.mp hok
  obtain ⟨key', bytes', payload', hkey', hbytes', -, hpayload', hverify', -⟩ :=
    validate_eq_ok_iff.mp hok'
  -- The amount changes neither the sender nor the signature.
  obtain rfl : key = key' := Option.some.inj (hkey.symm.trans hkey')
  obtain rfl : bytes = bytes' := Option.some.inj (hbytes.symm.trans hbytes')
  obtain rfl := hmanager _ _ _ _ hverify hverify'
  obtain ⟨hselector, -⟩ := Transaction.exists_payload_iff.mp ⟨payload, hpayload⟩
  exact hne ((Transaction.payload_withNative_inj hselector).mp (hpayload.trans hpayload'.symm))

/-- On every ledger and for every key manager: without a native amount all validators judge a
transaction alike, and submit it alike. If native amounts are not signed, one that is exchanged for
another is not noticed. If they are, it changes the payload, or there is none for want of a
selector, before as after. Sender and signature are in the payload under no scheme. -/
theorem scheme_protects :
    (∀ (manager : KeyManager) (tx : Transaction), tx.nativeAmount? = none → ∀ v v' : Validator,
      (∀ view, v.validate view manager tx = v'.validate view manager tx) ∧
      ∀ l : Ledger, l.submit v manager tx = l.submit v' manager tx) ∧
    (∀ (manager : KeyManager) (tx : Transaction) (a b : NativeAmount), tx.nativeAmount? = some a →
      (∀ view, (Validator.mk .legacy).validate view manager (tx.withNative b)
        = (Validator.mk .legacy).validate view manager tx) ∧
      ∀ l : Ledger, l.submit ⟨.legacy⟩ manager (tx.withNative b) = l.submit ⟨.legacy⟩ manager tx) ∧
    (∀ (tx : Transaction) (a b : NativeAmount), tx.nativeAmount? = some a → b ≠ a →
      (tx.operation.selector = "" ∧ tx.payload .includeNativeAmount = .error .emptySelector ∧
        (tx.withNative b).payload .includeNativeAmount = .error .emptySelector) ∨
      ∃ bytes bytes', tx.payload .includeNativeAmount = .ok bytes ∧
        (tx.withNative b).payload .includeNativeAmount = .ok bytes' ∧ bytes' ≠ bytes) ∧
    ∀ (scheme : SigningScheme) (tx : Transaction) (sender : Address)
      (signature : Option (List UInt8)),
      ({ tx with sender := sender, signature := signature } : Transaction).payload scheme
        = tx.payload scheme := by
  refine ⟨fun manager tx hnone v v' => ?_, fun manager tx a b hsome => ?_,
    fun tx a b hsome hne => ?_, fun _ _ _ _ => rfl⟩
  · exact ⟨fun view => validate_eq_of_nativeAmount?_eq_none hnone v v',
      fun l => Ledger.submit_eq_of_validate rfl (validate_eq_of_nativeAmount?_eq_none hnone v v')⟩
  · rw [← Transaction.withNative_of_nativeAmount? hsome, Transaction.withNative_withNative]
    exact ⟨fun view => validate_legacy_withNative tx b a,
      fun l => Ledger.submit_eq_of_validate rfl (validate_legacy_withNative tx b a)⟩
  · rw [← Transaction.withNative_of_nativeAmount? hsome, Transaction.withNative_withNative]
    by_cases hselector : tx.operation.selector = ""
    · left
      exact ⟨hselector, Transaction.payload_withNative_of_empty hselector a _,
        Transaction.payload_withNative_of_empty hselector b _⟩
    · right
      refine ⟨_, _, Transaction.payload_withNative hselector a,
        Transaction.payload_withNative hselector b, fun hsame => hne ?_⟩
      apply (Transaction.payload_withNative_inj hselector).mp
      rw [Transaction.payload_withNative hselector, Transaction.payload_withNative hselector, hsame]

/-- A client signs a transfer of seven wei, and somebody makes it a million. If native amounts are
not signed, the million is admissible with the client's signature; if they are, the payload is
another one. The client's question for the total supply is judged alike under both schemes. -/
theorem scheme_protects_of_seven :
    let tx : Transaction := { Transaction.native 1 .zero (some .zero) .nativeTransfer (some ⟨7⟩) with
      signature := some [] }
    let supply : Transaction := .plain 2 .zero (.native .totalSupply)
    let manager : KeyManager :=
      ⟨fun payload _ _ => .ok (decide (tx.payload .legacy = .ok payload))⟩
    let l : Ledger := (Ledger.empty.registerClient ⟨1, .zero, ⟨[]⟩⟩).toOption.getD .empty
    tx.nativeAmount? = some ⟨7⟩ ∧ supply.nativeAmount? = none ∧
      (Validator.mk .legacy).validate l.view manager (tx.withNative ⟨1000000⟩)
        = .ok .nativeTransfer ∧
      (∃ bytes bytes', tx.payload .includeNativeAmount = .ok bytes ∧
        (tx.withNative ⟨1000000⟩).payload .includeNativeAmount = .ok bytes' ∧ bytes' ≠ bytes) ∧
      (Validator.mk .legacy).validate l.view manager supply
        = (Validator.mk .includeNativeAmount).validate l.view manager supply := by
  intro tx supply manager l
  have hselector : tx.operation.selector ≠ "" := by decide
  obtain ⟨payload, hpayload⟩ : ∃ payload, tx.payload .legacy = .ok payload :=
    Transaction.exists_payload_iff.mpr ⟨hselector, fun a ha => nomatch ha⟩
  have hok : (Validator.mk .legacy).validate l.view manager tx = .ok .nativeTransfer :=
    validate_eq_ok_iff.mpr ⟨⟨[]⟩, [], payload, rfl, rfl, rfl, hpayload,
      congrArg Except.ok (decide_eq_true hpayload), rfl, rfl⟩
  obtain ⟨halike, hunnoticed, hnoticed, -⟩ := scheme_protects
  refine ⟨rfl, rfl, ((hunnoticed manager tx ⟨7⟩ ⟨1000000⟩ rfl).1 l.view).trans hok, ?_,
    (halike manager supply rfl ⟨.legacy⟩ ⟨.includeNativeAmount⟩).1 l.view⟩
  exact (hnoticed tx ⟨7⟩ ⟨1000000⟩ rfl (by decide)).resolve_left fun h => hselector h.1

end Validator

end Admission
