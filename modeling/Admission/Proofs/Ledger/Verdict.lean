import Admission.Proofs.Ledger.Gates
import Admission.Proofs.Transaction.Binding

/-!
# What a verdict says

Each gate is spelled out by what it asks: a payload needs a selector and a finite amount
(`Transaction.payload_eq_error_iff`), a signature must be verified
(`Validator.authenticate_eq_ok_iff`), an operation must have a type (`Operation.resolve_eq_ok_iff`).
A transaction is admissible exactly if it passes all of them (`Validator.validate_eq_ok_iff`), so
whoever knows that a transaction was admissible knows its sender's key, its signature, its payload
and its type.
-/

namespace Admission

open Admission.Text

/-! ## Payloads -/

namespace Transaction

variable {scheme : SigningScheme} {tx : Transaction}

/-- What a payload is made of: a selector, and no amount of tokens but a finite one. -/
def HasPayload (tx : Transaction) : Prop :=
  tx.operation.selector ≠ "" ∧ ∀ a, tx.tokenAmount? = some a → a.value.isFinite = true

/-- Only an amount of tokens that is not finite has no field. -/
lemma amountField_eq_error_iff {fault : EncodingFault} :
    tx.amountField scheme = .error fault ↔
      ∃ a, tx.tokenAmount? = some a ∧ a.value.isFinite = false ∧ fault = .unwritable a.value := by
  unfold amountField tokenAmount?
  rcases tx.amount with _ | ⟨a⟩ | ⟨a⟩
  · simp
  · show a.canonical.map ([·]) = .error fault ↔ ∃ b, some a = some b ∧ _
    rw [TokenAmount.canonical]
    by_cases hfinite : a.value.isFinite = true
    · simp [hfinite, Except.map]
    · simp [hfinite, Except.map, eq_comm (a := fault)]
  · cases scheme <;> simp [Amount.token?]

/-- A payload fails for want of a selector, which is looked at first, or for an amount of tokens
that is not finite. -/
theorem payload_eq_error_iff {fault : EncodingFault} :
    tx.payload scheme = .error fault ↔
      (tx.operation.selector = "" ∧ fault = .emptySelector) ∨
      (tx.operation.selector ≠ "" ∧
        ∃ a, tx.tokenAmount? = some a ∧ a.value.isFinite = false ∧
          fault = .unwritable a.value) := by
  rw [payload, payloadText, payloadFields]
  by_cases hselector : tx.operation.selector = ""
  · simp [hselector, Except.map, eq_comm (a := fault)]
  · rw [if_neg hselector, ← @amountField_eq_error_iff scheme]
    cases hamount : tx.amountField scheme with
    | error cause => simp [hselector, Except.map]
    | ok fields => simp [hselector, Except.map]

/-- There is no payload for want of a selector or of a finite amount. -/
lemma exists_payload_eq_error_iff : (∃ fault, tx.payload scheme = .error fault) ↔
    tx.operation.selector = "" ∨ ∃ a, tx.tokenAmount? = some a ∧ a.value.isFinite = false := by
  simp only [payload_eq_error_iff]
  constructor
  · rintro ⟨_, ⟨hempty, -⟩ | ⟨-, a, ha, hinfinite, -⟩⟩
    · exact .inl hempty
    · exact .inr ⟨a, ha, hinfinite⟩
  · intro h
    by_cases hempty : tx.operation.selector = ""
    · exact ⟨_, .inl ⟨hempty, rfl⟩⟩
    · obtain ⟨a, ha, hinfinite⟩ := h.resolve_left hempty
      exact ⟨_, .inr ⟨hempty, a, ha, hinfinite, rfl⟩⟩

/-- A transaction has a payload, under either scheme, if it has what a payload is made of. -/
theorem exists_payload_iff : (∃ bytes, tx.payload scheme = .ok bytes) ↔ tx.HasPayload := by
  have hfault : (∃ bytes, tx.payload scheme = .ok bytes) ↔
      ¬ ∃ fault, tx.payload scheme = .error fault := by
    cases tx.payload scheme <;> simp
  rw [hfault, exists_payload_eq_error_iff, not_or, HasPayload]
  simp only [not_exists, not_and, Bool.not_eq_false]

end Transaction

/-! ## Types of operations -/

/-- An operation has a type on a ledger: the one that it names, or that of the function that it
calls. -/
def View.Resolves (view : View) (op : Operation) (type : TransactionType) : Prop :=
  op = .native type ∨ ∃ signature, op = .call signature ∧ view.type? signature = some type

namespace Operation

variable {view : View} {op : Operation}

theorem resolve_eq_ok_iff {type : TransactionType} :
    op.resolve view = .ok type ↔ view.Resolves op type := by
  rw [View.Resolves]
  cases op with
  | native named => simp [resolve]
  | call signature => cases htype : view.type? signature <;> simp [resolve, htype]

/-- An operation has at most one type. -/
lemma resolves_unique {type type' : TransactionType} (h : view.Resolves op type)
    (h' : view.Resolves op type') : type = type' := by
  rw [← resolve_eq_ok_iff] at h h'
  exact Except.ok.inj (h.symm.trans h')

theorem resolve_eq_error_iff {reason : Rejection} :
    op.resolve view = .error reason ↔
      ∃ signature, op = .call signature ∧ view.type? signature = none ∧
        reason = .unknownOperation signature := by
  cases op with
  | native named => simp [resolve]
  | call signature =>
    cases htype : view.type? signature with
    | none => simp [resolve, htype, eq_comm (a := reason)]
    | some type => simp [resolve, htype]

end Operation

/-! ## The gates one by one -/

namespace Transaction

/-- Arguments that do not fit a type have wrong addresses, which are looked at first, or a wrong
amount. -/
lemma checkArguments_eq_error_iff {tx : Transaction} {type : TransactionType}
    {reason : Rejection} :
    tx.checkArguments type = .error reason ↔
      (type.shape.addresses.met tx = false ∧
        reason = .malformedArguments type (.addresses type.shape.addresses)) ∨
      (type.shape.addresses.met tx = true ∧ type.shape.amount.met tx.amount = false ∧
        reason = .malformedArguments type (.amount type.shape.amount)) := by
  rw [checkArguments]
  cases type.shape.addresses.met tx with
  | false => simp [eq_comm (a := reason)]
  | true => cases type.shape.amount.met tx.amount <;> simp [eq_comm (a := reason)]

end Transaction

namespace Validator

variable {v : Validator} {view : View} {manager : KeyManager} {tx : Transaction}
  {key : VerificationKey} {bytes : List UInt8}

/-- A signature is the sender's if there is a payload for which the key manager verifies it. -/
lemma authenticate_eq_ok_iff :
    v.authenticate manager key bytes tx = .ok () ↔
      ∃ payload, tx.payload v.scheme = .ok payload ∧
        manager.verify payload bytes key = .ok true := by
  rw [authenticate]
  cases tx.payload v.scheme with
  | error fault => simp
  | ok payload =>
    cases hverify : manager.verify payload bytes key with
    | error fault => simp [hverify]
    | ok fits => cases fits <;> simp [hverify]

/-- A signature is not taken for the sender's if there is no payload, if it does not fit, or if the
key manager cannot make sense of it. -/
lemma authenticate_eq_error_iff {reason : Rejection} :
    v.authenticate manager key bytes tx = .error reason ↔
      (∃ fault, tx.payload v.scheme = .error fault ∧
        reason = .unauthenticated (.noPayload fault)) ∨
      ∃ payload, tx.payload v.scheme = .ok payload ∧
        ((manager.verify payload bytes key = .ok false ∧ reason = .unauthenticated .mismatch) ∨
          ∃ fault, manager.verify payload bytes key = .error fault ∧
            reason = .unauthenticated (.uncheckable fault)) := by
  rw [authenticate]
  cases tx.payload v.scheme with
  | error fault => simp [eq_comm (a := reason)]
  | ok payload =>
    cases hverify : manager.verify payload bytes key with
    | error fault => simp [hverify, eq_comm (a := reason)]
    | ok fits => cases fits <;> simp [hverify, eq_comm (a := reason)]

/-- A transaction that comes past the replay gate is judged by its signature, its operation and its
arguments. -/
lemma validate_of_new (hkey : view.key? tx.sender = some key) (hbytes : tx.signature = some bytes)
    (hnew : view.isReplayed (String.ofList (Base64.encode bytes)) = false) :
    v.validate view manager tx = (do
      v.authenticate manager key bytes tx
      let type ← tx.operation.resolve view
      tx.checkArguments type
      .ok type) := by
  simp only [validate, hkey, hbytes, hnew, Bool.false_eq_true, if_false]

/-- Past the replay gate, the first of three answers that is a fault is the reason. -/
lemma validate_eq_error_iff_of_new (hkey : view.key? tx.sender = some key)
    (hbytes : tx.signature = some bytes)
    (hnew : view.isReplayed (String.ofList (Base64.encode bytes)) = false) {reason : Rejection} :
    v.validate view manager tx = .error reason ↔
      v.authenticate manager key bytes tx = .error reason ∨
      (v.authenticate manager key bytes tx = .ok () ∧
        (tx.operation.resolve view = .error reason ∨
          ∃ type, tx.operation.resolve view = .ok type ∧
            tx.checkArguments type = .error reason)) := by
  rw [validate_of_new hkey hbytes hnew]
  cases v.authenticate manager key bytes tx with
  | error cause => simp [bind, Except.bind]
  | ok _ =>
    cases tx.operation.resolve view with
    | error cause => simp [bind, Except.bind]
    | ok type => cases hargs : tx.checkArguments type <;> simp [bind, Except.bind, hargs]

/-- Past the replay gate, a transaction is admissible if all three answers are none. -/
lemma validate_eq_ok_iff_of_new (hkey : view.key? tx.sender = some key)
    (hbytes : tx.signature = some bytes)
    (hnew : view.isReplayed (String.ofList (Base64.encode bytes)) = false)
    {type : TransactionType} :
    v.validate view manager tx = .ok type ↔
      v.authenticate manager key bytes tx = .ok () ∧ tx.operation.resolve view = .ok type ∧
        tx.checkArguments type = .ok () := by
  rw [validate_of_new hkey hbytes hnew]
  cases v.authenticate manager key bytes tx with
  | error cause => simp [bind, Except.bind]
  | ok _ =>
    cases tx.operation.resolve view with
    | error cause => simp [bind, Except.bind]
    | ok found =>
      cases hargs : tx.checkArguments found with
      | error cause =>
        simp only [bind, Except.bind, hargs, reduceCtorEq, true_and, Except.ok.injEq, false_iff,
          not_and]
        rintro rfl
        simp [hargs]
      | ok _ =>
        simp only [bind, Except.bind, hargs, true_and, Except.ok.injEq]
        refine ⟨?_, And.left⟩
        rintro rfl
        exact ⟨rfl, hargs⟩

/-- A transaction is admissible exactly if it passes every gate. -/
theorem validate_eq_ok_iff {type : TransactionType} :
    v.validate view manager tx = .ok type ↔
      ∃ key bytes payload, view.key? tx.sender = some key ∧ tx.signature = some bytes ∧
        view.isReplayed (String.ofList (Base64.encode bytes)) = false ∧
        tx.payload v.scheme = .ok payload ∧ manager.verify payload bytes key = .ok true ∧
        tx.operation.resolve view = .ok type ∧ tx.checkArguments type = .ok () := by
  constructor
  · intro h
    obtain ⟨hknown, text, htext⟩ := known_of_validate h
    obtain ⟨key, hkey⟩ := Option.isSome_iff_exists.mp hknown
    obtain ⟨bytes, hbytes, rfl⟩ := Option.map_eq_some_iff.mp htext
    have hnew : view.isReplayed (String.ofList (Base64.encode bytes)) = false := by
      obtain ⟨hreplays, -⟩ := validate_eq_ok_iff_unseen.mp h
      rwa [View.replays, hknown, htext, Bool.true_and, Option.any_some] at hreplays
    obtain ⟨hauth, hresolve, hargs⟩ := (validate_eq_ok_iff_of_new hkey hbytes hnew).mp h
    obtain ⟨payload, hpayload, hverify⟩ := authenticate_eq_ok_iff.mp hauth
    exact ⟨key, bytes, payload, hkey, hbytes, hnew, hpayload, hverify, hresolve, hargs⟩
  · rintro ⟨key, bytes, payload, hkey, hbytes, hnew, hpayload, hverify, hresolve, hargs⟩
    rw [validate_eq_ok_iff_of_new hkey hbytes hnew]
    exact ⟨authenticate_eq_ok_iff.mpr ⟨payload, hpayload, hverify⟩, hresolve, hargs⟩

end Validator

end Admission
