import Admission.Proofs.Text.Base64
import Admission.Validator

/-!
# The replay gate among the gates

Of the six gates only the third one asks what the ledger has accepted. A transaction whose sender is
no client, or which is unsigned, never comes to it; any other is turned down there exactly if its
signature was accepted (`View.replays`), and is judged as on a ledger that has accepted nothing
(`View.unseen`) if not. So a verdict of a validator is a verdict without history and one bit of
history (`Validator.validate_eq_ite`), and a submission adds a signature that was not there before,
or nothing (`Ledger.submit_of_ok`, `Ledger.submit_of_error`).
-/

namespace Admission

open Admission.Text

/-! ## Signatures by their texts -/

namespace Transaction

/-- The text by which the ledger remembers a signature belongs to these bytes only. -/
lemma signatureText?_eq_some_iff {tx : Transaction} {bytes : List UInt8} :
    tx.signatureText? = some (String.ofList (Base64.encode bytes)) ↔ tx.signature = some bytes := by
  rw [signatureText?, Option.map_eq_some_iff]
  constructor
  · intro h
    obtain ⟨own, hown, htext⟩ := h
    rw [hown, Base64.encode_injective (String.ofList_injective htext)]
  · intro hbytes
    exact ⟨bytes, hbytes, rfl⟩

/-- Texts of signatures are equal if the signatures are. -/
lemma signatureText?_inj {a b : Transaction} :
    a.signatureText? = b.signatureText? ↔ a.signature = b.signature := by
  have htext : Function.Injective fun bytes => String.ofList (Base64.encode bytes) :=
    fun _ _ h => Base64.encode_injective (String.ofList_injective h)
  exact (Option.map_injective htext).eq_iff

lemma exists_signatureText?_iff {tx : Transaction} :
    (∃ text, tx.signatureText? = some text) ↔ tx.isSigned = true := by
  rw [isSigned, ← Option.isSome_iff_exists, signatureText?, Option.isSome_map]

end Transaction

/-! ## Verdicts without history -/

namespace View

/-- The view of a ledger that has accepted nothing. -/
def unseen (view : View) : View :=
  { view with isReplayed := fun _ => false }

/-- Whether a transaction is turned down as a replay: it comes to that gate, and its signature was
accepted. -/
def replays (view : View) (tx : Transaction) : Bool :=
  (view.key? tx.sender).isSome && tx.signatureText?.any view.isReplayed

end View

lemma Operation.resolve_unseen (view : View) (op : Operation) :
    op.resolve view.unseen = op.resolve view := by
  cases op <;> rfl

namespace Validator

variable {v : Validator} {view : View} {manager : KeyManager} {tx : Transaction}

/-- A verdict is that of the replay gate, or that of the other gates. -/
theorem validate_eq_ite (v : Validator) (view : View) (manager : KeyManager) (tx : Transaction) :
    v.validate view manager tx
      = if view.replays tx = true then .error .replayed
        else v.validate view.unseen manager tx := by
  unfold validate View.replays Transaction.signatureText?
  have hkey : view.unseen.key? = view.key? := rfl
  rw [hkey]
  cases view.key? tx.sender with
  | none => rfl
  | some key =>
    cases tx.signature with
    | none => rfl
    | some bytes =>
      simp only [Operation.resolve_unseen]
      cases hreplayed : view.isReplayed (String.ofList (Base64.encode bytes)) with
      | true => simp [hreplayed]
      | false => simp [hreplayed, View.unseen]

/-- The verdict depends on what was accepted by one bit only: whether the transaction's own
signature was. -/
lemma validate_congr {view' : View} (hkey : view'.key? = view.key?)
    (htype : view'.type? = view.type?)
    (hreplayed : ∀ text, tx.signatureText? = some text →
      view'.isReplayed text = view.isReplayed text) :
    v.validate view' manager tx = v.validate view manager tx := by
  have hunseen : view'.unseen = view.unseen := by
    simp only [View.unseen, hkey, htype]
  have hreplays : view'.replays tx = view.replays tx := by
    rw [View.replays, View.replays, hkey]
    cases htext : tx.signatureText? with
    | none => rfl
    | some text => simp only [Option.any_some, hreplayed text htext]
  rw [validate_eq_ite, validate_eq_ite v view, hunseen, hreplays]

lemma authenticate_ne_replayed {key : VerificationKey} {bytes : List UInt8} :
    v.authenticate manager key bytes tx ≠ .error .replayed := by
  unfold authenticate
  cases tx.payload v.scheme with
  | error fault => simp
  | ok payload =>
    cases hverify : manager.verify payload bytes key with
    | error fault => simp [hverify]
    | ok fits => cases fits <;> simp [hverify]

lemma resolve_ne_replayed {op : Operation} : op.resolve view ≠ .error .replayed := by
  cases op with
  | native type => simp [Operation.resolve]
  | call signature => cases htype : view.type? signature <;> simp [Operation.resolve, htype]

lemma checkArguments_ne_replayed {type : TransactionType} :
    tx.checkArguments type ≠ .error .replayed := by
  simp only [Transaction.checkArguments]
  split
  · simp
  · split <;> simp

/-- The gates before and after the replay gate have other reasons. -/
lemma validate_unseen_ne_replayed :
    v.validate view.unseen manager tx ≠ .error .replayed := by
  intro h
  unfold validate at h
  cases hkey : view.unseen.key? tx.sender with
  | none => simp [hkey] at h
  | some key =>
    cases hsigned : tx.signature with
    | none => simp [hkey, hsigned] at h
    | some bytes =>
      have hnew : view.unseen.isReplayed (String.ofList (Base64.encode bytes)) = false := rfl
      simp only [hkey, hsigned, hnew, Bool.false_eq_true, if_false, bind, Except.bind] at h
      split at h
      · rename_i hfailed
        injection h with h
        exact authenticate_ne_replayed (hfailed.trans (congrArg _ h))
      · split at h
        · rename_i hfailed
          injection h with h
          exact resolve_ne_replayed (hfailed.trans (congrArg _ h))
        · split at h
          · rename_i hfailed
            injection h with h
            exact checkArguments_ne_replayed (hfailed.trans (congrArg _ h))
          · exact nomatch h

/-- A transaction is turned down as a replay exactly if it comes to that gate with an accepted
signature. -/
theorem validate_eq_replayed_iff :
    v.validate view manager tx = .error .replayed ↔ view.replays tx = true := by
  rw [validate_eq_ite]
  by_cases hreplays : view.replays tx = true
  · simp [hreplays]
  · rw [if_neg hreplays]
    exact iff_of_false validate_unseen_ne_replayed hreplays

/-- A transaction that passes the gates passes all but the replay gate without history, and is no
replay. -/
lemma validate_eq_ok_iff_unseen {type : TransactionType} :
    v.validate view manager tx = .ok type ↔
      view.replays tx = false ∧ v.validate view.unseen manager tx = .ok type := by
  rw [validate_eq_ite]
  cases view.replays tx <;> simp

/-- A transaction that passes the gates is a client's, and signed. -/
lemma known_of_validate {type : TransactionType} (h : v.validate view manager tx = .ok type) :
    (view.key? tx.sender).isSome = true ∧ ∃ text, tx.signatureText? = some text := by
  unfold validate at h
  cases hkey : view.key? tx.sender with
  | none =>
    rw [hkey] at h
    exact nomatch h
  | some key =>
    refine ⟨rfl, ?_⟩
    cases hsigned : tx.signature with
    | none =>
      rw [hkey, hsigned] at h
      exact nomatch h
    | some bytes => exact ⟨_, congrArg (Option.map _) hsigned⟩

end Validator

/-! ## Submissions -/

namespace ReplaySet

/-- Inserting a signature that was accepted changes nothing. -/
lemma insert_of_contains {s : ReplaySet} {text : String} (h : s.contains text = true) :
    s.insert text = s := by
  rw [insert, dif_pos (of_decide_eq_true h)]

/-- A signature that was not accepted comes first. -/
lemma texts_insert_of_not_contains {s : ReplaySet} {text : String} (h : s.contains text = false) :
    (s.insert text).texts = text :: s.texts := by
  rw [insert, dif_neg (of_decide_eq_false h)]

end ReplaySet

namespace Ledger

variable {l : Ledger} {v : Validator} {manager : KeyManager} {tx : Transaction}

/-- A signed transaction of a client is turned down as a replay exactly if its signature was
accepted. -/
lemma replays_view {text : String} (hkey : (l.view.key? tx.sender).isSome = true)
    (htext : tx.signatureText? = some text) : l.view.replays tx = l.seen.contains text := by
  rw [View.replays, hkey, htext, Bool.true_and, Option.any_some]
  rfl

/-- A transaction that fails a gate changes nothing. -/
theorem submit_of_error {reason : Rejection} (h : v.validate l.view manager tx = .error reason) :
    l.submit v manager tx = (.error reason, l) := by
  rw [submit, h, settle]

/-- A transaction that passes the gates is accepted, and its signature, which was not accepted
before, is recorded. -/
theorem submit_of_ok {type : TransactionType} (h : v.validate l.view manager tx = .ok type) :
    ∃ text, tx.signatureText? = some text ∧ l.seen.contains text = false ∧
      l.submit v manager tx = (.ok type, { l with seen := l.seen.insert text }) := by
  obtain ⟨hkey, text, htext⟩ := Validator.known_of_validate h
  obtain ⟨hreplays, -⟩ := Validator.validate_eq_ok_iff_unseen.mp h
  rw [replays_view hkey htext] at hreplays
  refine ⟨text, htext, hreplays, ?_⟩
  simp only [submit, h, settle, htext, record, hreplays, Bool.not_false]

/-- A submission is answered by the verdict. -/
lemma submit_fst (l : Ledger) (v : Validator) (manager : KeyManager) (tx : Transaction) :
    (l.submit v manager tx).1 = v.validate l.view manager tx := by
  cases h : v.validate l.view manager tx with
  | error reason => rw [submit_of_error h]
  | ok type =>
    obtain ⟨text, -, -, hsubmit⟩ := submit_of_ok h
    rw [hsubmit]

end Ledger

end Admission
