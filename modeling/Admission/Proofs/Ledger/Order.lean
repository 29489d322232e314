import Admission.Proofs.Ledger.Batch
import Mathlib.Data.List.Count

/-!
# The order of a batch

What a batch of admissions leaves behind has a closed form: the signatures that were there, and
those of the calls that pass the other gates (`Ledger.contains_submitAll`), one for each accepted
call (`Ledger.size_submitAll`). The closed form does not look at the order of the calls, so any
order of them records the same signatures and accepts as many (`Ledger.submitAll_of_perm`). A call
for whose signature no other call competes is answered as if it were the only one
(`Ledger.answer_of_uncontested`).
-/

namespace Admission

namespace Ledger

/-- The ledger with the same clients and functions that has accepted nothing. -/
def cleared (l : Ledger) : Ledger :=
  { l with seen := .empty }

/-- A cleared ledger is seen as one without history. -/
lemma view_cleared (l : Ledger) : l.cleared.view = l.view.unseen := by
  have hnothing : ReplaySet.empty.contains = fun _ => false := by
    funext text
    exact decide_eq_false List.not_mem_nil
  show View.mk _ ReplaySet.empty.contains _ = View.mk _ (fun _ => false) _
  rw [hnothing]
  rfl

end Ledger

namespace Call

/-- The call's transaction is admissible where nothing has been accepted yet. -/
def Fits (c : Call) (l : Ledger) : Prop :=
  ∃ type, c.validator.validate l.cleared.view c.manager c.tx = .ok type

/-- No other call of the batch carries the signature of this one, if it has any. -/
def Uncontested (c : Call) (batch : List Call) : Prop :=
  c.tx.isSigned = false ∨ (batch.map fun c => c.tx.signature).count c.tx.signature = 1

lemma fits_iff {c : Call} {l : Ledger} : c.Fits l ↔ ∃ type, c.PassesAs l.view type := by
  rw [Fits, Ledger.view_cleared]
  rfl

end Call

namespace Ledger

variable {l : Ledger} {c : Call} {text : String}

/-! ## One call -/

/-- A call leaves clients and functions as they are. -/
lemma cleared_submit (l : Ledger) (c : Call) : (c.submit l).2.cleared = l.cleared := by
  rw [Call.submit]
  cases hverdict : c.validator.validate l.view c.manager c.tx with
  | error reason => rw [submit_of_error hverdict]
  | ok type =>
    obtain ⟨text, -, -, hsubmit⟩ := submit_of_ok hverdict
    rw [hsubmit]
    rfl

/-- After a call the ledger has the signatures that it had, and that of the call if it fits. -/
lemma contains_submit_iff :
    (c.submit l).2.seen.contains text = true ↔
      l.seen.contains text = true ∨ (c.Carries text ∧ c.Fits l) := by
  rw [contains_submit, Call.fits_iff]
  by_cases hseen : l.seen.contains text = true
  · exact iff_of_true (.inl hseen) (.inl hseen)
  -- The signature is new, so the replay gate lets every call with it pass.
  · apply or_congr_right
    apply and_congr_right
    intro hcarries
    constructor
    · rintro ⟨type, hok⟩
      exact ⟨type, (passesAs_of_submit hcarries hok).1⟩
    · rintro ⟨type, hpasses⟩
      refine ⟨type, ?_⟩
      rw [submit_of_passesAs hcarries hpasses, if_neg hseen]

/-- An accepted call adds one signature, and any other call none. -/
lemma size_submit (l : Ledger) (c : Call) :
    (c.submit l).2.seen.size = l.seen.size + if (c.submit l).1.isOk = true then 1 else 0 := by
  rw [Call.submit]
  cases hverdict : c.validator.validate l.view c.manager c.tx with
  | error reason =>
    rw [submit_of_error hverdict]
    rfl
  | ok type =>
    obtain ⟨text, -, hnew, hsubmit⟩ := submit_of_ok hverdict
    rw [hsubmit]
    show (l.seen.insert text).texts.length = l.seen.texts.length + 1
    rw [ReplaySet.texts_insert_of_not_contains hnew, List.length_cons]

/-- A call that carries another signature, or none, leaves the verdict on a transaction as it was.
-/
lemma validate_submit {other : Call} (h : ∀ text, c.Carries text → ¬ other.Carries text) :
    c.validator.validate (other.submit l).2.view c.manager c.tx
      = c.validator.validate l.view c.manager c.tx := by
  have hcleared := cleared_submit l other
  apply Validator.validate_congr
  · show (other.submit l).2.cleared.view.key? = l.cleared.view.key?
    rw [hcleared]
  · show (other.submit l).2.cleared.view.type? = l.cleared.view.type?
    rw [hcleared]
  · intro text htext
    show (other.submit l).2.seen.contains text = l.seen.contains text
    apply Bool.eq_iff_iff.mpr
    rw [contains_submit]
    apply or_iff_left
    intro hother
    exact h text htext hother.1

/-! ## Batches in closed form -/

/-- After a batch the ledger has the signatures that it had, and those of the calls that fit. -/
theorem contains_submitAll {calls : List Call} :
    (l.submitAll calls).2.seen.contains text = true ↔
      l.seen.contains text = true ∨ ∃ c ∈ calls, c.Carries text ∧ c.Fits l := by
  induction calls generalizing l with
  | nil => simp [submitAll]
  | cons first rest ih =>
    have hfits : ∀ c : Call, c.Fits (first.submit l).2 ↔ c.Fits l := by
      intro c
      rw [Call.Fits, cleared_submit, Call.Fits]
    show ((first.submit l).2.submitAll rest).2.seen.contains text = true ↔ _
    simp only [ih, contains_submit_iff, hfits, List.exists_mem_cons_iff, or_assoc]

/-- A batch adds one signature for each accepted call. -/
theorem size_submitAll (l : Ledger) (calls : List Call) :
    (l.submitAll calls).2.seen.size
      = l.seen.size + (l.submitAll calls).1.countP Except.isOk := by
  induction calls generalizing l with
  | nil => rfl
  | cons first rest ih =>
    have hstep := size_submit l first
    have hrest := ih (first.submit l).2
    rw [submitAll, List.countP_cons]
    show ((first.submit l).2.submitAll rest).2.seen.size = _
    omega

/-- A call for whose signature no other call competes is answered as if it came first. -/
theorem answer_of_uncontested {calls : List Call} {i : ℕ} (hi : calls[i]? = some c)
    (h : c.Uncontested calls) :
    (l.submitAll calls).1[i]? = some (c.validator.validate l.view c.manager c.tx) := by
  induction calls generalizing l i with
  | nil => cases hi
  | cons first rest ih =>
    cases i with
    | zero =>
      rw [List.getElem?_cons_zero, Option.some_inj] at hi
      show some (first.submit l).1 = _
      rw [hi, Call.submit, submit_fst]
    | succ i =>
      rw [List.getElem?_cons_succ] at hi
      have hmem : c ∈ rest := List.mem_of_getElem? hi
      have hlater : c.Uncontested rest ∧ ∀ text, c.Carries text → ¬ first.Carries text := by
        rcases h with hunsigned | honce
        · refine ⟨.inl hunsigned, ?_⟩
          intro text hcarries
          have hsigned := Transaction.exists_signatureText?_iff.mp ⟨text, hcarries⟩
          rw [hunsigned] at hsigned
          cases hsigned
        · -- One of the later calls has the signature, so the first one has not.
          have hpos : 0 < (rest.map fun c => c.tx.signature).count c.tx.signature :=
            List.count_pos_iff.mpr (List.mem_map_of_mem hmem)
          rw [List.map_cons, List.count_cons] at honce
          have hdiffer : ¬ (first.tx.signature == c.tx.signature) = true := by
            intro hsame
            rw [if_pos hsame] at honce
            omega
          rw [if_neg hdiffer, Nat.add_zero] at honce
          refine ⟨.inr honce, ?_⟩
          intro text hcarries hfirst
          apply hdiffer
          rw [beq_iff_eq]
          exact Transaction.signatureText?_inj.mp (hfirst.trans hcarries.symm)
      show ((first.submit l).2.submitAll rest).1[i]? = _
      rw [ih hi hlater.1, validate_submit hlater.2]

/-! ## Batches in any order -/

/-- The signatures that are recorded now and were not recorded before. -/
def recordedSince (before after : Ledger) : List String :=
  after.seen.texts.filter fun text => !before.seen.contains text

/-- Where nothing is forgotten, the signatures recorded since are what the set has grown by. -/
lemma length_recordedSince {l' : Ledger}
    (h : ∀ text, l.seen.contains text = true → l'.seen.contains text = true) :
    l'.seen.size = l.seen.size + (recordedSince l l').length := by
  have hold : (l'.seen.texts.filter l.seen.contains).Perm l.seen.texts := by
    apply (List.perm_ext_iff_of_nodup (l'.seen.nodup.filter _) l.seen.nodup).mpr
    intro text
    rw [List.mem_filter]
    constructor
    · intro hboth
      exact of_decide_eq_true hboth.2
    · intro hmem
      have hseen : l.seen.contains text = true := decide_eq_true hmem
      exact ⟨of_decide_eq_true (h text hseen), hseen⟩
  have hsplit := List.length_eq_length_filter_add (l := l'.seen.texts) l.seen.contains
  rw [hold.length_eq] at hsplit
  exact hsplit

/-- A batch of admissions in any order ends with one set of recorded signatures: those recorded
before, and those of the transactions that would be admissible had nothing been accepted yet. In any
order as many transactions are accepted, which is the number of signatures recorded since. And a
transaction that is unsigned, or whose signature no other one carries, has one answer in any order:
the verdict on it before the batch. -/
theorem submitAll_of_perm (l : Ledger) {calls order : List Call} (h : order.Perm calls) :
    (l.submitAll order).2.seen.texts.Perm (l.submitAll calls).2.seen.texts ∧
    (∀ text, (l.submitAll order).2.seen.contains text = true ↔
      l.seen.contains text = true ∨ ∃ c ∈ calls, c.Carries text ∧ c.Fits l) ∧
    (l.submitAll order).1.countP Except.isOk = (l.submitAll calls).1.countP Except.isOk ∧
    (l.submitAll order).1.countP Except.isOk
      = (recordedSince l (l.submitAll order).2).length ∧
    ∀ (c : Call) (i : ℕ), c.Uncontested calls →
      (calls[i]? = some c → (l.submitAll calls).1[i]?
        = some (c.validator.validate l.view c.manager c.tx)) ∧
      (order[i]? = some c → (l.submitAll order).1[i]?
        = some (c.validator.validate l.view c.manager c.tx)) := by
  have hcontains : ∀ text, (l.submitAll order).2.seen.contains text = true ↔
      (l.submitAll calls).2.seen.contains text = true := by
    intro text
    simp only [contains_submitAll, h.mem_iff]
  have hperm : (l.submitAll order).2.seen.texts.Perm (l.submitAll calls).2.seen.texts := by
    apply (List.perm_ext_iff_of_nodup (ReplaySet.nodup _) (ReplaySet.nodup _)).mpr
    intro text
    simpa only [ReplaySet.contains, decide_eq_true_eq] using hcontains text
  have hsize := size_submitAll l order
  refine ⟨hperm, ?_, ?_, ?_, ?_⟩
  · intro text
    rw [hcontains, contains_submitAll]
  · have hsize' := size_submitAll l calls
    have hlength : (l.submitAll order).2.seen.size = (l.submitAll calls).2.seen.size :=
      hperm.length_eq
    omega
  · have hgrown : (l.submitAll order).2.seen.size
        = l.seen.size + (recordedSince l (l.submitAll order).2).length := by
      apply length_recordedSince
      intro text hseen
      exact contains_submitAll.mpr (.inl hseen)
    omega
  · intro c i huncontested
    refine ⟨fun hi => answer_of_uncontested hi huncontested, ?_⟩
    intro hi
    apply answer_of_uncontested hi
    unfold Call.Uncontested at huncontested ⊢
    rwa [(h.map _).count_eq]

/-- Two queries of a balance compete with one signature, and a third transaction carries it for an
unknown operation; a fourth one is unsigned. In reverse order the other query is accepted, but the
same signature is recorded, and the unsigned one is answered alike. -/
theorem submitAll_of_perm_reverse :
    let l : Ledger := { Ledger.empty with registry := ⟨[⟨1, .zero, ⟨[]⟩⟩], by decide⟩ }
    let tx : Transaction := { Transaction.native 1 .zero (some .zero) .nativeBalance none with
      signature := some [1, 2, 3] }
    let txs : List Transaction :=
      [tx, { tx with operation := .call "mint()" }, { tx with id := 2 },
        { tx with signature := none }]
    let calls : List Call := txs.map fun tx => ⟨⟨.legacy⟩, ⟨fun _ _ _ => .ok true⟩, tx⟩
    calls.reverse.Perm calls ∧
      (l.submitAll calls).1 = [.ok .nativeBalance, .error .replayed, .error .replayed,
        .error .unsigned] ∧
      (l.submitAll calls.reverse).1 = [.error .unsigned, .ok .nativeBalance, .error .replayed,
        .error .replayed] ∧
      (l.submitAll calls.reverse).2.seen.texts.Perm (l.submitAll calls).2.seen.texts ∧
      (recordedSince l (l.submitAll calls.reverse).2).length = 1 := by
  intro l tx txs calls
  have hperm : calls.reverse.Perm calls := calls.reverse_perm
  obtain ⟨htexts, -, -, haccepted, -⟩ := submitAll_of_perm l hperm
  exact ⟨hperm, rfl, rfl, htexts, haccepted.symm⟩

end Ledger

end Admission
