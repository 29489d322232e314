import Admission.Proofs.Ledger.Gates

/-!
# Admissions one after the other

A batch of admissions changes only what the ledger has accepted, so all of its calls meet the same
other gates. Of the calls with one signature, the first that passes these gates is accepted, and
every later one is turned down as a replay (`Ledger.exists_accepted_of_submitAll`).
-/

namespace Admission

/-- The answer to an admission. -/
abbrev Verdict := Except Rejection TransactionType

/-- An admission that is asked for. -/
structure Call where
  validator : Validator
  manager : KeyManager
  tx : Transaction

namespace Call

/-- The ledger's answer to a call, and the ledger after it. -/
def submit (c : Call) (l : Ledger) : Verdict × Ledger :=
  l.submit c.validator c.manager c.tx

/-- The call's transaction carries the signature of this text. -/
def Carries (c : Call) (text : String) : Prop :=
  c.tx.signatureText? = some text

/-- The call's transaction passes all gates but the replay gate, as one of this type. -/
def PassesAs (c : Call) (view : View) (type : TransactionType) : Prop :=
  c.validator.validate view.unseen c.manager c.tx = .ok type

end Call

namespace Ledger

/-- The answers to calls that are carried out one after the other, and the ledger after them. -/
def submitAll (l : Ledger) : List Call → List Verdict × Ledger
  | [] => ([], l)
  | c :: rest => ((c.submit l).1 :: ((c.submit l).2.submitAll rest).1,
      ((c.submit l).2.submitAll rest).2)

/-- A last call is carried out on the ledger that the calls before it leave. -/
lemma submitAll_concat (l : Ledger) (calls : List Call) (c : Call) :
    l.submitAll (calls ++ [c])
      = ((l.submitAll calls).1 ++ [(c.submit (l.submitAll calls).2).1],
          (c.submit (l.submitAll calls).2).2) := by
  induction calls generalizing l with
  | nil => rfl
  | cons first rest ih =>
    rw [List.cons_append, submitAll, ih]
    rfl

/-! ## One call -/

variable {l : Ledger} {c : Call} {text : String} {type : TransactionType}

/-- The other gates are the same after a call. -/
lemma unseen_view_submit (l : Ledger) (c : Call) :
    (c.submit l).2.view.unseen = l.view.unseen := by
  rw [Call.submit]
  cases hverdict : c.validator.validate l.view c.manager c.tx with
  | error reason => rw [submit_of_error hverdict]
  | ok type =>
    obtain ⟨text, -, -, hsubmit⟩ := submit_of_ok hverdict
    rw [hsubmit]
    rfl

/-- A call that passes the other gates is accepted exactly if its signature is new, and is a replay
if it is not. -/
lemma submit_of_passesAs (hcarries : c.Carries text) (hpasses : c.PassesAs l.view type) :
    (c.submit l).1 = if l.seen.contains text = true then .error .replayed else .ok type := by
  obtain ⟨hkey, -⟩ := Validator.known_of_validate hpasses
  rw [Call.submit, submit_fst, Validator.validate_eq_ite, replays_view hkey hcarries, hpasses]

/-- A call that is accepted passes the other gates, and its signature was new. -/
lemma passesAs_of_submit (hcarries : c.Carries text) (h : (c.submit l).1 = .ok type) :
    c.PassesAs l.view type ∧ l.seen.contains text = false := by
  rw [Call.submit, submit_fst] at h
  obtain ⟨hreplays, hpasses⟩ := Validator.validate_eq_ok_iff_unseen.mp h
  obtain ⟨hkey, -⟩ := Validator.known_of_validate h
  rw [replays_view hkey hcarries] at hreplays
  exact ⟨hpasses, hreplays⟩

/-- A call adds its own signature, if it is accepted, and no other one. -/
lemma contains_submit :
    (c.submit l).2.seen.contains text = true ↔
      l.seen.contains text = true ∨ (c.Carries text ∧ ∃ type, (c.submit l).1 = .ok type) := by
  rw [Call.Carries, Call.submit]
  cases hverdict : c.validator.validate l.view c.manager c.tx with
  | error reason => simp [submit_of_error hverdict]
  | ok type =>
    obtain ⟨own, hown, -, hsubmit⟩ := submit_of_ok hverdict
    rw [hsubmit, hown, Option.some_inj, ReplaySet.contains_insert, Bool.or_eq_true, beq_iff_eq]
    constructor
    · intro h
      rcases h with hsame | hseen
      · exact .inr ⟨hsame.symm, type, rfl⟩
      · exact .inl hseen
    · intro h
      rcases h with hseen | ⟨hsame, -⟩
      · exact .inr hseen
      · exact .inl hsame.symm

/-! ## Calls with one signature -/

section

variable {ι : Type} {calls : ι → Call} {answers : ι → Verdict}

/-- No call with a recorded signature is accepted, and those that pass the other gates are replays.
-/
lemma rejected_of_submitAll {order : List ι} (hseen : l.seen.contains text = true)
    (hanswers : (l.submitAll (order.map calls)).1 = order.map answers) :
    ∀ j ∈ order, (calls j).Carries text → (∀ type, answers j ≠ .ok type) ∧
      ((∃ type, (calls j).PassesAs l.view type) → answers j = .error .replayed) := by
  induction order generalizing l with
  | nil => simp
  | cons i rest ih =>
    injection hanswers with hfirst hrest
    have hlater := ih (contains_submit.mpr (.inl hseen)) hrest
    simp only [Call.PassesAs, unseen_view_submit] at hlater
    intro j hj hcarries
    rcases List.mem_cons.mp hj with rfl | hj
    · rw [← hfirst]
      constructor
      · intro type hok
        obtain ⟨-, hnew⟩ := passesAs_of_submit hcarries hok
        rw [hseen] at hnew
        exact nomatch hnew
      · intro hpasses
        obtain ⟨type, hpasses⟩ := hpasses
        rw [submit_of_passesAs hcarries hpasses, if_pos hseen]
    · exact hlater j hj hcarries

/-- Of the calls with a new signature, if one of them passes the other gates, one is accepted, no
other one is, and the others that pass the gates are replays. -/
theorem exists_accepted_of_submitAll {order : List ι} (hnew : l.seen.contains text = false)
    (hanswers : (l.submitAll (order.map calls)).1 = order.map answers)
    (hpasses : ∃ i ∈ order, (calls i).Carries text ∧ ∃ type, (calls i).PassesAs l.view type) :
    ∃ i ∈ order, (calls i).Carries text ∧ (∃ type, answers i = .ok type) ∧
      ∀ j ∈ order, j ≠ i → (calls j).Carries text → (∀ type, answers j ≠ .ok type) ∧
        ((∃ type, (calls j).PassesAs l.view type) → answers j = .error .replayed) := by
  induction order generalizing l with
  | nil => simp at hpasses
  | cons first rest ih =>
    injection hanswers with hfirst hrest
    by_cases hown : (calls first).Carries text ∧ ∃ type, ((calls first).submit l).1 = .ok type
    · -- The first call records the signature, and all later ones find it.
      obtain ⟨hcarries, type, hok⟩ := hown
      have hseen : ((calls first).submit l).2.seen.contains text = true :=
        contains_submit.mpr (.inr ⟨hcarries, type, hok⟩)
      have hlater := rejected_of_submitAll hseen hrest
      simp only [Call.PassesAs, unseen_view_submit] at hlater
      refine ⟨first, List.mem_cons_self, hcarries, ⟨type, hfirst.symm.trans hok⟩, ?_⟩
      intro j hj hne hcarries'
      rcases List.mem_cons.mp hj with rfl | hj
      · exact absurd rfl hne
      · exact hlater j hj hcarries'
    · -- The first call leaves the signature new.
      have hstill : ((calls first).submit l).2.seen.contains text = false := by
        rw [← Bool.not_eq_true, contains_submit, hnew]
        intro h
        rcases h with h | h
        · exact nomatch h
        · exact hown h
      have hfails : (calls first).Carries text →
          ¬ ∃ type, (calls first).PassesAs l.view type := by
        intro hcarries hfits
        obtain ⟨type, hfits⟩ := hfits
        apply hown
        refine ⟨hcarries, type, ?_⟩
        rw [submit_of_passesAs hcarries hfits, hnew, if_neg Bool.false_ne_true]
      have hpasses' : ∃ i ∈ rest, (calls i).Carries text ∧ ∃ type,
          (calls i).PassesAs ((calls first).submit l).2.view type := by
        obtain ⟨i, hi, hcarries, hfits⟩ := hpasses
        simp only [Call.PassesAs, unseen_view_submit]
        rcases List.mem_cons.mp hi with rfl | hi
        · exact absurd hfits (hfails hcarries)
        · exact ⟨i, hi, hcarries, hfits⟩
      obtain ⟨i, hi, hcarries, hok, hothers⟩ := ih hstill hrest hpasses'
      simp only [Call.PassesAs, unseen_view_submit] at hothers
      refine ⟨i, List.mem_cons_of_mem _ hi, hcarries, hok, ?_⟩
      intro j hj hne hcarries'
      rcases List.mem_cons.mp hj with rfl | hj
      · refine ⟨?_, fun hfits => absurd hfits (hfails hcarries')⟩
        intro type hok'
        exact hown ⟨hcarries', type, hfirst.trans hok'⟩
      · exact hothers j hj hne hcarries'

end

end Ledger

end Admission
