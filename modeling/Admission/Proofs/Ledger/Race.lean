import Admission.Proofs.Ledger.Batch
import Mathlib.Data.Fin.VecNotation
import Mathlib.Data.List.FinRange

/-!
# Admissions at the same time

A call that is carried out beside others meets the ledger twice: it asks once whether its signature
was accepted, and if it passes the gates with that answer, it records the signature later. Each of
the two is one step, and the steps of different calls come in any order (`Race.step`, `Race.run`). A
call takes effect with its last step: the ledger is at any time what the calls answered so far would
have made of it one after the other, and their answers are those they would have got
(`Race.Serial`).
-/

namespace Admission

/-! ## Steps -/

/-- How far a call has come. -/
inductive Phase where
  | waiting
  /-- It has passed the gates, and has not recorded its signature yet. -/
  | passed (type : TransactionType)
  | answered (answer : Verdict)

namespace Call

/-- The ledger's answer to the one question of a call about accepted signatures. -/
def query (c : Call) (l : Ledger) : Bool :=
  c.tx.signatureText?.any l.seen.contains

/-- The verdict of the gates, given that answer. -/
def judge (c : Call) (l : Ledger) (replayed : Bool) : Verdict :=
  c.validator.validate { l.view with isReplayed := fun _ => replayed } c.manager c.tx

end Call

/-- Calls under way on one ledger, and those that are answered, in the order of their answers. -/
structure Race (n : ℕ) where
  ledger : Ledger
  phase : Fin n → Phase
  finished : List (Fin n)

namespace Race

variable {n : ℕ}

/-- The race before any call has done anything. -/
def start (n : ℕ) (l : Ledger) : Race n :=
  ⟨l, fun _ => .waiting, []⟩

/-- The race after a call was answered, with the ledger that it leaves. -/
def answer (r : Race n) (i : Fin n) (result : Verdict × Ledger) : Race n :=
  ⟨result.2, Function.update r.phase i (.answered result.1), r.finished ++ [i]⟩

/-- The race after a call has passed the gates. -/
def pass (r : Race n) (i : Fin n) (type : TransactionType) : Race n :=
  { r with phase := Function.update r.phase i (.passed type) }

@[simp] lemma phase_answer_self (r : Race n) (i : Fin n) (result : Verdict × Ledger) :
    (r.answer i result).phase i = .answered result.1 :=
  Function.update_self ..

lemma phase_answer_of_ne (r : Race n) {i j : Fin n} (result : Verdict × Ledger) (h : j ≠ i) :
    (r.answer i result).phase j = r.phase j :=
  Function.update_of_ne h _ _

@[simp] lemma phase_pass_self (r : Race n) (i : Fin n) (type : TransactionType) :
    (r.pass i type).phase i = .passed type :=
  Function.update_self ..

lemma phase_pass_of_ne (r : Race n) {i j : Fin n} (type : TransactionType) (h : j ≠ i) :
    (r.pass i type).phase j = r.phase j :=
  Function.update_of_ne h _ _

/-- The race after the next step of a call. -/
def step (calls : Fin n → Call) (r : Race n) (i : Fin n) : Race n :=
  match r.phase i with
  | .waiting => match (calls i).judge r.ledger ((calls i).query r.ledger) with
    | .error reason => r.answer i (.error reason, r.ledger)
    | .ok type => r.pass i type
  | .passed type => r.answer i (r.ledger.settle (calls i).tx (.ok type))
  | .answered _ => r

/-- The race after the steps of a schedule, which names the call of each step. -/
def run (calls : Fin n → Call) (r : Race n) (schedule : List (Fin n)) : Race n :=
  schedule.foldl (step calls) r

/-! ## The answers one after the other -/

/-- The verdict of a call is the validator's on the ledger of the query. -/
lemma judge_query (c : Call) (l : Ledger) :
    c.judge l (c.query l) = c.validator.validate l.view c.manager c.tx := by
  rw [Call.judge]
  refine Validator.validate_congr rfl rfl ?_
  intro text htext
  show c.query l = l.seen.contains text
  rw [Call.query, htext, Option.any_some]

/-- What passed the gates without history may be carried out later as if it were judged then. -/
lemma settle_eq_submit {c : Call} {l : Ledger} {type : TransactionType}
    (h : c.PassesAs l.view type) : l.settle c.tx (.ok type) = c.submit l := by
  obtain ⟨hkey, text, htext⟩ := Validator.known_of_validate h
  have hreplays := Ledger.replays_view (l := l) hkey htext
  have hverdict := Validator.validate_eq_ite c.validator l.view c.manager c.tx
  rw [hreplays, h] at hverdict
  rw [Call.submit]
  cases hseen : l.seen.contains text with
  | true =>
    -- Another call has recorded the signature since, and recording it again changes nothing.
    rw [hseen, if_pos rfl] at hverdict
    rw [Ledger.submit_of_error hverdict]
    simp only [Ledger.settle, htext, Ledger.record, hseen, Bool.not_true,
      ReplaySet.insert_of_contains hseen]
  | false =>
    rw [hseen, if_neg Bool.false_ne_true] at hverdict
    rw [Ledger.submit, hverdict]

/-- The race is where the calls that are answered would have brought the ledger `l` one after the
other, with the same answers; and a call on its way to record its signature passes all gates but
the replay gate. -/
structure Serial (l : Ledger) (calls : Fin n → Call) (r : Race n) : Prop where
  nodup : r.finished.Nodup
  mem_iff : ∀ i, i ∈ r.finished ↔ ∃ answer, r.phase i = .answered answer
  ledger_eq : (l.submitAll (r.finished.map calls)).2 = r.ledger
  answers_eq : (l.submitAll (r.finished.map calls)).1.map Phase.answered = r.finished.map r.phase
  passes : ∀ i type, r.phase i = .passed type → (calls i).PassesAs r.ledger.view type

variable {l : Ledger} {calls : Fin n → Call} {r : Race n}

lemma serial_start (l : Ledger) (calls : Fin n → Call) : Serial l calls (start n l) where
  nodup := List.nodup_nil
  mem_iff i := by
    constructor
    · intro hi
      exact absurd hi List.not_mem_nil
    · intro hanswered
      obtain ⟨answer, hanswer⟩ := hanswered
      exact nomatch hanswer
  ledger_eq := rfl
  answers_eq := rfl
  passes i type h := nomatch h

/-- A call that is under way is not among those that are answered. -/
lemma Serial.notMem {i : Fin n} {phase : Phase} (h : Serial l calls r) (hphase : r.phase i = phase)
    (hopen : ∀ answer, phase ≠ .answered answer) : i ∉ r.finished := by
  intro hi
  obtain ⟨answer, hanswer⟩ := (h.mem_iff i).mp hi
  exact hopen answer (hphase.symm.trans hanswer)

/-- A call that is answered as it would be on the ledger at this time comes after those that were
answered before. -/
lemma Serial.answer {i : Fin n} (h : Serial l calls r) (hi : i ∉ r.finished) :
    Serial l calls (r.answer i ((calls i).submit r.ledger)) := by
  set result := (calls i).submit r.ledger with hresult
  have hbatch : l.submitAll ((r.finished ++ [i]).map calls)
      = ((l.submitAll (r.finished.map calls)).1 ++ [result.1], result.2) := by
    rw [List.map_append, List.map_singleton, Ledger.submitAll_concat, h.ledger_eq]
  constructor
  · show (r.finished ++ [i]).Nodup
    rw [← List.concat_eq_append, List.nodup_concat]
    exact ⟨hi, h.nodup⟩
  · intro j
    show j ∈ r.finished ++ [i] ↔ _
    rw [List.mem_append, List.mem_singleton, h.mem_iff]
    by_cases hj : j = i
    · rw [hj, phase_answer_self]
      exact iff_of_true (.inr rfl) ⟨_, rfl⟩
    · rw [phase_answer_of_ne r _ hj]
      exact or_iff_left hj
  · show (l.submitAll ((r.finished ++ [i]).map calls)).2 = result.2
    rw [hbatch]
  · show (l.submitAll ((r.finished ++ [i]).map calls)).1.map Phase.answered
      = (r.finished ++ [i]).map (r.answer i result).phase
    have hothers : r.finished.map (r.answer i result).phase = r.finished.map r.phase := by
      apply List.map_congr_left
      intro j hj
      apply phase_answer_of_ne
      intro hji
      exact hi (hji ▸ hj)
    rw [hbatch, List.map_append, List.map_append, List.map_singleton, List.map_singleton, hothers,
      h.answers_eq, phase_answer_self]
  · intro j type hj
    show (calls j).validator.validate result.2.view.unseen _ _ = .ok type
    rw [hresult, Ledger.unseen_view_submit]
    apply h.passes
    by_cases hji : j = i
    · rw [hji, phase_answer_self] at hj
      exact nomatch hj
    · rwa [phase_answer_of_ne r _ hji] at hj

/-- A call that passes the gates changes nothing but how far it has come. -/
lemma Serial.pass {i : Fin n} {type : TransactionType} (h : Serial l calls r)
    (hi : i ∉ r.finished) (hpasses : (calls i).PassesAs r.ledger.view type) :
    Serial l calls (r.pass i type) := by
  constructor
  · exact h.nodup
  · intro j
    show j ∈ r.finished ↔ _
    by_cases hj : j = i
    · rw [hj, phase_pass_self]
      apply iff_of_false hi
      intro hanswered
      obtain ⟨answer, hanswer⟩ := hanswered
      exact nomatch hanswer
    · rw [h.mem_iff, phase_pass_of_ne r _ hj]
  · exact h.ledger_eq
  · refine h.answers_eq.trans ?_
    apply List.map_congr_left
    intro j hj
    apply (phase_pass_of_ne r type _).symm
    intro hji
    exact hi (hji ▸ hj)
  · intro j type' hj
    by_cases hji : j = i
    · rw [hji, phase_pass_self] at hj
      injection hj with htype
      rw [hji, ← htype]
      exact hpasses
    · rw [phase_pass_of_ne r _ hji] at hj
      exact h.passes j type' hj

/-- A step keeps the race serial. -/
theorem Serial.step (h : Serial l calls r) (i : Fin n) : Serial l calls (r.step calls i) := by
  rw [Race.step]
  cases hphase : r.phase i with
  | waiting =>
    have hi : i ∉ r.finished := h.notMem hphase fun _ hanswer => nomatch hanswer
    have hverdict := judge_query (calls i) r.ledger
    cases hjudge : (calls i).judge r.ledger ((calls i).query r.ledger) with
    | error reason =>
      rw [hjudge] at hverdict
      have hsubmit : (calls i).submit r.ledger = (.error reason, r.ledger) :=
        Ledger.submit_of_error hverdict.symm
      show Serial l calls (r.answer i (.error reason, r.ledger))
      rw [← hsubmit]
      exact h.answer hi
    | ok type =>
      rw [hjudge] at hverdict
      exact h.pass hi (Validator.validate_eq_ok_iff_unseen.mp hverdict.symm).2
  | passed type =>
    -- The gates were passed on an earlier ledger, and recording decides as the gates would now.
    have hi : i ∉ r.finished := h.notMem hphase fun _ hanswer => nomatch hanswer
    show Serial l calls (r.answer i (r.ledger.settle (calls i).tx (.ok type)))
    rw [settle_eq_submit (h.passes i type hphase)]
    exact h.answer hi
  | answered answer => exact h

/-- Every interleaving of steps keeps the race serial. -/
theorem Serial.run (h : Serial l calls r) (schedule : List (Fin n)) :
    Serial l calls (r.run calls schedule) := by
  induction schedule generalizing r with
  | nil => exact h
  | cons i rest ih => exact ih (h.step i)

/-! ## Real time -/

/-- Calls that are answered stay ahead of those that are not. -/
lemma finished_prefix_step (calls : Fin n → Call) (r : Race n) (i : Fin n) :
    r.finished <+: (r.step calls i).finished := by
  rw [step]
  cases r.phase i with
  | waiting =>
    cases (calls i).judge r.ledger ((calls i).query r.ledger) with
    | error reason => exact List.prefix_append _ _
    | ok type => exact List.prefix_rfl
  | passed type => exact List.prefix_append _ _
  | answered answer => exact List.prefix_rfl

lemma finished_prefix_run (calls : Fin n → Call) (r : Race n) (schedule : List (Fin n)) :
    r.finished <+: (r.run calls schedule).finished := by
  induction schedule generalizing r with
  | nil => exact List.prefix_rfl
  | cons i rest ih => exact (finished_prefix_step calls r i).trans (ih (r.step calls i))

/-! ## The race as a whole -/

/-- Calls that are answered under any interleaving of their steps could have been carried out one
after the other: in some order, in which those answered by any time stand before all others, every
call gets the answer that it got and the ledger ends as it ended. And of the calls with a signature
that was new at the start, if one of them passes the other gates, one is accepted, no other one is,
and the others that pass the other gates are turned down as replays. -/
theorem race_linearizable (l : Ledger) (calls : Fin n → Call) (schedule : List (Fin n))
    (answers : Fin n → Verdict)
    (hdone : ∀ i, ((start n l).run calls schedule).phase i = .answered (answers i)) :
    (∃ order : List (Fin n), order.Perm (List.finRange n) ∧
      l.submitAll (order.map calls)
        = (order.map answers, ((start n l).run calls schedule).ledger) ∧
      ∀ before after, schedule = before ++ after → ∃ first rest, order = first ++ rest ∧
        ∀ i, i ∈ first ↔ ∃ answer, ((start n l).run calls before).phase i = .answered answer) ∧
    ∀ text, l.seen.contains text = false →
      (∃ i, (calls i).Carries text ∧ ∃ type, (calls i).PassesAs l.view type) →
        ∃ i, (calls i).Carries text ∧ (∃ type, answers i = .ok type) ∧
          ∀ j, j ≠ i → (calls j).Carries text → (∀ type, answers j ≠ .ok type) ∧
            ((∃ type, (calls j).PassesAs l.view type) → answers j = .error .replayed) := by
  set last := (start n l).run calls schedule with hlast
  have hserial : Serial l calls last := (serial_start l calls).run schedule
  have hmem : ∀ i, i ∈ last.finished := by
    intro i
    rw [hserial.mem_iff]
    exact ⟨answers i, hdone i⟩
  have hanswers : (l.submitAll (last.finished.map calls)).1 = last.finished.map answers := by
    have hinjective : Function.Injective (List.map Phase.answered) := by
      apply List.map_injective_iff.mpr
      intro a b hab
      injection hab
    apply hinjective
    rw [hserial.answers_eq, List.map_map]
    apply List.map_congr_left
    intro i _
    exact hdone i
  constructor
  · refine ⟨last.finished, ?_, Prod.ext hanswers hserial.ledger_eq, ?_⟩
    · rw [List.perm_ext_iff_of_nodup hserial.nodup (List.nodup_finRange n)]
      intro i
      exact iff_of_true (hmem i) (List.mem_finRange i)
    · intro before later hschedule
      have hsplit : last = ((start n l).run calls before).run calls later := by
        rw [hlast, hschedule, run, List.foldl_append]
        rfl
      obtain ⟨rest, hrest⟩ := finished_prefix_run calls ((start n l).run calls before) later
      refine ⟨_, rest, ?_, ((serial_start l calls).run before).mem_iff⟩
      rw [hsplit, hrest]
  · intro text hnew hpasses
    obtain ⟨i, hi⟩ := hpasses
    obtain ⟨k, -, hcarries, hok, hothers⟩ :=
      Ledger.exists_accepted_of_submitAll hnew hanswers ⟨i, hmem i, hi⟩
    exact ⟨k, hcarries, hok, fun j hj => hothers j (hmem j) hj⟩

/-- Two calls with one signature both ask before either of them records it: the first one to record
it is accepted. -/
theorem race_linearizable_of_two :
    let l : Ledger := { Ledger.empty with registry := ⟨[⟨1, .zero, ⟨[]⟩⟩], by decide⟩ }
    let tx : Transaction := { Transaction.native 1 .zero (some .zero) .nativeBalance none with
      signature := some [1, 2, 3] }
    let calls : Fin 2 → Call := fun i => ⟨⟨.legacy⟩, ⟨fun _ _ _ => .ok true⟩,
      { tx with id := UInt64.ofNat i }⟩
    let answers : Fin 2 → Verdict := ![.error .replayed, .ok .nativeBalance]
    (∀ i, ((start 2 l).run calls [0, 1, 1, 0]).phase i = .answered (answers i)) ∧
      ∃ order : List (Fin 2), order.Perm (List.finRange 2) ∧
        (l.submitAll (order.map calls)).1 = order.map answers := by
  intro l tx calls answers
  have hdone : ∀ i, ((start 2 l).run calls [0, 1, 1, 0]).phase i = .answered (answers i) := by
    rw [Fin.forall_fin_two]
    exact ⟨rfl, rfl⟩
  obtain ⟨⟨order, hperm, hanswers, -⟩, -⟩ :=
    race_linearizable l calls [0, 1, 1, 0] answers hdone
  exact ⟨hdone, order, hperm, congrArg Prod.fst hanswers⟩

end Race

end Admission
