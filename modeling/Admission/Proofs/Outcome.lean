import Mathlib.Tactic

/-!
# Steps that succeed and steps that fail

A computation of several steps succeeds when each of its steps does (`bind_eq_ok_iff`,
`map_eq_ok_iff`), and fails as the first step that fails (`bind_eq_error_iff`), with the state of
that moment if it has one (`run_ofExcept_bind`). Once all its faults are known, each of them is told
exactly where it occurs (`eq_error_iff_of_cases`). Checks that are made in a row do the same
(`forM_eq_ok_iff`, `forM_eq_error_iff`).
-/

namespace Admission

variable {ε α β : Type}

/-! ## Two steps -/

lemma bind_eq_ok_iff {x : Except ε α} {f : α → Except ε β} {b : β} :
    x >>= f = .ok b ↔ ∃ a, x = .ok a ∧ f a = .ok b := by
  cases x <;> simp [bind, Except.bind]

lemma bind_eq_error_iff {x : Except ε α} {f : α → Except ε β} {e : ε} :
    x >>= f = .error e ↔ x = .error e ∨ ∃ a, x = .ok a ∧ f a = .error e := by
  cases x <;> simp [bind, Except.bind]

lemma map_eq_ok_iff {x : Except ε α} {f : α → β} {b : β} :
    x.map f = .ok b ↔ ∃ a, x = .ok a ∧ f a = b := by
  cases x <;> simp [Except.map]

lemma map_eq_error_iff {x : Except ε α} {f : α → β} {e : ε} :
    x.map f = .error e ↔ x = .error e := by
  cases x <;> simp [Except.map]

/-- Where there is a result or one of these faults, each of which is told, no other fault is told. -/
lemma eq_error_iff_of_cases {x : Except ε α} {Fails : ε → Prop}
    (hcases : (∃ a, x = .ok a) ∨ ∃ e, Fails e) (hfails : ∀ e, Fails e → x = .error e) {e : ε} :
    x = .error e ↔ Fails e := by
  refine ⟨fun h => ?_, hfails e⟩
  obtain ⟨a, ha⟩ | ⟨cause, hcause⟩ := hcases
  · exact nomatch ha.symm.trans h
  · obtain rfl := Except.error.inj ((hfails cause hcause).symm.trans h)
    exact hcause

/-- A program with a state goes on with a result, or stops at a fault with the state that it has come
to. -/
lemma run_ofExcept_bind {σ : Type} (result : Except ε α) (next : α → EStateM ε σ β) (s : σ) :
    (ofExcept result >>= next : EStateM ε σ β).run s = match result with
      | .ok a => (next a).run s
      | .error e => .error e s := by
  cases result <;> rfl

/-! ## Checks in a row -/

section Checks

variable {check : α → Except ε Unit} {steps : List α}

/-- Checks in a row pass if each of them does. -/
lemma forM_eq_ok_iff : forM steps check = .ok () ↔ ∀ x ∈ steps, check x = .ok () := by
  induction steps with
  | nil => simp [pure, Except.pure]
  | cons x rest ih =>
    rw [List.forM_cons, bind_eq_ok_iff, List.forall_mem_cons, ← ih]
    constructor
    · rintro ⟨⟨⟩, hx, hrest⟩
      exact ⟨hx, hrest⟩
    · rintro ⟨hx, hrest⟩
      exact ⟨(), hx, hrest⟩

/-- Checks in a row fail as the first one that does. -/
lemma forM_eq_error_iff {e : ε} : forM steps check = .error e ↔
    ∃ earlier x later, steps = earlier ++ x :: later ∧ (∀ y ∈ earlier, check y = .ok ()) ∧
      check x = .error e := by
  induction steps with
  | nil => simp [pure, Except.pure]
  | cons x rest ih =>
    rw [List.forM_cons, bind_eq_error_iff, ih]
    constructor
    · rintro (hx | ⟨⟨⟩, hx, earlier, y, later, rfl, hearlier, hy⟩)
      · exact ⟨[], x, rest, rfl, List.forall_mem_nil _, hx⟩
      · exact ⟨x :: earlier, y, later, rfl, List.forall_mem_cons.mpr ⟨hx, hearlier⟩, hy⟩
    · rintro ⟨earlier, y, later, hsplit, hearlier, hy⟩
      rcases List.cons_eq_append_iff.mp hsplit with ⟨rfl, hhead⟩ | ⟨earlier, rfl, hrest⟩
      · injection hhead with hhead
        exact .inl (hhead ▸ hy)
      · rw [List.forall_mem_cons] at hearlier
        exact .inr ⟨(), hearlier.1, earlier, y, later, hrest, hearlier.2, hy⟩

end Checks

end Admission
