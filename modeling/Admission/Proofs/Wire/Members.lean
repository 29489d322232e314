import Admission.Proofs.Outcome
import Admission.Wire.Json

/-!
# Members in any order

An object is read member by member, and each member that is no part of a record is passed over while
each other one fills a field of its own (`Draft.Takes`). Two members fill different fields, so they
may as well come the other way round (`Draft.Takes.exchange`), and any order of the members gives
the same record (`Record.ofTree_perm`).
-/

namespace Admission.Wire

open Admission.Json

namespace Draft

variable {d d₁ d₂ d' : Draft}

/-! ## Single fields -/

/-- Reading a field leaves all others as they are. -/
lemma has_of_read {f : Field} {t : Tree} (h : d.read f t = .ok d') (g : Field) :
    d'.has g = (decide (g = f) || d.has g) := by
  cases f <;> obtain ⟨value, -, rfl⟩ := map_eq_ok_iff.mp h <;> cases g <;> rfl

/-- Two fields may be read in either order. -/
lemma read_exchange {f g : Field} {t u : Tree} (hne : f ≠ g) (h : d.read f t = .ok d₁)
    (h' : d₁.read g u = .ok d₂) : ∃ d', d.read g u = .ok d' ∧ d'.read f t = .ok d₂ := by
  cases f <;> cases g <;> first
    | exact absurd rfl hne
    | obtain ⟨v, hv, rfl⟩ := map_eq_ok_iff.mp h
      obtain ⟨w, hw, rfl⟩ := map_eq_ok_iff.mp h'
      exact ⟨_, map_eq_ok_iff.mpr ⟨w, hw, rfl⟩, map_eq_ok_iff.mpr ⟨v, hv, rfl⟩⟩

/-! ## Single members -/

/-- A member takes a draft to another one: it is passed over, or fills a field that is still empty.
-/
inductive Takes (d : Draft) : Written × Tree → Draft → Prop
  | unknown {written : Written} {value : Tree} {name : List Char}
    (hname : textOf? written = some name) (hfield : Field.ofName? (String.ofList name) = none) :
    Takes d (written, value) d
  | field {written : Written} {value : Tree} {name : List Char} {f : Field} {d' : Draft}
    (hname : textOf? written = some name) (hfield : Field.ofName? (String.ofList name) = some f)
    (hnew : d.has f = false) (hread : d.read f value = .ok d') :
    Takes d (written, value) d'

/-- Members are read one after the other. -/
lemma readMembers_cons_eq_ok_iff {m : Written × Tree} {rest : List (Written × Tree)} :
    d.readMembers (m :: rest) = .ok d' ↔
      ∃ next, d.Takes m next ∧ next.readMembers rest = .ok d' := by
  obtain ⟨written, value⟩ := m
  rw [readMembers]
  constructor
  · intro h
    split at h
    · cases h
    · rename_i name hname
      split at h
      · rename_i hfield
        exact ⟨d, .unknown hname hfield, h⟩
      · rename_i f hfield
        split at h
        · cases h
        · rename_i hnew
          split at h
          · rename_i next hread
            exact ⟨next, .field hname hfield (Bool.not_eq_true _ ▸ hnew) hread, h⟩
          · cases h
  · rintro ⟨next, ⟨hname, hfield⟩ | ⟨hname, hfield, hnew, hread⟩, h⟩
    · simp only [hname, hfield]
      exact h
    · simp only [hname, hfield, hnew, hread]
      exact h

/-- Two members may come the other way round: they fill different fields, if they fill any. -/
lemma Takes.exchange {m m' : Written × Tree} (h : d.Takes m d₁) (h' : d₁.Takes m' d₂) :
    ∃ d', d.Takes m' d' ∧ d'.Takes m d₂ := by
  cases h with
  | unknown hname hfield => exact ⟨d₂, h', .unknown hname hfield⟩
  | @field _ _ _ f _ hname hfield hnew hread =>
    cases h' with
    | unknown hname' hfield' => exact ⟨d, .unknown hname' hfield', .field hname hfield hnew hread⟩
    | @field _ _ _ g _ hname' hfield' hnew' hread' =>
      rw [has_of_read hread g, Bool.or_eq_false_iff] at hnew'
      obtain ⟨hne, hempty⟩ := hnew'
      have hne' : f ≠ g := fun h => of_decide_eq_false hne h.symm
      obtain ⟨next, hg, hf⟩ := read_exchange hne' hread hread'
      have hstill : next.has f = false := by
        rw [has_of_read hg f, hnew, decide_eq_false hne']
        rfl
      exact ⟨next, .field hname' hfield' hempty hg, .field hname hfield hstill hf⟩

/-! ## All members -/

/-- Members may come in any order. -/
theorem readMembers_perm {ms ms' : List (Written × Tree)} (hperm : ms.Perm ms')
    (h : d.readMembers ms = .ok d') : d.readMembers ms' = .ok d' := by
  induction hperm generalizing d with
  | nil => exact h
  | cons m _ ih =>
    obtain ⟨next, htakes, hrest⟩ := readMembers_cons_eq_ok_iff.mp h
    exact readMembers_cons_eq_ok_iff.mpr ⟨next, htakes, ih hrest⟩
  | swap m m' rest =>
    obtain ⟨d₁, h₁, hrest⟩ := readMembers_cons_eq_ok_iff.mp h
    obtain ⟨d₂, h₂, hrest⟩ := readMembers_cons_eq_ok_iff.mp hrest
    obtain ⟨next, hnext, hlast⟩ := h₁.exchange h₂
    exact readMembers_cons_eq_ok_iff.mpr
      ⟨next, hnext, readMembers_cons_eq_ok_iff.mpr ⟨d₂, hlast, hrest⟩⟩
  | trans _ _ ih ih' => exact ih' (ih h)

/-! ## What reading keeps -/

section Invariant

variable {P : Draft → Prop} (hread : ∀ {d d' f t}, P d → Draft.read d f t = .ok d' → P d')
include hread

/-- What each field keeps, the members of an object keep. -/
lemma readMembers_keeps {ms : List (Written × Tree)} (hP : P d) (h : d.readMembers ms = .ok d') :
    P d' := by
  induction ms generalizing d with
  | nil =>
    injection h with hd
    rwa [← hd]
  | cons m rest ih =>
    obtain ⟨next, htakes, hrest⟩ := readMembers_cons_eq_ok_iff.mp h
    refine ih ?_ hrest
    cases htakes with
    | unknown => exact hP
    | field _ _ _ hfield => exact hread hP hfield

/-- What each field keeps, the items of an array keep. -/
lemma readItems_keeps {fields : List Field} {items : List Tree} (hP : P d)
    (h : d.readItems fields items = .ok d') : P d' := by
  induction items generalizing d fields with
  | nil =>
    rw [readItems] at h
    injection h with hd
    rwa [← hd]
  | cons t rest ih =>
    cases fields with
    | nil => cases h
    | cons f fields =>
      rw [readItems] at h
      split at h
      · rename_i next hnext
        exact ih (hread hP hnext) h
      · cases h

end Invariant

end Draft

/-! ## Records -/

/-- The members of an object may come in any order. -/
theorem Record.ofTree_perm {ms ms' : List (Written × Tree)} {closed : Bool} {r : Record}
    (hperm : ms.Perm ms') (h : ofTree (.object ms closed) = .ok r) :
    ofTree (.object ms' closed) = .ok r := by
  rw [ofTree, bind_eq_ok_iff] at h ⊢
  obtain ⟨draft, hdraft, hfinish⟩ := h
  exact ⟨draft, Draft.readMembers_perm hperm hdraft, hfinish⟩

end Admission.Wire
