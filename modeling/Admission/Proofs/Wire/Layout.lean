import Admission.Proofs.Json.Grammar
import Admission.Proofs.Wire.Canonical

/-!
# Layouts of a record

An object is read as a record by the values that it gives for the fields (`valuesOf`), and by
nothing else: every name must be a text, no field may come twice, and then the object says what the
array of these values says, with null for what it does not give (`Record.ofTree_object_iff`). So the
order of the members, members with other names and null for an optional field make no difference
(`Relays.ofTree`), and an accepted text may be laid out anew (`Transaction.ofJson_layout`).
-/

namespace Admission.Wire

open Admission.Json

/-! ## Names -/

lemma Field.mem_all (f : Field) : f ∈ all := by
  cases f <;> decide

lemma Field.ofName?_eq_some_iff {name : List Char} {f : Field} :
    ofName? (String.ofList name) = some f ↔ name = f.name.toList := by
  constructor
  · intro h
    have hname : (f.name == String.ofList name) = true :=
      List.find?_some (p := fun f : Field => f.name == String.ofList name) h
    rw [eq_of_beq hname, String.toList_ofList]
  · rintro rfl
    rw [String.ofList_toList]
    exact ofName?_name f

/-- Whether a member has the name of the field. -/
def Field.names (f : Field) (m : Written × Tree) : Bool :=
  textOf? m.1 = some f.name.toList

/-- The member has a name, and it is the name of no field. -/
def Unknown (m : Written × Tree) : Prop :=
  ∃ name, textOf? m.1 = some name ∧ ∀ f : Field, name ≠ f.name.toList

/-- The values that the members of an object give for a field. -/
def valuesOf (ms : List (Written × Tree)) (f : Field) : List Tree :=
  (ms.filter f.names).map Prod.snd

/-- The value that the members of an object give for a field, null if they give none. -/
def valueOf (ms : List (Written × Tree)) (f : Field) : Tree :=
  (valuesOf ms f).headD .null

section Values

variable {ms before after : List (Written × Tree)} {m : Written × Tree} {f g : Field}

lemma Unknown.names_eq_false (h : Unknown m) (f : Field) : f.names m = false := by
  obtain ⟨name, hname, hother⟩ := h
  rw [Field.names, hname]
  simp [hother f]

/-- A member has the name of one field at most. -/
lemma Field.names_eq_false_of_ne (h : f.names m = true) (hne : g ≠ f) : g.names m = false := by
  rw [Field.names, decide_eq_true_eq] at h
  rw [Field.names, h, decide_eq_false_iff_not]
  intro hname
  have hsame : f.name = g.name := String.toList_injective (Option.some.inj hname)
  have hfield := Field.ofName?_name f
  rw [hsame, Field.ofName?_name g] at hfield
  exact hne (Option.some.inj hfield)

/-- A member with a name has the name of a field, or is unknown. -/
lemma Field.exists_names_or_unknown {name : List Char} (h : textOf? m.1 = some name) :
    (∃ f : Field, f.names m = true) ∨ Unknown m := by
  by_cases hfield : ∃ f : Field, name = f.name.toList
  · obtain ⟨f, rfl⟩ := hfield
    exact .inl ⟨f, decide_eq_true h⟩
  · exact .inr ⟨name, h, not_exists.mp hfield⟩

lemma valuesOf_cons_of_names (h : f.names m = true) :
    valuesOf (m :: ms) f = m.2 :: valuesOf ms f := by
  rw [valuesOf, List.filter_cons_of_pos h, List.map_cons, valuesOf]

lemma valuesOf_cons_of_not_names (h : f.names m = false) :
    valuesOf (m :: ms) f = valuesOf ms f := by
  rw [valuesOf, List.filter_cons_of_neg (by simp [h]), valuesOf]

lemma valuesOf_append : valuesOf (before ++ after) f = valuesOf before f ++ valuesOf after f := by
  rw [valuesOf, List.filter_append, List.map_append, valuesOf, valuesOf]

end Values

/-! ## Fields of a draft -/

namespace Draft

variable {d d₁ d' s : Draft} {f g : Field} {t u : Tree}

/-- The draft has read the tree for the field: to read it again changes nothing. -/
def Holds (d : Draft) (f : Field) (t : Tree) : Prop :=
  d.read f t = .ok d

/-- Whether a tree is read does not depend on the draft. -/
lemma exists_read (h : s.read f t = .ok s) (d : Draft) : ∃ d', d.read f t = .ok d' := by
  cases f <;> obtain ⟨v, hv, -⟩ := map_eq_ok_iff.mp h <;> exact ⟨_, map_eq_ok_iff.mpr ⟨v, hv, rfl⟩⟩

lemma holds_of_read (h : d.read f t = .ok d') : d'.Holds f t := by
  cases f <;> obtain ⟨v, hv, rfl⟩ := map_eq_ok_iff.mp h <;> exact map_eq_ok_iff.mpr ⟨v, hv, rfl⟩

/-- What is held is still held when another field is read. -/
lemma Holds.read (h : d.Holds f t) (hne : f ≠ g) (hread : d.read g u = .ok d') : d'.Holds f t := by
  obtain ⟨next, hnext, hlast⟩ := read_exchange hne h hread
  rw [hread] at hnext
  injection hnext with hd
  rwa [← hd] at hlast

lemma Holds.has (h : d.Holds f t) : d.has f = true := by
  rw [has_of_read h f, decide_eq_true rfl]
  rfl

/-- What two drafts have read alike, they hold alike. -/
lemma slot_eq {α β : Type} {x : Except Json.Fault α} {fill fill' : α → Draft} (slot : Draft → β)
    (h : x.map fill = .ok d) (h' : x.map fill' = .ok d')
    (hslot : ∀ v, slot (fill v) = slot (fill' v)) : slot d = slot d' := by
  obtain ⟨v, hv, rfl⟩ := map_eq_ok_iff.mp h
  obtain ⟨w, hw, rfl⟩ := map_eq_ok_iff.mp h'
  rw [hv] at hw
  rw [Except.ok.inj hw, hslot]

/-- A draft is what it holds. -/
lemma eq_of_holds {values : Field → Tree} (h : ∀ f, d.Holds f (values f))
    (h' : ∀ f, d'.Holds f (values f)) : d = d' := by
  cases d
  cases d'
  rw [mk.injEq]
  exact ⟨slot_eq transactionId (h .transactionId) (h' .transactionId) fun _ => rfl,
    slot_eq functionSignature (h .functionSignature) (h' .functionSignature) fun _ => rfl,
    slot_eq nativeOperation (h .nativeOperation) (h' .nativeOperation) fun _ => rfl,
    slot_eq senderAddress (h .senderAddress) (h' .senderAddress) fun _ => rfl,
    slot_eq receiverAddress (h .receiverAddress) (h' .receiverAddress) fun _ => rfl,
    slot_eq ownerAddress (h .ownerAddress) (h' .ownerAddress) fun _ => rfl,
    slot_eq amount (h .amount) (h' .amount) fun _ => rfl,
    slot_eq weiAmount (h .weiAmount) (h' .weiAmount) fun _ => rfl,
    slot_eq signature (h .signature) (h' .signature) fun _ => rfl⟩

/-! ### Values in order -/

/-- The items of an array are held by their fields. -/
lemma holds_of_readItems {fields : List Field} {values : Field → Tree} (hnodup : fields.Nodup)
    (h : d.readItems fields (fields.map values) = .ok d') :
    (∀ f ∈ fields, d'.Holds f (values f)) ∧ ∀ f ∉ fields, ∀ t, d.Holds f t → d'.Holds f t := by
  induction fields generalizing d with
  | nil =>
    injection h with hd
    rw [← hd]
    exact ⟨fun _ hf => (nomatch hf), fun _ _ _ => id⟩
  | cons f fields ih =>
    obtain ⟨hnotMem, hnodup⟩ := List.nodup_cons.mp hnodup
    rw [List.map_cons, readItems] at h
    split at h
    · rename_i next hread
      obtain ⟨hfields, hothers⟩ := ih hnodup h
      refine ⟨fun g hg => ?_, fun g hg t ht => ?_⟩
      · rcases List.mem_cons.mp hg with rfl | hg
        · -- The first field is read here, and its value stays as no other item is read for it.
          exact hothers g hnotMem _ (holds_of_read hread)
        · exact hfields g hg
      · rw [List.mem_cons, not_or] at hg
        exact hothers g hg.2 t (ht.read hg.1 hread)
    · cases h

lemma exists_readItems {fields : List Field} {values : Field → Tree}
    (h : ∀ f ∈ fields, s.Holds f (values f)) :
    ∃ d', d.readItems fields (fields.map values) = .ok d' := by
  induction fields generalizing d with
  | nil => exact ⟨d, rfl⟩
  | cons f fields ih =>
    obtain ⟨next, hread⟩ := exists_read (h f (List.mem_cons_self ..)) d
    obtain ⟨d', hd'⟩ := @ih next fun g hg => h g (List.mem_cons_of_mem f hg)
    refine ⟨d', ?_⟩
    rw [List.map_cons, readItems, hread]
    exact hd'

/-- The array of the values of all fields gives the draft that holds these values. -/
lemma readItems_all_eq_ok_iff {values : Field → Tree} :
    d.readItems Field.all (Field.all.map values) = .ok s ↔ ∀ f, s.Holds f (values f) := by
  have hnodup : Field.all.Nodup := by decide
  constructor
  · exact fun h f => (holds_of_readItems hnodup h).1 f f.mem_all
  · intro h
    obtain ⟨d', hd'⟩ := @exists_readItems d s Field.all values fun f _ => h f
    rw [hd', eq_of_holds (fun f => (holds_of_readItems hnodup hd').1 f f.mem_all) h]

/-! ### Values of members -/

/-- Where the members of an object are read, every name is a text, and each field is given by no
member and stays as it is, or it is given once, was not held before, and is held then. -/
lemma holds_of_readMembers {ms : List (Written × Tree)} (h : d.readMembers ms = .ok d') :
    (∀ m ∈ ms, ∃ name, textOf? m.1 = some name) ∧
    ∀ f, (valuesOf ms f = [] ∧ d'.has f = d.has f ∧ ∀ t, d.Holds f t → d'.Holds f t) ∨
      ∃ t, valuesOf ms f = [t] ∧ d.has f = false ∧ d'.Holds f t := by
  induction ms generalizing d with
  | nil =>
    injection h with hd
    rw [← hd]
    exact ⟨fun _ hm => (nomatch hm), fun f => .inl ⟨rfl, rfl, fun _ => id⟩⟩
  | cons m ms ih =>
    obtain ⟨next, htakes, hrest⟩ := readMembers_cons_eq_ok_iff.mp h
    obtain ⟨hnames, hvalues⟩ := ih hrest
    cases htakes with
    | @unknown written value name hname hfield =>
      have hunknown : Unknown (written, value) := by
        refine ⟨name, hname, fun f hf => ?_⟩
        rw [Field.ofName?_eq_some_iff.mpr hf] at hfield
        cases hfield
      refine ⟨List.forall_mem_cons.mpr ⟨⟨name, hname⟩, hnames⟩, fun f => ?_⟩
      rw [valuesOf_cons_of_not_names (hunknown.names_eq_false f)]
      exact hvalues f
    | @field written value name f _ hname hfield hnew hread =>
      have hnamed : f.names (written, value) = true := by
        rw [Field.ofName?_eq_some_iff] at hfield
        exact decide_eq_true (hfield ▸ hname)
      refine ⟨List.forall_mem_cons.mpr ⟨⟨name, hname⟩, hnames⟩, fun g => ?_⟩
      by_cases hg : g = f
      · -- The field is full from here on, so no later member gives it again.
        rw [hg, valuesOf_cons_of_names hnamed]
        rcases hvalues f with ⟨hnone, -, hkeep⟩ | ⟨t, -, hempty, -⟩
        · rw [hnone]
          exact .inr ⟨value, rfl, hnew, hkeep value (holds_of_read hread)⟩
        · rw [(holds_of_read hread).has] at hempty
          cases hempty
      · have hhas : next.has g = d.has g := by
          rw [has_of_read hread g, decide_eq_false hg, Bool.false_or]
        rw [valuesOf_cons_of_not_names (Field.names_eq_false_of_ne hnamed hg), ← hhas]
        rcases hvalues g with ⟨hnone, hsame, hkeep⟩ | hgiven
        · exact .inl ⟨hnone, hsame, fun t ht => hkeep t (ht.read hg hread)⟩
        · exact .inr hgiven

/-- Members with names are read, if each field is given once at most, by a value that is read for
it, and not held before. -/
lemma exists_readMembers {ms : List (Written × Tree)}
    (hnames : ∀ m ∈ ms, ∃ name, textOf? m.1 = some name)
    (hvalues : ∀ f, valuesOf ms f = [] ∨
      ∃ t, valuesOf ms f = [t] ∧ d.has f = false ∧ s.Holds f t) :
    ∃ d', d.readMembers ms = .ok d' := by
  induction ms generalizing d with
  | nil => exact ⟨d, rfl⟩
  | cons m ms ih =>
    obtain ⟨⟨name, hname⟩, hnames⟩ := List.forall_mem_cons.mp hnames
    rcases Field.exists_names_or_unknown hname with ⟨f, hnamed⟩ | hunknown
    · have hfield : Field.ofName? (String.ofList name) = some f := by
        rw [Field.names, decide_eq_true_eq, hname] at hnamed
        exact Field.ofName?_eq_some_iff.mpr (Option.some.inj hnamed)
      obtain ⟨hrest, hnew, hreads⟩ : valuesOf ms f = [] ∧ d.has f = false ∧ s.Holds f m.2 := by
        have hf := hvalues f
        rw [valuesOf_cons_of_names hnamed] at hf
        rcases hf with hf | ⟨t, hf, hnew, hreads⟩
        · cases hf
        · injection hf with hm hrest
          exact ⟨hrest, hnew, hm ▸ hreads⟩
      obtain ⟨next, hread⟩ := exists_read hreads d
      obtain ⟨d', hd'⟩ : ∃ d', next.readMembers ms = .ok d' := by
        -- The field is held now, and the members behind this one do not give it.
        refine ih hnames fun g => ?_
        by_cases hg : g = f
        · exact .inl (hg ▸ hrest)
        · have hf := hvalues g
          rw [valuesOf_cons_of_not_names (Field.names_eq_false_of_ne hnamed hg)] at hf
          rwa [has_of_read hread g, decide_eq_false hg, Bool.false_or]
      exact ⟨d', readMembers_cons_eq_ok_iff.mpr ⟨next, .field hname hfield hnew hread, hd'⟩⟩
    · have hfield : Field.ofName? (String.ofList name) = none := by
        obtain ⟨name', hname', hother⟩ := hunknown
        rw [hname] at hname'
        cases hfield : Field.ofName? (String.ofList name) with
        | none => rfl
        | some f =>
          rw [Option.some.inj hname'] at hfield
          exact absurd (Field.ofName?_eq_some_iff.mp hfield) (hother f)
      obtain ⟨d', hd'⟩ : ∃ d', d.readMembers ms = .ok d' := by
        refine ih hnames fun f => ?_
        rw [← valuesOf_cons_of_not_names (hunknown.names_eq_false f)]
        exact hvalues f
      exact ⟨d', readMembers_cons_eq_ok_iff.mpr ⟨d, .unknown hname hfield, hd'⟩⟩

/-! ### Null for what is not there -/

/-- The draft with null for the optional fields that have not been read. -/
def settled (d : Draft) : Draft :=
  { d with
    functionSignature := some d.functionSignature.join
    nativeOperation := some d.nativeOperation.join
    receiverAddress := some d.receiverAddress.join
    ownerAddress := some d.ownerAddress.join
    amount := some d.amount.join
    weiAmount := some d.weiAmount.join
    signature := some d.signature.join }

lemma finish_settled (missing : Field → Mismatch) :
    d.settled.finish missing = d.finish missing := by
  rfl

/-- Which faults are told does not matter to a draft that is complete. -/
lemma finish_congr {missing missing' : Field → Mismatch} {r : Record}
    (h : d.finish missing = .ok r) : d.finish missing' = .ok r := by
  unfold finish at h ⊢
  split at h
  · cases h
  · cases h
  · exact h

lemma Holds.settled (h : d.Holds f t) : d.settled.Holds f t := by
  cases f <;>
  · obtain ⟨v, hv, hd⟩ := map_eq_ok_iff.mp h
    refine map_eq_ok_iff.mpr ⟨v, hv, ?_⟩
    rw [← hd]
    rfl

/-- Null is read for optional fields only. -/
lemma Holds.optional (h : s.Holds f .null) : f.required = false := by
  cases f with
  | transactionId => cases h
  | senderAddress => cases h
  | _ => rfl

/-- An optional field that has not been read holds null in the settled draft. -/
lemma settled_holds_null (hf : f.required = false) (hnew : d.has f = false) :
    d.settled.Holds f .null := by
  cases d
  cases f with
  | transactionId => cases hf
  | senderAddress => cases hf
  | _ =>
    obtain rfl := Option.isSome_eq_false_iff.mp hnew |> Option.isNone_iff_eq_none.mp
    rfl

/-- A draft that is complete lacks optional fields only. -/
lemma optional_of_finish {missing : Field → Mismatch} {r : Record} (h : d.finish missing = .ok r)
    (hnew : d.has f = false) : f.required = false := by
  unfold finish at h
  split at h
  · cases h
  · cases h
  · rename_i hid hsender
    cases f with
    | transactionId =>
      rw [has, hid] at hnew
      cases hnew
    | senderAddress =>
      rw [has, hsender] at hnew
      cases hnew
    | _ => rfl

end Draft

/-! ## Records -/

variable {ms ms' : List (Written × Tree)} {r : Record}

/-- An array of nine items is a record, if a draft that holds its items is one. -/
lemma Record.ofTree_array_iff {values : Field → Tree} :
    ofTree (.array (Field.all.map values) true) = .ok r ↔
      ∃ s : Draft, (∀ f, s.Holds f (values f)) ∧ s.finish shortOf = .ok r := by
  rw [ofTree, bind_eq_ok_iff]
  simp only [Draft.readItems_all_eq_ok_iff, if_true]

/-- The values that an object gives for a field: none, or one that the draft holds. -/
lemma Draft.settled_holds_valueOf {d : Draft} {f : Field}
    (hvalues : (valuesOf ms f = [] ∧ d.has f = false ∧ f.required = false) ∨
      ∃ t, valuesOf ms f = [t] ∧ d.Holds f t) : d.settled.Holds f (valueOf ms f) := by
  rcases hvalues with ⟨hnone, hnew, hoptional⟩ | ⟨t, hgiven, hheld⟩
  · rw [valueOf, hnone]
    exact settled_holds_null hoptional hnew
  · rw [valueOf, hgiven]
    exact hheld.settled

/-- An object is a record if its members have names, no field is given twice, and the array of the
values that it gives for the fields is that record. -/
theorem Record.ofTree_object_iff :
    ofTree (.object ms true) = .ok r ↔ (∀ m ∈ ms, ∃ name, textOf? m.1 = some name) ∧
      (∀ f, (valuesOf ms f).length ≤ 1) ∧
      ofTree (.array (Field.all.map (valueOf ms)) true) = .ok r := by
  have hempty : ∀ f, Draft.empty.has f = false := fun f => by cases f <;> rfl
  rw [ofTree_array_iff, ofTree, bind_eq_ok_iff]
  simp only [if_true]
  constructor
  · rintro ⟨d, hd, hfinish⟩
    obtain ⟨hnames, hvalues⟩ := Draft.holds_of_readMembers hd
    refine ⟨hnames, fun f => ?_, d.settled, fun f => Draft.settled_holds_valueOf ?_, ?_⟩
    · rcases hvalues f with ⟨hnone, -⟩ | ⟨t, hgiven, -⟩
      · rw [hnone]
        exact Nat.zero_le 1
      · rw [hgiven]
        exact Nat.le_refl 1
    · rcases hvalues f with ⟨hnone, hnew, -⟩ | ⟨t, hgiven, -, hheld⟩
      · rw [hempty f] at hnew
        exact .inl ⟨hnone, hnew, Draft.optional_of_finish hfinish hnew⟩
      · exact .inr ⟨t, hgiven, hheld⟩
    · rw [Draft.finish_settled]
      exact Draft.finish_congr hfinish
  · rintro ⟨hnames, honce, s, hs, hfinish⟩
    -- Each field is given by no member, and then null is read for it, or by one member.
    have hgiven : ∀ f, (valuesOf ms f = [] ∧ f.required = false) ∨
        ∃ t, valuesOf ms f = [t] ∧ s.Holds f t := by
      intro f
      have hf := hs f
      rw [valueOf] at hf
      cases hvalues : valuesOf ms f with
      | nil =>
        rw [hvalues] at hf
        exact .inl ⟨rfl, hf.optional⟩
      | cons t rest =>
        have hlength := honce f
        rw [hvalues, List.length_cons] at hlength
        obtain rfl : rest = [] := List.eq_nil_of_length_eq_zero (by omega)
        rw [hvalues] at hf
        exact .inr ⟨t, rfl, hf⟩
    obtain ⟨d, hd⟩ : ∃ d, Draft.empty.readMembers ms = .ok d := by
      refine Draft.exists_readMembers (s := s) hnames fun f => ?_
      rcases hgiven f with ⟨hnone, -⟩ | ⟨t, hone, hheld⟩
      · exact .inl hnone
      · exact .inr ⟨t, hone, hempty f, hheld⟩
    refine ⟨d, hd, ?_⟩
    -- The draft of the object differs from that of the array in the nulls that were not written.
    have hsettled : d.settled = s := by
      refine Draft.eq_of_holds (fun f => Draft.settled_holds_valueOf ?_) hs
      rcases (Draft.holds_of_readMembers hd).2 f with ⟨hnone, hnew, -⟩ | ⟨t, hone, -, hheld⟩
      · rcases hgiven f with ⟨-, hoptional⟩ | ⟨t, hone, -⟩
        · exact .inl ⟨hnone, hnew.trans (hempty f), hoptional⟩
        · rw [hnone] at hone
          cases hone
      · exact .inr ⟨t, hone, hheld⟩
    rw [← hsettled, Draft.finish_settled] at hfinish
    exact Draft.finish_congr hfinish

/-! ## Objects that give the same values -/

/-- Where each field is given once at most, the other members give the same values. -/
def GivesSame (ms ms' : List (Written × Tree)) : Prop :=
  ∀ f, (valuesOf ms f).length ≤ 1 → (valuesOf ms' f).length ≤ 1 ∧ valueOf ms' f = valueOf ms f

lemma givesSame_of_perm (h : ms.Perm ms') : GivesSame ms ms' := by
  intro f hlength
  have hperm : (valuesOf ms f).Perm (valuesOf ms' f) := (h.filter _).map _
  have hsame : valuesOf ms f = valuesOf ms' f := by
    match hvalues : valuesOf ms f with
    | [] =>
      rw [hvalues] at hperm
      exact (List.nil_perm.mp hperm).symm
    | [t] =>
      rw [hvalues] at hperm
      exact List.singleton_perm.mp hperm
    | t :: u :: rest =>
      rw [hvalues] at hlength
      simp only [List.length_cons] at hlength
      omega
  rw [valueOf, valueOf, ← hsame]
  exact ⟨hlength, rfl⟩

section Insertion

variable {before after : List (Written × Tree)} {m : Written × Tree} {f : Field}

lemma valuesOf_insert_of_not_names (h : f.names m = false) :
    valuesOf (before ++ m :: after) f = valuesOf (before ++ after) f := by
  rw [valuesOf_append, valuesOf_cons_of_not_names h, valuesOf_append]

lemma valuesOf_insert_of_names (h : f.names m = true) :
    valuesOf (before ++ m :: after) f = valuesOf before f ++ m.2 :: valuesOf after f := by
  rw [valuesOf_append, valuesOf_cons_of_names h]

/-- An unknown member gives nothing. -/
lemma Unknown.valuesOf_insert (h : Unknown m) :
    valuesOf (before ++ m :: after) = valuesOf (before ++ after) :=
  funext fun f => valuesOf_insert_of_not_names (h.names_eq_false f)

/-- Null gives what no member gives. -/
lemma givesSame_null (hname : f.names m = true) (hnull : m.2 = .null) :
    GivesSame (before ++ m :: after) (before ++ after) := by
  intro g hlength
  by_cases hg : g = f
  · -- The member is the only one of its field, so without it there is none.
    rw [hg, valuesOf_insert_of_names hname, List.length_append, List.length_cons] at hlength
    have hbefore : valuesOf before f = [] := List.eq_nil_of_length_eq_zero (by omega)
    have hafter : valuesOf after f = [] := List.eq_nil_of_length_eq_zero (by omega)
    rw [hg, valueOf, valueOf, valuesOf_insert_of_names hname, valuesOf_append, hbefore, hafter,
      hnull]
    exact ⟨Nat.zero_le 1, rfl⟩
  · rw [valueOf, valueOf,
      valuesOf_insert_of_not_names (Field.names_eq_false_of_ne hname hg)] at *
    exact ⟨hlength, rfl⟩

/-- Null may stand for what no member gives. -/
lemma givesSame_insert_null (hname : f.names m = true) (hnull : m.2 = .null)
    (hnew : ∀ m' ∈ before ++ after, f.names m' = false) :
    GivesSame (before ++ after) (before ++ m :: after) := by
  have hnone : valuesOf (before ++ after) f = [] := by
    rw [valuesOf, List.filter_eq_nil_iff.mpr fun m' hm' => by simp [hnew m' hm']]
    rfl
  intro g hlength
  by_cases hg : g = f
  · rw [valuesOf_append, List.append_eq_nil_iff] at hnone
    rw [hg, valueOf, valueOf, valuesOf_insert_of_names hname, valuesOf_append, hnone.1, hnone.2,
      hnull]
    exact ⟨Nat.le_refl 1, rfl⟩
  · rw [valueOf, valueOf,
      valuesOf_insert_of_not_names (Field.names_eq_false_of_ne hname hg)] at *
    exact ⟨hlength, rfl⟩

end Insertion

/-! ## Other layouts -/

/-- One change to the members of an object that leaves the record as it is: they come in another
order, a member with an unknown name comes or goes, or null for an optional field does. A member
that comes can be written; null comes only for a field that is not there yet. -/
inductive Relays : List (Written × Tree) → List (Written × Tree) → Prop
  | reorder {ms ms' : List (Written × Tree)} (h : ms.Perm ms') : Relays ms ms'
  | addUnknown {before after : List (Written × Tree)} {m : Written × Tree}
    (htext : Part.HasText (.member m)) (h : Unknown m) :
    Relays (before ++ after) (before ++ m :: after)
  | dropUnknown {before after : List (Written × Tree)} {m : Written × Tree} (h : Unknown m) :
    Relays (before ++ m :: after) (before ++ after)
  | addNull {before after : List (Written × Tree)} {m : Written × Tree} {f : Field}
    (htext : Part.HasText (.member m)) (hoptional : f.required = false) (hname : f.names m = true)
    (hnull : m.2 = .null) (hnew : ∀ m' ∈ before ++ after, f.names m' = false) :
    Relays (before ++ after) (before ++ m :: after)
  | dropNull {before after : List (Written × Tree)} {m : Written × Tree} {f : Field}
    (hoptional : f.required = false) (hname : f.names m = true) (hnull : m.2 = .null) :
    Relays (before ++ m :: after) (before ++ after)

/-- One change leaves the values as they are. -/
lemma Relays.givesSame (h : Relays ms ms') : GivesSame ms ms' := by
  cases h with
  | reorder h => exact givesSame_of_perm h
  | addUnknown _ h =>
    intro f hlength
    rw [valueOf, valueOf, h.valuesOf_insert]
    exact ⟨hlength, rfl⟩
  | dropUnknown h =>
    intro f hlength
    rw [h.valuesOf_insert] at hlength
    rw [valueOf, valueOf, h.valuesOf_insert]
    exact ⟨hlength, rfl⟩
  | addNull _ _ hname hnull hnew => exact givesSame_insert_null hname hnull hnew
  | dropNull _ hname hnull => exact givesSame_null hname hnull

/-- What holds of every member, and of the one that comes, holds of every member afterwards. -/
lemma Relays.forall_mem {P : Written × Tree → Prop} (h : Relays ms ms')
    (hnew : ∀ m, Part.HasText (.member m) → (∃ name, textOf? m.1 = some name) → P m)
    (hP : ∀ m ∈ ms, P m) : ∀ m ∈ ms', P m := by
  intro m hm
  cases h with
  | reorder h => exact hP m (h.mem_iff.mpr hm)
  | addUnknown htext h =>
    rcases List.mem_cons.mp (List.perm_middle.mem_iff.mp hm) with rfl | hm
    · obtain ⟨name, hname, -⟩ := h
      exact hnew m htext ⟨name, hname⟩
    · exact hP m hm
  | dropUnknown h => exact hP m (List.perm_middle.mem_iff.mpr (List.mem_cons_of_mem _ hm))
  | addNull htext _ hname =>
    rcases List.mem_cons.mp (List.perm_middle.mem_iff.mp hm) with rfl | hm
    · exact hnew m htext ⟨_, of_decide_eq_true hname⟩
    · exact hP m hm
  | dropNull => exact hP m (List.perm_middle.mem_iff.mpr (List.mem_cons_of_mem _ hm))

/-- One change leaves the record as it is. -/
lemma Relays.ofTree (h : Relays ms ms') (hr : Record.ofTree (.object ms true) = .ok r) :
    Record.ofTree (.object ms' true) = .ok r := by
  obtain ⟨hnames, honce, harray⟩ := Record.ofTree_object_iff.mp hr
  have hvalues : valueOf ms' = valueOf ms := funext fun f => (h.givesSame f (honce f)).2
  rw [Record.ofTree_object_iff, hvalues]
  exact ⟨h.forall_mem (fun _ _ hname => hname) hnames, fun f => (h.givesSame f (honce f)).1, harray⟩

/-- Any number of changes leaves the record as it is, and what they lead to has a text. -/
theorem ofTree_of_relays (h : Relation.ReflTransGen Relays ms ms')
    (htext : Part.HasText (.item (.object ms true)))
    (hr : Record.ofTree (.object ms true) = .ok r) :
    Part.HasText (.item (.object ms' true)) ∧ Record.ofTree (.object ms' true) = .ok r := by
  induction h with
  | refl => exact ⟨htext, hr⟩
  | tail _ hstep ih =>
    rw [hasText_object_iff] at ih ⊢
    exact ⟨hstep.forall_mem (fun _ htext _ => htext) ih.1, hstep.ofTree ih.2⟩

/-- The values that an object gives can be written as an array. -/
lemma hasText_values (htext : Part.HasText (.item (.object ms true))) :
    Part.HasText (.item (.array (Field.all.map (valueOf ms)) true)) := by
  apply hasText_array
  intro t ht
  obtain ⟨f, -, rfl⟩ := List.mem_map.mp ht
  rw [valueOf]
  cases hvalues : valuesOf ms f with
  | nil => exact StandsFor.null.bare
  | cons u rest =>
    have hu : u ∈ valuesOf ms f := hvalues ▸ List.mem_cons_self ..
    obtain ⟨m, hm, rfl⟩ := List.mem_map.mp hu
    obtain ⟨body, hbody⟩ := hasText_object_iff.mp htext m (List.mem_of_mem_filter hm)
    exact hbody.hasText_value

end Admission.Wire

/-! ## Transactions in other layouts -/

namespace Admission.Transaction

open Admission.Json Admission.Wire

/-- The text stands for the tree, by the grammar of JSON. -/
def IsTextOf (text : String) (t : Tree) : Prop :=
  StandsFor text.toList (.item t)

lemma exists_isTextOf {t : Tree} (h : Part.HasText (.item t)) : ∃ text, IsTextOf text t := by
  obtain ⟨text, htext⟩ := h
  refine ⟨String.ofList text, ?_⟩
  rwa [IsTextOf, String.toList_ofList]

/-- A text of a tree is accepted if the tree is a record that spells the transaction. -/
lemma ofJson_eq_ok_iff_of_isTextOf {text : String} {t : Tree} (h : IsTextOf text t)
    {tx : Transaction} : ofJson text = .ok tx ↔ ∃ r, Record.ofTree t = .ok r ∧ r.Spells tx := by
  simp only [ofJson_eq_ok_iff, Record.ofText_eq_ok_iff, ofText_eq_iff.mpr h, true_and]

/-- A text that is no record is refused as such. -/
lemma exists_fault_of_isTextOf {text : String} {t : Tree} (h : IsTextOf text t)
    (hnone : ∀ r, Record.ofTree t ≠ .ok r) : ∃ fault, ofJson text = .error (.json fault) := by
  rw [ofJson]
  cases hrecord : Record.ofText text with
  | error fault => exact ⟨fault, rfl⟩
  | ok r =>
    have htree := (Record.ofText_eq_ok_iff.mp hrecord).2
    rw [ofText_eq_iff.mpr h] at htree
    exact absurd htree (hnone r)

/-- What is accepted does not depend on the layout. If the text of an object is accepted, every
change of its members that keeps the values leads to objects that have texts, all of them accepted
as the same transaction; so has the array of its nine values in the fixed order, with null for those
that are not there. A text of an object that gives a field twice is refused, whatever the values
are. -/
theorem ofJson_layout :
    (∀ text tx ms, IsTextOf text (.object ms true) → ofJson text = .ok tx →
      (∀ ms', Relation.ReflTransGen Relays ms ms' →
        (∃ text', IsTextOf text' (.object ms' true)) ∧
        ∀ text', IsTextOf text' (.object ms' true) → ofJson text' = .ok tx) ∧
      (∃ text', IsTextOf text' (.array (Field.all.map (valueOf ms)) true)) ∧
      ∀ text', IsTextOf text' (.array (Field.all.map (valueOf ms)) true) → ofJson text' = .ok tx) ∧
    ∀ text ms f, IsTextOf text (.object ms true) → 2 ≤ (valuesOf ms f).length →
      ∃ fault, ofJson text = .error (.json fault) := by
  refine ⟨?_, ?_⟩
  · intro text tx ms htext h
    have hhas : Part.HasText (.item (.object ms true)) := ⟨_, htext⟩
    obtain ⟨r, hr, hspells⟩ := (ofJson_eq_ok_iff_of_isTextOf htext).mp h
    refine ⟨fun ms' hrelays => ?_, exists_isTextOf (hasText_values hhas), fun text' htext' => ?_⟩
    · obtain ⟨hhas', hr'⟩ := ofTree_of_relays hrelays hhas hr
      refine ⟨exists_isTextOf hhas', fun text' htext' => ?_⟩
      exact (ofJson_eq_ok_iff_of_isTextOf htext').mpr ⟨r, hr', hspells⟩
    · have harray := (Record.ofTree_object_iff.mp hr).2.2
      exact (ofJson_eq_ok_iff_of_isTextOf htext').mpr ⟨r, harray, hspells⟩
  · intro text ms f htext htwice
    refine exists_fault_of_isTextOf htext fun r hr => ?_
    have honce := (Record.ofTree_object_iff.mp hr).2.1 f
    omega

/-- A text of members as they are written. -/
lemma isTextOf_written {ms : List Member} (hne : ms ≠ []) (h : ∀ m ∈ ms, Writes m.text m.tree) :
    IsTextOf (String.ofList (objectText (ms.map Member.written)))
      (.object (ms.map Member.read) true) := by
  rw [IsTextOf, String.toList_ofList]
  exact ofText_eq_iff.mp (ofText_objectText ms hne h)

/-- A call of mint: with its members the other way round, a note and a null for the owner, as an
array, and with a null for the owner that is there twice. -/
theorem ofJson_layout_of_mint :
    let word := fun (name value : String) =>
      (⟨name, stringText value.toList, .string (writtenOf value.toList)⟩ : Member)
    let id : Member := ⟨"transactionId", Text.Digits.write 7,
      .number ⟨false, Text.Digits.write 7, [], none⟩⟩
    let function := word "functionSignature" "mint()"
    let sender := word "senderAddress" "ab00000000000000000000000000000000000000"
    let note := word "note" "first"
    let owner : Member := ⟨"ownerAddress", "null".toList, .null⟩
    let written := fun (ms : List Member) => String.ofList (objectText (ms.map Member.written))
    let tx : Transaction :=
      ⟨7, ⟨171 :: List.replicate 19 0, rfl⟩, .call "mint()", none, none, none, none⟩
    ofJson (written [id, function, sender]) = .ok tx ∧
      ofJson (written [note, sender, owner, function, id]) = .ok tx ∧
      (∃ text, IsTextOf text (.array [id.tree, function.tree, .null, sender.tree, .null, .null,
        .null, .null, .null] true) ∧ ofJson text = .ok tx) ∧
      ∃ fault, ofJson (written [owner, note, owner]) = .error (.json fault) := by
  intro word id function sender note owner written tx
  have hword : ∀ name value, Writes (word name value).text (word name value).tree :=
    fun _ value => writes_stringText value.toList
  have hid : Writes id.text id.tree := writes_write 7
  have howner : Writes owner.text owner.tree := fun _ _ _ => rfl
  have htext := @isTextOf_written [id, function, sender] (by simp)
    (by simp [hid, hword, function, sender])
  have hnoted := @isTextOf_written [note, sender, owner, function, id] (by simp)
    (by simp [hid, howner, hword, note, function, sender])
  have hrepeated := @isTextOf_written [owner, note, owner] (by simp)
    (by simp [howner, hword, note])
  have hread : ofJson (written [id, function, sender]) = .ok tx := by decide +kernel
  have hmembers := hasText_object_iff.mp ⟨_, hnoted⟩
  have hreordered : Relays [id.read, function.read, sender.read]
      [sender.read, function.read, id.read] :=
    .reorder (List.reverse_perm _).symm
  have howner : Relays [sender.read, function.read, id.read]
      [sender.read, owner.read, function.read, id.read] :=
    @Relays.addNull [sender.read] [function.read, id.read] owner.read .ownerAddress
      (hmembers _ (by simp)) rfl (by decide) rfl (by decide)
  have hnote : Relays [sender.read, owner.read, function.read, id.read]
      [note.read, sender.read, owner.read, function.read, id.read] :=
    @Relays.addUnknown [] _ note.read (hmembers _ (by simp))
      ⟨"note".toList, by decide, fun f => by cases f <;> decide⟩
  have hrelays := ((Relation.ReflTransGen.single hreordered).tail howner).tail hnote
  have hvalues : Field.all.map (valueOf [id.read, function.read, sender.read])
      = [id.tree, function.tree, .null, sender.tree, .null, .null, .null, .null, .null] := by cbv
  obtain ⟨haccepted, hrefused⟩ := ofJson_layout
  obtain ⟨hobjects, ⟨array, harray⟩, harrays⟩ := haccepted _ tx _ htext hread
  exact ⟨hread, (hobjects _ hrelays).2 _ hnoted, ⟨array, hvalues ▸ harray, harrays array harray⟩,
    hrefused _ _ .ownerAddress hrepeated (by decide)⟩

end Admission.Transaction
