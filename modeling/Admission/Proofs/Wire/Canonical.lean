import Admission.Proofs.Json.Compact
import Admission.Proofs.Wire.Members
import Admission.Proofs.Wire.Spelling

/-!
# Canonical texts

Whatever text a transaction is read from, it has one JSON text of its own, its *canonical* text: a
number that is read is finite (`Wire.Record.isFinite_of_ofTree`), so the transaction can be written,
and what is written is read back. Separators, the order of members and the spelling of single values
make no difference to the canonical text, and two transactions have none in common
(`Transaction.canonical_text`).
-/

namespace Admission

open Admission.Number

/-! ## Numbers that are read are finite -/

lemma Number.Binary64.isFinite_of_ofDecimal? {negative : Bool} {d : Decimal} {x : Binary64}
    (h : ofDecimal? negative d = some x) : x.isFinite = true := by
  unfold ofDecimal? at h
  split at h
  · rename_i hlt
    injection h with hx
    have hsmall : d.magnitude < 2 ^ 63 := hlt.trans (by decide)
    rw [← hx, isFinite, magnitude_ofMagnitude negative hsmall]
    exact decide_eq_true hlt
  · cases h

namespace Json

lemma Tree.isFinite_of_asBinary {t : Tree} {x : Binary64} (h : t.asBinary = .ok x) :
    x.isFinite = true := by
  unfold asBinary at h
  split at h
  · split at h
    · rename_i hbinary
      injection h with hx
      rw [← hx]
      exact Binary64.isFinite_of_ofDecimal? hbinary
    · cases h
  · unfold unexpected at h
    split at h <;> cases h

lemma Tree.isFinite_of_asOptional {t : Tree} {value : Option Binary64}
    (h : t.asOptional asBinary = .ok value) : ∀ x ∈ value, x.isFinite = true := by
  intro x hx
  unfold asOptional at h
  split at h
  · injection h with hvalue
    rw [← hvalue] at hx
    cases hx
  · obtain ⟨y, hy, rfl⟩ := map_eq_ok_iff.mp h
    injection hx with hx
    rw [← hx]
    exact isFinite_of_asBinary hy

end Json

namespace Wire

open Admission.Json

/-- The number that a draft holds is finite, if it holds one. -/
def Draft.HoldsFinite (d : Draft) : Prop :=
  ∀ x ∈ d.amount.join, x.isFinite = true

lemma Draft.HoldsFinite.read {d d' : Draft} {f : Field} {t : Tree} (h : d.HoldsFinite)
    (hread : d.read f t = .ok d') : d'.HoldsFinite := by
  cases f with
  | amount =>
    obtain ⟨value, hvalue, rfl⟩ := map_eq_ok_iff.mp hread
    exact Tree.isFinite_of_asOptional hvalue
  | _ =>
    obtain ⟨value, -, rfl⟩ := map_eq_ok_iff.mp hread
    exact h

lemma Draft.amount_of_finish {d : Draft} {missing : Field → Mismatch} {r : Record}
    (h : d.finish missing = .ok r) : r.amount = d.amount.join := by
  unfold finish at h
  split at h
  · cases h
  · cases h
  · injection h with hr
    rw [← hr]

/-- The number of a record that is read is finite. -/
theorem Record.isFinite_of_ofTree {t : Tree} {r : Record} (h : ofTree t = .ok r) :
    ∀ x ∈ r.amount, x.isFinite = true := by
  have hempty : Draft.empty.HoldsFinite := fun x hx => nomatch hx
  unfold ofTree at h
  split at h
  · obtain ⟨draft, hdraft, hfinish⟩ := bind_eq_ok_iff.mp h
    split at hfinish
    · rw [Draft.amount_of_finish hfinish]
      exact Draft.readMembers_keeps Draft.HoldsFinite.read hempty hdraft
    · cases hfinish
  · obtain ⟨draft, hdraft, hfinish⟩ := bind_eq_ok_iff.mp h
    split at hfinish
    · rw [Draft.amount_of_finish hfinish]
      exact Draft.readItems_keeps Draft.HoldsFinite.read hempty hdraft
    · cases hfinish
  · unfold Tree.unexpected at h
    split at h <;> cases h

/-! ## Accepted texts -/

/-- A text of a record is a whole text, and its tree is the record. -/
lemma Record.ofText_eq_ok_iff {text : String} {r : Record} :
    ofText text = .ok r ↔ (Document.ofText text.toList).ended = true ∧
      ofTree (Document.ofText text.toList).root = .ok r := by
  rw [ofText, Document.read, bind_eq_ok_iff]
  constructor
  · rintro ⟨r', hr', h⟩
    split at h
    · rename_i hended
      injection h with hr
      exact ⟨hended, hr ▸ hr'⟩
    · cases h
  · rintro ⟨hended, hr⟩
    exact ⟨r, hr, if_pos hended⟩

end Wire

namespace Transaction

open Admission.Wire

/-- A text is accepted if its record spells the transaction. -/
lemma ofJson_eq_ok_iff {text : String} {tx : Transaction} :
    ofJson text = .ok tx ↔ ∃ r, Record.ofText text = .ok r ∧ r.Spells tx := by
  rw [ofJson]
  cases Record.ofText text with
  | error fault => simp
  | ok r => simp [Record.decode_eq_ok_iff]

/-- An accepted amount of tokens is finite. -/
lemma isFinite_of_ofJson {text : String} {tx : Transaction} (h : ofJson text = .ok tx)
    {a : TokenAmount} (ha : tx.tokenAmount? = some a) : a.value.isFinite = true := by
  obtain ⟨r, hr, hspells⟩ := ofJson_eq_ok_iff.mp h
  apply Record.isFinite_of_ofTree (Record.ofText_eq_ok_iff.mp hr).2
  rw [hspells.amount, ha]
  rfl

variable {text text' : String} {tx tx' : Transaction}

/-- An accepted transaction has a text of its own, and the text is read back as the transaction. -/
lemma exists_canonical (h : ofJson text = .ok tx) :
    ∃ canonical, tx.toJson = .ok canonical ∧ ofJson canonical = .ok tx :=
  exists_ofJson_eq fun _ ha => isFinite_of_ofJson h ha

/-- Different accepted transactions are written differently. -/
lemma eq_of_toJson_eq (h : ofJson text = .ok tx) (h' : ofJson text' = .ok tx')
    (hsame : tx.toJson = tx'.toJson) : tx = tx' := by
  obtain ⟨canonical, hwritten, hread⟩ := exists_canonical h
  obtain ⟨canonical', hwritten', hread'⟩ := exists_canonical h'
  rw [hwritten, hwritten'] at hsame
  rw [Except.ok.inj hsame, hread'] at hread
  exact (Except.ok.inj hread).symm

/-! ## Differences that disappear -/

/-- What a text says is accepted in any other text that says it. -/
lemma ofJson_of_ofText_eq (h : ofJson text = .ok tx)
    (hsame : Json.Document.ofText text'.toList = Json.Document.ofText text.toList) :
    ofJson text' = .ok tx := by
  rw [ofJson, Record.ofText, hsame]
  exact h

/-- The compact form of an accepted text is accepted. -/
lemma ofJson_compact (h : ofJson text = .ok tx) :
    ofJson (String.ofList (Json.compact text.toList)) = .ok tx := by
  obtain ⟨r, hr, -⟩ := ofJson_eq_ok_iff.mp h
  apply ofJson_of_ofText_eq h
  rw [String.toList_ofList]
  exact Json.ofText_compact (Record.ofText_eq_ok_iff.mp hr).1

/-- Accepted texts that differ in separators only are of one transaction. -/
lemma eq_of_compact_eq (h : ofJson text = .ok tx) (h' : ofJson text' = .ok tx')
    (hsame : Json.compact text.toList = Json.compact text'.toList) : tx = tx' := by
  have hread := ofJson_compact h
  rw [hsame, ofJson_compact h'] at hread
  exact (Except.ok.inj hread).symm

/-- Two texts are objects of the same members, each in its order. -/
def Reorders (text text' : String) : Prop :=
  ∃ ms ms', ms.Perm ms' ∧ Json.Document.ofText text.toList = ⟨.object ms true, true⟩ ∧
    Json.Document.ofText text'.toList = ⟨.object ms' true, true⟩

/-- The members of an accepted object may come in any order. -/
lemma ofJson_of_reorders (h : ofJson text = .ok tx) (horder : Reorders text text') :
    ofJson text' = .ok tx := by
  obtain ⟨r, hr, hspells⟩ := ofJson_eq_ok_iff.mp h
  obtain ⟨ms, ms', hperm, htext, htext'⟩ := horder
  have htree := (Record.ofText_eq_ok_iff.mp hr).2
  rw [htext] at htree
  have hr' : Record.ofText text' = .ok r := by
    rw [Record.ofText_eq_ok_iff, htext']
    exact ⟨rfl, Record.ofTree_perm hperm htree⟩
  exact ofJson_eq_ok_iff.mpr ⟨r, hr', hspells⟩

/-! ## Canonical texts -/

/-- Every accepted text has a canonical text: the transaction is written, what is written is read
back, and writing it again gives the same text. Another accepted text has the same canonical text if
and only if it is of the same transaction, which means that its record is spelled differently at
most; separators and the order of members make no difference. -/
theorem canonical_text (h : ofJson text = .ok tx) :
    (∀ a, tx.tokenAmount? = some a → a.value.isFinite = true) ∧
    ∃ canonical, tx.toJson = .ok canonical ∧ ofJson canonical = .ok tx ∧
      (∀ again, ofJson canonical = .ok again → again.toJson = .ok canonical) ∧
      (∀ text' tx', ofJson text' = .ok tx' →
        (tx'.toJson = .ok canonical ↔ tx' = tx) ∧
        (∃ r r', Record.ofText text = .ok r ∧ Record.ofText text' = .ok r' ∧
          (tx'.toJson = .ok canonical ↔ r.Respells r')) ∧
        (Json.compact text.toList = Json.compact text'.toList → tx'.toJson = .ok canonical)) ∧
      ∀ text', Reorders text text' →
        ∃ tx', ofJson text' = .ok tx' ∧ tx'.toJson = .ok canonical := by
  obtain ⟨canonical, hwritten, hread⟩ := exists_canonical h
  have hsame : ∀ text' tx', ofJson text' = .ok tx' → (tx'.toJson = .ok canonical ↔ tx = tx') := by
    intro text' tx' h'
    rw [← hwritten]
    constructor
    · exact fun heq => eq_of_toJson_eq h h' heq.symm
    · rintro rfl
      rfl
  refine ⟨fun a ha => isFinite_of_ofJson h ha, canonical, hwritten, hread, ?_, ?_, ?_⟩
  · intro again hagain
    rw [hread] at hagain
    rw [← Except.ok.inj hagain, hwritten]
  · intro text' tx' h'
    obtain ⟨r, hr, hspells⟩ := ofJson_eq_ok_iff.mp h
    obtain ⟨r', hr', hspells'⟩ := ofJson_eq_ok_iff.mp h'
    refine ⟨(hsame text' tx' h').trans eq_comm, ⟨r, r', hr, hr', ?_⟩, ?_⟩
    · exact (hsame text' tx' h').trans (hspells.eq_iff hspells')
    · exact fun hcompact => (hsame text' tx' h').mpr (eq_of_compact_eq h h' hcompact)
  · intro text' horder
    exact ⟨tx, ofJson_of_reorders h horder, hwritten⟩

/-- One amount and one address in two spellings each, with members in two orders and separators in
one of the texts, and another amount. -/
theorem canonical_text_of_spellings :
    let text := "\x7b \"transactionId\": 7, \"functionSignature\": \"mint()\", \"amount\": 5.0e0,
      \"senderAddress\": \"0XAB00000000000000000000000000000000000000\" \x7d"
    let respelled := "\x7b\"senderAddress\":\"ab00000000000000000000000000000000000000\",\"amount\":5," ++
      "\"functionSignature\":\"mint()\",\"transactionId\":7\x7d"
    let other := "\x7b\"senderAddress\":\"ab00000000000000000000000000000000000000\",\"amount\":-0," ++
      "\"functionSignature\":\"mint()\",\"transactionId\":7\x7d"
    let tx : Transaction := ⟨7, ⟨171 :: List.replicate 19 0, rfl⟩, .call "mint()", none, none,
      some (.token ⟨⟨UInt64.ofNat 0x4014000000000000⟩⟩), none⟩
    let tx' : Transaction := { tx with amount := some (.token ⟨⟨UInt64.ofNat (2 ^ 63)⟩⟩) }
    ofJson text = .ok tx ∧ ofJson respelled = .ok tx ∧ ofJson other = .ok tx' ∧
      ∃ canonical, tx.toJson = .ok canonical ∧ ofJson canonical = .ok tx ∧
        tx'.toJson ≠ .ok canonical := by
  intro text respelled other tx tx'
  have h : ofJson text = .ok tx := by decide +kernel
  have hrespelled : ofJson respelled = .ok tx := by decide +kernel
  have hother : ofJson other = .ok tx' := by decide +kernel
  obtain ⟨-, canonical, hwritten, hread, -, hsame, -⟩ := canonical_text h
  obtain ⟨hiff, -, -⟩ := hsame other tx' hother
  have hne : tx' ≠ tx := by decide +kernel
  exact ⟨h, hrespelled, hother, canonical, hwritten, hread, fun heq => hne (hiff.mp heq)⟩

end Transaction

end Admission
