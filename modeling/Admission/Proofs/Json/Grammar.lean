import Admission.Proofs.Json.Object

/-!
# The grammar of JSON texts

Which texts stand for what, told without the reader: a string is a row of pieces up to a quote, and
between the tokens of arrays, objects and whole texts there may be separators (`StandsFor`). The
reader takes exactly these texts: what stands for something is read as that (`StandsFor.readAs`),
and whatever is read stands for what it is read as (`sound`), so a whole text says a tree if and
only if it stands for it (`ofText_eq_iff`).
-/

namespace Admission.Json

open Admission.Text

/-! ## Separators -/

/-- Separators and nothing else. -/
def Blank (text : List Char) : Prop :=
  ∀ c ∈ text, isSeparator c = true

lemma Blank.nil : Blank [] := fun _ hc => nomatch hc

lemma Blank.skipBlank_append {blank : List Char} (h : Blank blank) (text : List Char) :
    skipBlank (blank ++ text) = skipBlank text :=
  List.dropWhile_append_of_pos h

/-- What is skipped are separators. -/
lemma exists_blank_append (text : List Char) :
    ∃ blank, Blank blank ∧ text = blank ++ skipBlank text :=
  ⟨text.takeWhile isSeparator, fun _ hc => List.mem_takeWhile_imp hc,
    List.takeWhile_append_dropWhile.symm⟩

/-- No separator goes on with a numeral. -/
lemma Blank.endsNumeral_append {blank tail : List Char} (h : Blank blank)
    (htail : EndsNumeral tail) : EndsNumeral (blank ++ tail) := by
  cases blank with
  | nil => exact htail
  | cons c blank =>
    have hc : isSeparator c = true := h c (List.mem_cons_self ..)
    simp only [isSeparator, Bool.or_eq_true, beq_iff_eq] at hc
    apply endsNumeral_cons
    rcases hc with ((rfl | rfl) | rfl) | rfl <;> decide

/-! ## Strings -/

lemma readString_unit {a b c d : Char} {unit : ℕ} (h : unitOf? a b c d = some unit)
    (rest : List Char) :
    readString ('\\' :: 'u' :: a :: b :: c :: d :: rest)
      = (readString rest).map fun read => (.unit unit :: read.1, read.2) := by
  rw [readString, h]

lemma readString_escape {c plain : Char} (h : escape? c = some plain) (rest : List Char) :
    readString ('\\' :: c :: rest)
      = (readString rest).map fun read => (.char plain :: read.1, read.2) := by
  rw [readString, h]
  rintro a b c' d after rfl -
  cases h

lemma readString_plain {c : Char} (hquote : c ≠ '"') (hslash : c ≠ '\\')
    (hcontrol : ¬ c.toNat < 0x20) (rest : List Char) :
    readString (c :: rest) = (readString rest).map fun read => (.char c :: read.1, read.2) := by
  rw [readString, if_neg (by simp [hcontrol, hslash])]
  · exact hquote
  · exact fun _ _ _ _ _ hc _ => hslash hc
  · exact fun _ _ hc _ => hslash hc

/-- A part of a string as it stands between the quotes: a character by itself, by a short escape, or
by four hexadecimal digits. -/
inductive PieceText : List Char → Piece → Prop
  | plain {c : Char} (hquote : c ≠ '"') (hslash : c ≠ '\\') (hcontrol : ¬ c.toNat < 0x20) :
    PieceText [c] (.char c)
  | escape {c plain : Char} (h : escape? c = some plain) : PieceText ['\\', c] (.char plain)
  | unit {a b c d : Char} {unit : ℕ} (h : unitOf? a b c d = some unit) :
    PieceText ['\\', 'u', a, b, c, d] (.unit unit)

/-- A string as it stands after the opening quote, with the closing one. -/
inductive StringText : List Char → Written → Prop
  | close : StringText ['"'] []
  | piece {before rest : List Char} {piece : Piece} {written : Written}
    (hpiece : PieceText before piece) (hrest : StringText rest written) :
    StringText (before ++ rest) (piece :: written)

lemma PieceText.readString {before : List Char} {piece : Piece} (h : PieceText before piece)
    (rest : List Char) :
    readString (before ++ rest) = (readString rest).map fun read => (piece :: read.1, read.2) := by
  cases h with
  | plain hquote hslash hcontrol => exact readString_plain hquote hslash hcontrol rest
  | escape h => exact readString_escape h rest
  | unit h => exact readString_unit h rest

/-- What stands for a string is read as it, whatever follows. -/
lemma StringText.readString {body : List Char} {written : Written} (h : StringText body written)
    (tail : List Char) : readString (body ++ tail) = some (written, tail) := by
  induction h with
  | close => rfl
  | piece hpiece _ ih =>
    rw [List.append_assoc, hpiece.readString, ih]
    rfl

/-- One more piece before what is read as a string. -/
lemma PieceText.exists_stringText {before after rest : List Char} {piece : Piece}
    {written : Written} (hpiece : PieceText before piece)
    (ih : ∀ {written}, Json.readString after = some (written, rest) →
      ∃ body, after = body ++ rest ∧ StringText body written)
    (h : Json.readString (before ++ after) = some (written, rest)) :
    ∃ body, before ++ after = body ++ rest ∧ StringText body written := by
  rw [hpiece.readString, Option.map_eq_some_iff] at h
  obtain ⟨⟨written', rest'⟩, hread, heq⟩ := h
  injection heq with hwritten hrest
  subst hwritten hrest
  obtain ⟨body, rfl, hbody⟩ := ih hread
  exact ⟨before ++ body, (List.append_assoc ..).symm, .piece hpiece hbody⟩

/-- What is read as a string stands for it. -/
lemma exists_stringText {text rest : List Char} {written : Written}
    (h : readString text = some (written, rest)) :
    ∃ body, text = body ++ rest ∧ StringText body written := by
  induction text using readString.induct generalizing written with
  | case1 => cases h
  | case2 after =>
    rw [readString] at h
    injection h with h
    injection h with hwritten hrest
    rw [← hwritten, ← hrest]
    exact ⟨['"'], rfl, .close⟩
  | case3 a b c d after hunit =>
    rw [readString, hunit] at h
    cases h
  | case4 a b c d after unit hunit ih => exact (PieceText.unit hunit).exists_stringText ih h
  | case5 c after hnot hescape =>
    rw [readString, hescape] at h
    · cases h
    · exact hnot
  | case6 c after hnot plain hescape ih => exact (PieceText.escape hescape).exists_stringText ih h
  | case7 c after hquote hunit hescape hrefused =>
    rw [readString, if_pos hrefused] at h
    · cases h
    · exact hquote
    · exact hunit
    · exact hescape
  | case8 c after hquote hunit hescape hallowed ih =>
    obtain ⟨hcontrol, hslash⟩ := not_or.mp hallowed
    exact (PieceText.plain hquote hslash hcontrol).exists_stringText ih h

/-! ## Values -/

/-- What a text may stand for: a value, a value with the separators around it, a member of an
object, and the items and members that stand between brackets and braces. -/
inductive Part where
  | value (t : Tree)
  | item (t : Tree)
  | member (m : Written × Tree)
  | items (ts : List Tree)
  | members (ms : List (Written × Tree))

/-- The texts of the grammar, and what they stand for. -/
inductive StandsFor : List Char → Part → Prop
  | null : StandsFor ['n', 'u', 'l', 'l'] (.value .null)
  | true : StandsFor ['t', 'r', 'u', 'e'] (.value (.boolean true))
  | false : StandsFor ['f', 'a', 'l', 's', 'e'] (.value (.boolean false))
  | string {body : List Char} {written : Written} (h : StringText body written) :
    StandsFor ('"' :: body) (.value (.string written))
  | number {body : List Char} {n : Numeral} (h : NumeralText body n) :
    StandsFor body (.value (.number n))
  | emptyArray {blank : List Char} (hblank : Blank blank) :
    StandsFor ('[' :: (blank ++ [']'])) (.value (.array [] true))
  | array {body : List Char} {ts : List Tree} (h : StandsFor body (.items ts)) :
    StandsFor ('[' :: (body ++ [']'])) (.value (.array ts true))
  | emptyObject {blank : List Char} (hblank : Blank blank) :
    StandsFor ('\x7b' :: (blank ++ ['\x7d'])) (.value (.object [] true))
  | object {body : List Char} {ms : List (Written × Tree)} (h : StandsFor body (.members ms)) :
    StandsFor ('\x7b' :: (body ++ ['\x7d'])) (.value (.object ms true))
  | item {before body after : List Char} {t : Tree} (hbefore : Blank before)
    (h : StandsFor body (.value t)) (hafter : Blank after) :
    StandsFor (before ++ body ++ after) (.item t)
  | member {before name after body : List Char} {written : Written} {t : Tree}
    (hbefore : Blank before) (hname : StringText name written) (hafter : Blank after)
    (h : StandsFor body (.item t)) :
    StandsFor (before ++ '"' :: name ++ after ++ ':' :: body) (.member (written, t))
  | lastItem {body : List Char} {t : Tree} (h : StandsFor body (.item t)) :
    StandsFor body (.items [t])
  | moreItems {body rest : List Char} {t : Tree} {ts : List Tree} (h : StandsFor body (.item t))
    (hrest : StandsFor rest (.items ts)) : StandsFor (body ++ ',' :: rest) (.items (t :: ts))
  | lastMember {body : List Char} {m : Written × Tree} (h : StandsFor body (.member m)) :
    StandsFor body (.members [m])
  | moreMembers {body rest : List Char} {m : Written × Tree} {ms : List (Written × Tree)}
    (h : StandsFor body (.member m)) (hrest : StandsFor rest (.members ms)) :
    StandsFor (body ++ ',' :: rest) (.members (m :: ms))

/-! ### Texts of the grammar are read -/

/-- A text that is read as a value wherever one may stand. -/
structure ReadAsValue (text : List Char) (t : Tree) : Prop where
  opens : ∃ c rest, text = c :: rest ∧ isSeparator c = false ∧ c ≠ ']'
  -- A bracket and a list behind it spend one step each, hence two for each character.
  readValue : ∀ fuel tail, 2 * text.length ≤ fuel → EndsNumeral tail →
    readValue (fuel + 1) (text ++ tail) = (t, some tail)

/-- A text that is read as a value, up to the separators that follow it. -/
structure ReadAsItem (text : List Char) (t : Tree) : Prop where
  opens : ∀ tail, ∃ c after, skipBlank (text ++ tail) = c :: after ∧ c ≠ ']'
  readValue : ∀ fuel tail, 2 * text.length ≤ fuel → EndsNumeral tail →
    ∃ rest, readValue (fuel + 1) (text ++ tail) = (t, some rest) ∧ skipBlank rest = skipBlank tail

/-- A text that is read as a name, a colon and a value, up to the separators that follow it. -/
structure ReadAsMember (text : List Char) (m : Written × Tree) : Prop where
  readName : ∀ tail, ∃ after, skipBlank (text ++ tail) = '"' :: after ∧
    ∃ rest, readString after = some (m.1, rest) ∧ ∃ value, skipBlank rest = ':' :: value ∧
      ∀ fuel, 2 * text.length ≤ fuel → EndsNumeral tail →
        ∃ rest, readValue (fuel + 1) value = (m.2, some rest) ∧ skipBlank rest = skipBlank tail

/-- A text that is read as the items before a closing bracket. -/
structure ReadAsItems (text : List Char) (ts : List Tree) : Prop where
  opens : ∀ tail, ∃ c after, skipBlank (text ++ tail) = c :: after ∧ c ≠ ']'
  readItems : ∀ fuel tail, 2 * text.length < fuel →
    readItems (fuel + 1) (text ++ ']' :: tail) = (ts, some tail)

/-- A text that is read as the members before a closing brace. -/
structure ReadAsMembers (text : List Char) (ms : List (Written × Tree)) : Prop where
  opens : ∀ tail, ∃ after, skipBlank (text ++ tail) = '"' :: after
  readMembers : ∀ fuel tail, 2 * text.length < fuel →
    readMembers (fuel + 1) (text ++ '\x7d' :: tail) = (ms, some tail)

/-- A text that is read as a part. -/
def ReadAs (text : List Char) : Part → Prop
  | .value t => ReadAsValue text t
  | .item t => ReadAsItem text t
  | .member m => ReadAsMember text m
  | .items ts => ReadAsItems text ts
  | .members ms => ReadAsMembers text ms

/-- Separators before a value are skipped. -/
lemma readValue_append_blank {blank : List Char} (h : Blank blank) (fuel : ℕ) (text : List Char) :
    readValue (fuel + 1) (blank ++ text) = readValue (fuel + 1) text := by
  rw [readValue, readValue, h.skipBlank_append]

section Parts

variable {body rest before after name : List Char} {t : Tree} {m : Written × Tree}

lemma readAs_string {written : Written} (h : StringText body written) :
    ReadAsValue ('"' :: body) (.string written) := by
  refine ⟨⟨'"', body, rfl, rfl, by decide⟩, ?_⟩
  intro fuel tail _ _
  rw [List.cons_append, readValue, skipBlank_cons rfl]
  simp only [h.readString tail, scalar]

lemma readAs_number {n : Numeral} (h : NumeralText body n) : ReadAsValue body (.number n) := by
  have hread := h.readNumeral endsNumeral_nil
  rw [List.append_nil] at hread
  obtain ⟨c, rest, hopen, hc⟩ := exists_cons_of_readNumeral hread
  refine ⟨⟨c, rest, hopen, ?_⟩,
    fun fuel tail _ htail => readValue_numeral fuel (h.readNumeral htail)⟩
  -- A numeral opens with a minus or a digit, and neither is a separator or a bracket.
  rcases hc with rfl | hdigit
  · decide
  · have hne : ∀ d : Char, d.isDigit = false → c ≠ d := fun _ => ne_of_isDigit hdigit
    simp [isSeparator, hne ' ' rfl, hne '\n' rfl, hne '\t' rfl, hne '\r' rfl, hne ']' rfl]

lemma readAs_emptyArray (h : Blank before) :
    ReadAsValue ('[' :: (before ++ [']'])) (.array [] true) := by
  refine ⟨⟨'[', _, rfl, rfl, by decide⟩, ?_⟩
  intro fuel tail _ _
  have hskip : skipBlank (before ++ [']'] ++ tail) = ']' :: tail := by
    rw [List.append_assoc, h.skipBlank_append]
    exact skipBlank_cons rfl _
  rw [List.cons_append, readValue, skipBlank_cons rfl]
  simp only [hskip]

lemma readAs_array {ts : List Tree} (h : ReadAsItems body ts) :
    ReadAsValue ('[' :: (body ++ [']'])) (.array ts true) := by
  refine ⟨⟨'[', _, rfl, rfl, by decide⟩, ?_⟩
  intro fuel tail hfuel _
  simp only [List.length_cons, List.length_append, List.length_nil] at hfuel
  obtain ⟨fuel, rfl⟩ : ∃ k, fuel = k + 1 := ⟨fuel - 1, by omega⟩
  have hitems := h.readItems fuel tail (by omega)
  obtain ⟨c, after, hskip, hc⟩ := h.opens (']' :: tail)
  rw [List.cons_append, List.append_assoc, List.singleton_append, readValue, skipBlank_cons rfl]
  simp only [hskip, hitems]
  split
  · rename_i heq
    injection heq with hbracket
    exact absurd hbracket hc
  · rfl

lemma readAs_emptyObject (h : Blank before) :
    ReadAsValue ('\x7b' :: (before ++ ['\x7d'])) (.object [] true) := by
  refine ⟨⟨'\x7b', _, rfl, rfl, by decide⟩, ?_⟩
  intro fuel tail _ _
  have hskip : skipBlank (before ++ ['\x7d'] ++ tail) = '\x7d' :: tail := by
    rw [List.append_assoc, h.skipBlank_append]
    exact skipBlank_cons rfl _
  rw [List.cons_append, readValue, skipBlank_cons rfl]
  simp only [hskip]

lemma readAs_object {ms : List (Written × Tree)} (h : ReadAsMembers body ms) :
    ReadAsValue ('\x7b' :: (body ++ ['\x7d'])) (.object ms true) := by
  refine ⟨⟨'\x7b', _, rfl, rfl, by decide⟩, ?_⟩
  intro fuel tail hfuel _
  simp only [List.length_cons, List.length_append, List.length_nil] at hfuel
  obtain ⟨fuel, rfl⟩ : ∃ k, fuel = k + 1 := ⟨fuel - 1, by omega⟩
  have hmembers := h.readMembers fuel tail (by omega)
  obtain ⟨after, hskip⟩ := h.opens ('\x7d' :: tail)
  rw [List.cons_append, List.append_assoc, List.singleton_append, readValue, skipBlank_cons rfl]
  simp only [hskip, hmembers]
  rfl

lemma readAs_item (hbefore : Blank before) (h : ReadAsValue body t) (hafter : Blank after) :
    ReadAsItem (before ++ body ++ after) t := by
  constructor
  · intro tail
    obtain ⟨c, rest, rfl, hc, hbracket⟩ := h.opens
    refine ⟨c, rest ++ (after ++ tail), ?_, hbracket⟩
    rw [List.append_assoc, List.append_assoc, hbefore.skipBlank_append]
    exact skipBlank_cons hc _
  · intro fuel tail hfuel htail
    simp only [List.length_append] at hfuel
    refine ⟨after ++ tail, ?_, hafter.skipBlank_append tail⟩
    rw [List.append_assoc, List.append_assoc, readValue_append_blank hbefore]
    exact h.readValue fuel _ (by omega) (hafter.endsNumeral_append htail)

lemma readAs_member {written : Written} (hbefore : Blank before) (hname : StringText name written)
    (hafter : Blank after) (h : ReadAsItem body t) :
    ReadAsMember (before ++ '"' :: name ++ after ++ ':' :: body) (written, t) := by
  constructor
  intro tail
  have htext : before ++ '"' :: name ++ after ++ ':' :: body ++ tail
      = before ++ '"' :: (name ++ (after ++ ':' :: (body ++ tail))) := by
    simp
  refine ⟨name ++ (after ++ ':' :: (body ++ tail)), ?_, _, hname.readString _, body ++ tail, ?_, ?_⟩
  · rw [htext, hbefore.skipBlank_append]
    exact skipBlank_cons rfl _
  · rw [hafter.skipBlank_append]
    exact skipBlank_cons rfl _
  · intro fuel hfuel htail
    simp only [List.length_append, List.length_cons] at hfuel
    exact h.readValue fuel tail (by omega) htail

lemma readAs_lastItem (h : ReadAsItem body t) : ReadAsItems body [t] := by
  refine ⟨h.opens, ?_⟩
  intro fuel tail hfuel
  obtain ⟨fuel, rfl⟩ : ∃ k, fuel = k + 1 := ⟨fuel - 1, by omega⟩
  obtain ⟨after, hvalue, hskip⟩ :=
    h.readValue fuel (']' :: tail) (by omega) (endsNumeral_cons (by decide) tail)
  rw [readItems]
  simp only [hvalue]
  rw [hskip, skipBlank_cons rfl]
  rfl

lemma readAs_moreItems {ts : List Tree} (h : ReadAsItem body t) (hrest : ReadAsItems rest ts) :
    ReadAsItems (body ++ ',' :: rest) (t :: ts) := by
  constructor
  · intro tail
    rw [List.append_assoc]
    exact h.opens _
  · intro fuel tail hfuel
    simp only [List.length_append, List.length_cons] at hfuel
    obtain ⟨fuel, rfl⟩ : ∃ k, fuel = k + 1 := ⟨fuel - 1, by omega⟩
    obtain ⟨after, hvalue, hskip⟩ := h.readValue fuel (',' :: (rest ++ ']' :: tail)) (by omega)
      (endsNumeral_cons (by decide) _)
    have hitems := hrest.readItems fuel tail (by omega)
    rw [List.append_assoc, List.cons_append, readItems]
    simp only [hvalue]
    rw [hskip, skipBlank_cons rfl]
    simp only [hitems]

lemma readAs_lastMember (h : ReadAsMember body m) : ReadAsMembers body [m] := by
  constructor
  · intro tail
    obtain ⟨after, hopen, -⟩ := h.readName tail
    exact ⟨after, hopen⟩
  · intro fuel tail hfuel
    obtain ⟨fuel, rfl⟩ : ∃ k, fuel = k + 1 := ⟨fuel - 1, by omega⟩
    obtain ⟨after, hopen, rest, hname, value, hcolon, hvalue⟩ := h.readName ('\x7d' :: tail)
    obtain ⟨rest', hvalue, hskip⟩ :=
      hvalue fuel (by omega) (endsNumeral_cons (by decide) tail)
    rw [readMembers, hopen]
    simp only [hname]
    rw [hcolon]
    simp only [hvalue]
    rw [hskip, skipBlank_cons rfl]
    rfl

lemma readAs_moreMembers {ms : List (Written × Tree)} (h : ReadAsMember body m)
    (hrest : ReadAsMembers rest ms) : ReadAsMembers (body ++ ',' :: rest) (m :: ms) := by
  constructor
  · intro tail
    obtain ⟨after, hopen, -⟩ := h.readName (',' :: (rest ++ tail))
    rw [List.append_assoc]
    exact ⟨after, hopen⟩
  · intro fuel tail hfuel
    simp only [List.length_append, List.length_cons] at hfuel
    obtain ⟨fuel, rfl⟩ : ∃ k, fuel = k + 1 := ⟨fuel - 1, by omega⟩
    obtain ⟨after, hopen, rest', hname, value, hcolon, hvalue⟩ :=
      h.readName (',' :: (rest ++ '\x7d' :: tail))
    obtain ⟨rest'', hvalue, hskip⟩ :=
      hvalue fuel (by omega) (endsNumeral_cons (by decide) _)
    have hmembers := hrest.readMembers fuel tail (by omega)
    rw [List.append_assoc, List.cons_append, readMembers, hopen]
    simp only [hname]
    rw [hcolon]
    simp only [hvalue]
    rw [hskip, skipBlank_cons rfl]
    simp only [hmembers]

end Parts

/-- What stands for a part is read as it. -/
theorem StandsFor.readAs {text : List Char} {part : Part} (h : StandsFor text part) :
    ReadAs text part := by
  induction h with
  | null => exact ⟨⟨'n', _, rfl, rfl, by decide⟩, fun _ _ _ _ => rfl⟩
  | true => exact ⟨⟨'t', _, rfl, rfl, by decide⟩, fun _ _ _ _ => rfl⟩
  | false => exact ⟨⟨'f', _, rfl, rfl, by decide⟩, fun _ _ _ _ => rfl⟩
  | string h => exact readAs_string h
  | number h => exact readAs_number h
  | emptyArray hblank => exact readAs_emptyArray hblank
  | array _ ih => exact readAs_array ih
  | emptyObject hblank => exact readAs_emptyObject hblank
  | object _ ih => exact readAs_object ih
  | item hbefore _ hafter ih => exact readAs_item hbefore ih hafter
  | member hbefore hname hafter _ ih => exact readAs_member hbefore hname hafter ih
  | lastItem _ ih => exact readAs_lastItem ih
  | moreItems _ _ ih ihrest => exact readAs_moreItems ih ihrest
  | lastMember _ ih => exact readAs_lastMember ih
  | moreMembers _ _ ih ihrest => exact readAs_moreMembers ih ihrest

/-! ### What is read is a text of the grammar -/

/-- With this fuel, what is read stands for what it is read as. -/
structure Sound (fuel : ℕ) : Prop where
  value : ∀ {text t rest}, readValue fuel text = (t, some rest) →
    ∃ before body, Blank before ∧ text = before ++ body ++ rest ∧ StandsFor body (.value t)
  items : ∀ {text ts rest}, readItems fuel text = (ts, some rest) →
    ∃ body, text = body ++ ']' :: rest ∧ StandsFor body (.items ts)
  members : ∀ {text ms rest}, readMembers fuel text = (ms, some rest) →
    ∃ body, text = body ++ '\x7d' :: rest ∧ StandsFor body (.members ms)

variable {fuel : ℕ} {text rest : List Char}

/-- A value, with the separators before the token that follows it. -/
lemma Sound.item (ih : Sound fuel) {t : Tree} {after : List Char} {token : Char}
    (h : readValue fuel text = (t, some after)) (htoken : skipBlank after = token :: rest) :
    ∃ body, text = body ++ token :: rest ∧ StandsFor body (.item t) := by
  obtain ⟨before, body, hbefore, rfl, hbody⟩ := ih.value h
  obtain ⟨blank, hblank, hafter⟩ := exists_blank_append after
  refine ⟨before ++ body ++ blank, ?_, .item hbefore hbody hblank⟩
  rw [← htoken, List.append_assoc _ blank, ← hafter]

lemma Sound.value_succ (ih : Sound fuel) {t : Tree}
    (h : readValue (fuel + 1) text = (t, some rest)) :
    ∃ before body, Blank before ∧ text = before ++ body ++ rest ∧ StandsFor body (.value t) := by
  obtain ⟨before, hbefore, htext⟩ := exists_blank_append text
  suffices hbody : ∃ body, skipBlank text = body ++ rest ∧ StandsFor body (.value t) by
    obtain ⟨body, hskip, hbody⟩ := hbody
    refine ⟨before, body, hbefore, ?_, hbody⟩
    rw [List.append_assoc, ← hskip, ← htext]
  clear htext hbefore before
  rw [readValue] at h
  -- One case for each character that a value may open with, and the last one for numerals.
  split at h
  · rename_i hskip
    cases h
    exact ⟨_, hskip, .null⟩
  · rename_i hskip
    cases h
    exact ⟨_, hskip, .true⟩
  · rename_i hskip
    cases h
    exact ⟨_, hskip, .false⟩
  · rename_i after hskip
    rw [hskip]
    cases hstring : readString after with
    | none =>
      rw [hstring] at h
      cases h
    | some read =>
      rw [hstring] at h
      cases h
      obtain ⟨body, rfl, hbody⟩ := exists_stringText hstring
      exact ⟨'"' :: body, rfl, .string hbody⟩
  · rename_i after hskip
    rw [hskip]
    split at h
    · rename_i after' hbracket
      cases h
      obtain ⟨blank, hblank, hafter⟩ := exists_blank_append after
      refine ⟨'[' :: (blank ++ [']']), ?_, .emptyArray hblank⟩
      rw [hafter, hbracket]
      simp
    · cases hitems : readItems fuel after with
      | mk ts after' =>
        rw [hitems] at h
        cases h
        obtain ⟨body, rfl, hbody⟩ := ih.items hitems
        exact ⟨'[' :: (body ++ [']']), by simp, .array hbody⟩
  · rename_i after hskip
    rw [hskip]
    split at h
    · rename_i after' hbrace
      cases h
      obtain ⟨blank, hblank, hafter⟩ := exists_blank_append after
      refine ⟨'\x7b' :: (blank ++ ['\x7d']), ?_, .emptyObject hblank⟩
      rw [hafter, hbrace]
      simp
    · cases hmembers : readMembers fuel after with
      | mk ms after' =>
        rw [hmembers] at h
        cases h
        obtain ⟨body, rfl, hbody⟩ := ih.members hmembers
        exact ⟨'\x7b' :: (body ++ ['\x7d']), by simp, .object hbody⟩
  · cases hnumeral : readNumeral (skipBlank text) with
    | none =>
      rw [hnumeral] at h
      cases h
    | some read =>
      rw [hnumeral] at h
      cases h
      obtain ⟨body, hskip, hbody⟩ := exists_numeralText hnumeral
      exact ⟨body, hskip, .number hbody⟩

lemma Sound.items_succ (ih : Sound fuel) {ts : List Tree}
    (h : readItems (fuel + 1) text = (ts, some rest)) :
    ∃ body, text = body ++ ']' :: rest ∧ StandsFor body (.items ts) := by
  rw [readItems] at h
  split at h
  · cases h
  · rename_i item after hvalue
    split at h
    · rename_i after' hcomma
      obtain ⟨body, rfl, hbody⟩ := ih.item hvalue hcomma
      cases hitems : readItems fuel after' with
      | mk ts' after'' =>
        rw [hitems] at h
        cases h
        obtain ⟨more, rfl, hmore⟩ := ih.items hitems
        exact ⟨body ++ ',' :: more, by simp, .moreItems hbody hmore⟩
    · rename_i after' hbracket
      cases h
      obtain ⟨body, rfl, hbody⟩ := ih.item hvalue hbracket
      exact ⟨body, rfl, .lastItem hbody⟩
    · cases h

lemma Sound.members_succ (ih : Sound fuel) {ms : List (Written × Tree)}
    (h : readMembers (fuel + 1) text = (ms, some rest)) :
    ∃ body, text = body ++ '\x7d' :: rest ∧ StandsFor body (.members ms) := by
  obtain ⟨before, hbefore, htext⟩ := exists_blank_append text
  rw [readMembers] at h
  split at h
  · rename_i after hquote
    rw [htext, hquote]
    clear htext hquote
    split at h
    · cases h
    · rename_i name after hname
      obtain ⟨nameText, rfl, hnameText⟩ := exists_stringText hname
      obtain ⟨blank, hblank, hafter⟩ := exists_blank_append after
      split at h
      · rename_i after' hcolon
        rw [hafter, hcolon]
        clear hafter hcolon
        split at h
        · cases h
        · rename_i value after'' hvalue
          split at h
          · rename_i after₃ hcomma
            obtain ⟨body, rfl, hbody⟩ := ih.item hvalue hcomma
            cases hmembers : readMembers fuel after₃ with
            | mk ms' after₄ =>
              rw [hmembers] at h
              cases h
              obtain ⟨more, rfl, hmore⟩ := ih.members hmembers
              exact ⟨_, by simp, .moreMembers (.member hbefore hnameText hblank hbody) hmore⟩
          · rename_i after₃ hbrace
            cases h
            obtain ⟨body, rfl, hbody⟩ := ih.item hvalue hbrace
            exact ⟨_, by simp, .lastMember (.member hbefore hnameText hblank hbody)⟩
          · cases h
      · cases h
  · cases h

/-- Whatever is read stands for what it is read as. -/
theorem sound (fuel : ℕ) : Sound fuel := by
  induction fuel with
  | zero =>
    -- Without fuel nothing is read to its end.
    constructor
    · intro text t rest h
      cases h
    · intro text ts rest h
      cases h
    · intro text ms rest h
      cases h
  | succ fuel ih => exact ⟨ih.value_succ, ih.items_succ, ih.members_succ⟩

/-! ## Whole texts -/

/-- A whole text says a tree if and only if it stands for it. -/
theorem ofText_eq_iff {t : Tree} :
    Document.ofText text = ⟨t, true⟩ ↔ StandsFor text (.item t) := by
  constructor
  · intro h
    unfold Document.ofText at h
    cases htree : readTree text with
    | mk root after =>
      rw [htree] at h
      cases after with
      | none => cases h
      | some rest =>
        injection h with hroot hended
        obtain ⟨before, body, hbefore, rfl, hbody⟩ := (sound _).value htree
        -- The text has ended, so what follows the value are separators.
        obtain ⟨blank, hblank, hafter⟩ := exists_blank_append rest
        rw [of_decide_eq_true hended, List.append_nil] at hafter
        rw [← hroot, hafter]
        exact .item hbefore hbody hblank
  · intro h
    obtain ⟨rest, hread, hrest⟩ :=
      h.readAs.readValue (2 * text.length + 1) [] (by omega) endsNumeral_nil
    rw [List.append_nil] at hread
    rw [Document.ofText, readTree, hread]
    show (⟨t, decide (skipBlank rest = [])⟩ : Document) = ⟨t, true⟩
    rw [hrest]
    rfl

/-- Separators at the end of a text say nothing. -/
lemma StandsFor.append_blank {blank : List Char} {t : Tree} (h : StandsFor text (.item t))
    (hblank : Blank blank) : StandsFor (text ++ blank) (.item t) := by
  cases h with
  | item hbefore h hafter =>
    rw [List.append_assoc]
    refine .item hbefore h fun c hc => ?_
    exact (List.mem_append.mp hc).elim (hafter c) (hblank c)

/-! ## Texts put together -/

/-- Some text stands for the part. -/
def Part.HasText (part : Part) : Prop :=
  ∃ text, StandsFor text part

lemma StandsFor.hasText_value {body : List Char} {m : Written × Tree}
    (h : StandsFor body (.member m)) : Part.HasText (.item m.2) := by
  cases h with
  | member _ _ _ hvalue => exact ⟨_, hvalue⟩

/-- A value without separators around it. -/
lemma StandsFor.bare {body : List Char} {t : Tree} (h : StandsFor body (.value t)) :
    Part.HasText (.item t) :=
  ⟨_, .item Blank.nil h Blank.nil⟩

lemma StandsFor.hasText_member {body : List Char} {ms : List (Written × Tree)}
    (h : StandsFor body (.members ms)) : ∀ m ∈ ms, Part.HasText (.member m) := by
  induction ms generalizing body with
  | nil => exact fun _ hm => nomatch hm
  | cons m ms ih =>
    intro m' hm'
    cases h with
    | lastMember h =>
      rw [List.mem_singleton.mp hm']
      exact ⟨_, h⟩
    | moreMembers h hrest =>
      rcases List.mem_cons.mp hm' with rfl | hm'
      · exact ⟨_, h⟩
      · exact ih hrest m' hm'

/-- Members go one after the other. -/
lemma hasText_members {ms : List (Written × Tree)} (hne : ms ≠ [])
    (h : ∀ m ∈ ms, Part.HasText (.member m)) : Part.HasText (.members ms) := by
  induction ms with
  | nil => exact absurd rfl hne
  | cons m ms ih =>
    obtain ⟨body, hbody⟩ := h m (List.mem_cons_self ..)
    cases ms with
    | nil => exact ⟨body, .lastMember hbody⟩
    | cons next ms =>
      obtain ⟨rest, hrest⟩ :=
        ih (List.cons_ne_nil _ _) fun m' hm' => h m' (List.mem_cons_of_mem m hm')
      exact ⟨_, .moreMembers hbody hrest⟩

/-- Items go one after the other. -/
lemma hasText_items {ts : List Tree} (hne : ts ≠ []) (h : ∀ t ∈ ts, Part.HasText (.item t)) :
    Part.HasText (.items ts) := by
  induction ts with
  | nil => exact absurd rfl hne
  | cons t ts ih =>
    obtain ⟨body, hbody⟩ := h t (List.mem_cons_self ..)
    cases ts with
    | nil => exact ⟨body, .lastItem hbody⟩
    | cons next ts =>
      obtain ⟨rest, hrest⟩ :=
        ih (List.cons_ne_nil _ _) fun t' ht' => h t' (List.mem_cons_of_mem t ht')
      exact ⟨_, .moreItems hbody hrest⟩

/-- An object has a text if and only if its members have. -/
lemma hasText_object_iff {ms : List (Written × Tree)} :
    Part.HasText (.item (.object ms true)) ↔ ∀ m ∈ ms, Part.HasText (.member m) := by
  constructor
  · rintro ⟨text, h⟩
    cases h with
    | item _ h =>
      cases h with
      | emptyObject => exact fun _ hm => nomatch hm
      | object h => exact h.hasText_member
  · intro h
    -- No members are no row of members: the grammar has a text of their own for them.
    by_cases hnil : ms = []
    · rw [hnil]
      exact (StandsFor.emptyObject Blank.nil).bare
    · obtain ⟨body, hbody⟩ := hasText_members hnil h
      exact (StandsFor.object hbody).bare

lemma hasText_array {ts : List Tree} (h : ∀ t ∈ ts, Part.HasText (.item t)) :
    Part.HasText (.item (.array ts true)) := by
  by_cases hnil : ts = []
  · rw [hnil]
    exact (StandsFor.emptyArray Blank.nil).bare
  · obtain ⟨body, hbody⟩ := hasText_items hnil h
    exact (StandsFor.array hbody).bare

end Admission.Json
