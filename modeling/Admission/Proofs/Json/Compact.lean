import Admission.Proofs.Json.Grammar

/-!
# Compact texts

Separators between the tokens of a text say nothing. A text is *compact* without them; in strings
they stay. The compact form of a text stands for what the text stands for (`StandsFor.exists_core`),
so a whole text says what its compact form says (`ofText_compact`).
-/

namespace Admission.Json

open Admission.Text

/-! ## Taking separators away -/

/-- The text without separators outside of strings; the flag tells whether it opens inside one. -/
def compactFrom : Bool → List Char → List Char
  | _, [] => []
  | false, c :: rest =>
    if isSeparator c then compactFrom false rest else c :: compactFrom (c == '"') rest
  | true, '"' :: rest => '"' :: compactFrom false rest
  -- What is escaped ends no string.
  | true, '\\' :: c :: rest => '\\' :: c :: compactFrom true rest
  | true, c :: rest => c :: compactFrom true rest

/-- The compact form of a text. -/
def compact (text : List Char) : List Char :=
  compactFrom false text

lemma compact_skipBlank (text : List Char) : compact (skipBlank text) = compact text := by
  induction text with
  | nil => rfl
  | cons c rest ih =>
    by_cases hc : isSeparator c = true
    · have hskip : skipBlank (c :: rest) = skipBlank rest := List.dropWhile_cons_of_pos hc
      rw [hskip, ih, compact, compact, compactFrom, if_pos hc]
    · rw [skipBlank_cons (Bool.not_eq_true _ ▸ hc)]

lemma compact_cons {c : Char} (hc : isSeparator c = false) (hquote : c ≠ '"') (rest : List Char) :
    compact (c :: rest) = c :: compact rest := by
  rw [compact, compactFrom, if_neg (by simp [hc]), beq_eq_false_iff_ne.mpr hquote]
  rfl

/-- Characters that are neither separators nor quotes stay. -/
lemma compact_append {body : List Char} (h : ∀ c ∈ body, isSeparator c = false ∧ c ≠ '"')
    (rest : List Char) : compact (body ++ rest) = body ++ compact rest := by
  induction body with
  | nil => rfl
  | cons c body ih =>
    obtain ⟨hc, hquote⟩ := h c (List.mem_cons_self ..)
    rw [List.cons_append, compact_cons hc hquote, ih fun d hd => h d (List.mem_cons_of_mem c hd)]
    rfl

lemma compact_quote (rest : List Char) : compact ('"' :: rest) = '"' :: compactFrom true rest := by
  rfl

lemma compactFrom_cons {c : Char} (hquote : c ≠ '"') (hslash : c ≠ '\\') (rest : List Char) :
    compactFrom true (c :: rest) = c :: compactFrom true rest := by
  rw [compactFrom]
  · exact hquote
  · intro d after hc
    exact absurd hc hslash

lemma Blank.compact_append {blank : List Char} (h : Blank blank) (rest : List Char) :
    compact (blank ++ rest) = compact rest := by
  rw [← compact_skipBlank, h.skipBlank_append, compact_skipBlank]

/-! ## Strings -/

/-- A digit is no quote and no backslash. -/
lemma plain_of_digit? {c : Char} {value : ℕ} (h : Hex.digit? c = some value) :
    c ≠ '"' ∧ c ≠ '\\' := by
  constructor
  · rintro rfl
    cases h
  · rintro rfl
    cases h

/-- The digits of a unit stay. -/
lemma compactFrom_unit {a b c d : Char} {unit : ℕ} (h : unitOf? a b c d = some unit)
    (rest : List Char) :
    compactFrom true ('\\' :: 'u' :: a :: b :: c :: d :: rest)
      = '\\' :: 'u' :: a :: b :: c :: d :: compactFrom true rest := by
  unfold unitOf? at h
  split at h
  · rename_i ha hb hc hd
    rw [compactFrom, compactFrom_cons (plain_of_digit? ha).1 (plain_of_digit? ha).2,
      compactFrom_cons (plain_of_digit? hb).1 (plain_of_digit? hb).2,
      compactFrom_cons (plain_of_digit? hc).1 (plain_of_digit? hc).2,
      compactFrom_cons (plain_of_digit? hd).1 (plain_of_digit? hd).2]
  · cases h

/-- What stands between quotes stays. -/
lemma PieceText.compactFrom_append {before : List Char} {piece : Piece} (h : PieceText before piece)
    (rest : List Char) : compactFrom true (before ++ rest) = before ++ compactFrom true rest := by
  cases h with
  | plain hquote hslash => exact compactFrom_cons hquote hslash rest
  | escape =>
    show compactFrom true ('\\' :: _ :: rest) = _
    rw [compactFrom]
    rfl
  | unit h => exact compactFrom_unit h rest

lemma StringText.compactFrom_append {body : List Char} {written : Written}
    (h : StringText body written) (rest : List Char) :
    compactFrom true (body ++ rest) = body ++ compact rest := by
  induction h with
  | close => rfl
  | piece hpiece _ ih => rw [List.append_assoc, hpiece.compactFrom_append, ih, List.append_assoc]

/-! ## Values -/

/-- The characters of numerals are neither separators nor quotes. -/
lemma NumeralChar.plain {c : Char} (h : NumeralChar c) : isSeparator c = false ∧ c ≠ '"' := by
  rcases h with h | h
  · have hne : ∀ d : Char, d.isDigit = false → c ≠ d := fun _ => ne_of_isDigit h
    simp [isSeparator, hne ' ' rfl, hne '\n' rfl, hne '\t' rfl, hne '\r' rfl, hne '"' rfl]
  · simp only [List.mem_cons, List.not_mem_nil, or_false] at h
    rcases h with rfl | rfl | rfl | rfl | rfl <;> decide

/-- What a text stands for, its compact form stands for too. -/
theorem StandsFor.exists_core {text : List Char} {part : Part} (h : StandsFor text part) :
    ∃ core, StandsFor core part ∧ ∀ rest, compact (text ++ rest) = core ++ compact rest := by
  induction h with
  | null => exact ⟨_, .null, fun _ => rfl⟩
  | true => exact ⟨_, .true, fun _ => rfl⟩
  | false => exact ⟨_, .false, fun _ => rfl⟩
  | string h =>
    refine ⟨_, .string h, fun rest => ?_⟩
    rw [List.cons_append, compact_quote, h.compactFrom_append]
    rfl
  | number h => exact ⟨_, .number h, compact_append fun c hc => (h.chars c hc).plain⟩
  | emptyArray hblank =>
    refine ⟨_, .emptyArray Blank.nil, fun rest => ?_⟩
    rw [List.cons_append, compact_cons rfl (by decide), List.append_assoc, hblank.compact_append]
    rfl
  | array _ ih =>
    obtain ⟨core, hcore, hcompact⟩ := ih
    refine ⟨_, .array hcore, fun rest => ?_⟩
    rw [List.cons_append, compact_cons rfl (by decide), List.append_assoc, hcompact,
      List.singleton_append, compact_cons rfl (by decide)]
    simp
  | emptyObject hblank =>
    refine ⟨_, .emptyObject Blank.nil, fun rest => ?_⟩
    rw [List.cons_append, compact_cons rfl (by decide), List.append_assoc, hblank.compact_append]
    rfl
  | object _ ih =>
    obtain ⟨core, hcore, hcompact⟩ := ih
    refine ⟨_, .object hcore, fun rest => ?_⟩
    rw [List.cons_append, compact_cons rfl (by decide), List.append_assoc, hcompact,
      List.singleton_append, compact_cons rfl (by decide)]
    simp
  | item hbefore _ hafter ih =>
    obtain ⟨core, hcore, hcompact⟩ := ih
    refine ⟨_, .item Blank.nil hcore Blank.nil, fun rest => ?_⟩
    rw [List.append_assoc, List.append_assoc, hbefore.compact_append, hcompact,
      hafter.compact_append]
    simp
  | member hbefore hname hafter _ ih =>
    obtain ⟨core, hcore, hcompact⟩ := ih
    refine ⟨_, .member Blank.nil hname Blank.nil hcore, fun rest => ?_⟩
    simp only [List.append_assoc, List.cons_append, List.nil_append]
    rw [hbefore.compact_append, compact_quote, hname.compactFrom_append, hafter.compact_append,
      compact_cons rfl (by decide), hcompact]
  | lastItem _ ih =>
    obtain ⟨core, hcore, hcompact⟩ := ih
    exact ⟨core, .lastItem hcore, hcompact⟩
  | moreItems _ _ ih ihrest =>
    obtain ⟨core, hcore, hcompact⟩ := ih
    obtain ⟨more, hmore, hcompact'⟩ := ihrest
    refine ⟨_, .moreItems hcore hmore, fun rest => ?_⟩
    rw [List.append_assoc, hcompact, List.cons_append, compact_cons rfl (by decide), hcompact']
    simp
  | lastMember _ ih =>
    obtain ⟨core, hcore, hcompact⟩ := ih
    exact ⟨core, .lastMember hcore, hcompact⟩
  | moreMembers _ _ ih ihrest =>
    obtain ⟨core, hcore, hcompact⟩ := ih
    obtain ⟨more, hmore, hcompact'⟩ := ihrest
    refine ⟨_, .moreMembers hcore hmore, fun rest => ?_⟩
    rw [List.append_assoc, hcompact, List.cons_append, compact_cons rfl (by decide), hcompact']
    simp

/-! ## Whole texts -/

/-- A whole text says what its compact form says. -/
theorem ofText_compact {text : List Char} (h : (Document.ofText text).ended = true) :
    Document.ofText (compact text) = Document.ofText text := by
  cases hdocument : Document.ofText text with
  | mk t ended =>
    rw [hdocument] at h
    obtain rfl : ended = true := h
    obtain ⟨core, hcore, hcompact⟩ := (ofText_eq_iff.mp hdocument).exists_core
    have htext : compact text = core := by
      simpa [compact, compactFrom] using hcompact []
    rw [htext]
    exact ofText_eq_iff.mpr hcore

end Admission.Json
