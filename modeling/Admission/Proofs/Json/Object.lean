import Admission.Json.Writer
import Admission.Proofs.Json.Numeral

/-!
# Objects read back

What the writer makes of strings, numbers and objects, the reader takes apart again. A text `Writes`
a tree when the tree is read from it wherever a value may stand; strings and finite numbers do
(`writes_stringText`, `exists_writes_numberText`), and an object of members whose values are written
is read as the tree of these members (`ofText_objectText`).
-/

namespace Admission.Json

open Admission.Text Admission.Number

/-! ## Strings -/

/-- The piece that a character is written as: a unit if it has no short escape. -/
def pieceOf (c : Char) : Piece :=
  if c.toNat < 0x20 ∧ c ∉ ['\x08', '\x0c', '\n', '\r', '\t'] then .unit c.toNat else .char c

/-- The pieces that a text is written as. -/
def writtenOf (text : List Char) : Written :=
  text.map pieceOf

/-- Four digits of a control character spell its number. -/
lemma unitOf?_control {n : ℕ} (h : n < 0x20) :
    unitOf? '0' '0' (Nat.digitChar (n / 16)) (Nat.digitChar (n % 16)) = some n := by
  have hhigh := Hex.digit?_digitChar (show n / 16 < 16 by omega)
  have hlow := Hex.digit?_digitChar (show n % 16 < 16 by omega)
  have hzero : Hex.digit? '0' = some 0 := Hex.digit?_digitChar (show 0 < 16 by decide)
  simp only [unitOf?, hhigh, hlow, hzero]
  congr 1
  omega

/-- A written character is read as its piece. -/
lemma readString_escapeChar (c : Char) (rest : List Char) :
    readString (escapeChar c ++ rest)
      = (readString rest).map fun read => (pieceOf c :: read.1, read.2) := by
  by_cases hshort : c ∈ ['"', '\\', '\x08', '\x0c', '\n', '\r', '\t']
  · -- The seven characters with an escape of one letter.
    simp only [List.mem_cons, List.not_mem_nil, or_false] at hshort
    rcases hshort with rfl | rfl | rfl | rfl | rfl | rfl | rfl <;>
      simp [escapeChar, readString, escape?, pieceOf]
  · simp only [List.mem_cons, List.not_mem_nil, or_false, not_or] at hshort
    obtain ⟨hquote, hslash, hb, hf, hn, hr, ht⟩ := hshort
    by_cases hcontrol : c.toNat < 0x20
    · have hpiece : pieceOf c = .unit c.toNat := by
        rw [pieceOf, if_pos ⟨hcontrol, by simp [hb, hf, hn, hr, ht]⟩]
      have hescape : escapeChar c
          = ['\\', 'u', '0', '0', Nat.digitChar (c.toNat / 16), Nat.digitChar (c.toNat % 16)] := by
        simp only [escapeChar, if_neg hquote, if_neg hslash, if_neg hb, if_neg hf, if_neg hn,
          if_neg hr, if_neg ht, if_pos hcontrol]
      rw [hescape, hpiece]
      simp only [List.cons_append, List.nil_append, readString, unitOf?_control hcontrol]
    · have hpiece : pieceOf c = .char c := by
        rw [pieceOf, if_neg fun h => hcontrol h.1]
      have hescape : escapeChar c = [c] := by
        simp only [escapeChar, if_neg hquote, if_neg hslash, if_neg hb, if_neg hf, if_neg hn,
          if_neg hr, if_neg ht, if_neg hcontrol]
      rw [hescape, hpiece, List.singleton_append, readString]
      · rw [if_neg (by simp [hcontrol, hslash])]
      · exact hquote
      · exact fun a b d e after hc _ => hslash hc
      · exact fun d after hc _ => hslash hc

/-- A written text is read as its pieces, up to the quote that closes it. -/
theorem readString_flatMap (text rest : List Char) :
    readString (text.flatMap escapeChar ++ '"' :: rest) = some (writtenOf text, rest) := by
  induction text with
  | nil => rw [List.flatMap_nil, List.nil_append, readString, writtenOf, List.map_nil]
  | cons c text ih =>
    rw [List.flatMap_cons, List.append_assoc, readString_escapeChar, ih]
    rfl

/-- A piece stands for its character. -/
lemma textOf?_pieceOf_cons (c : Char) (written : Written) :
    textOf? (pieceOf c :: written) = (textOf? written).map (c :: ·) := by
  unfold pieceOf
  split
  · rename_i hcontrol
    have hhigh : isHighSurrogate c.toNat = false := by
      rw [isHighSurrogate, Bool.and_eq_false_iff, decide_eq_false_iff_not]
      omega
    have hlow : isLowSurrogate c.toNat = false := by
      rw [isLowSurrogate, Bool.and_eq_false_iff, decide_eq_false_iff_not]
      omega
    match written with
    | [] => simp [textOf?, hhigh, hlow]
    | .char d :: rest => simp [textOf?, hhigh, hlow]
    | .unit u :: rest => simp [textOf?, hhigh, hlow]
  · rw [textOf?]

/-- The pieces of a text stand for the text. -/
theorem textOf?_writtenOf (text : List Char) : textOf? (writtenOf text) = some text := by
  induction text with
  | nil => rfl
  | cons c text ih =>
    have hstep : writtenOf (c :: text) = pieceOf c :: writtenOf text := rfl
    rw [hstep, textOf?_pieceOf_cons, ih, Option.map_some]

/-! ## Values -/

/-- The tree is read from the text wherever a value may stand. -/
def Writes (text : List Char) (t : Tree) : Prop :=
  ∀ fuel rest, EndsNumeral rest → readValue (fuel + 1) (text ++ rest) = (t, some rest)

/-- A character that is no separator is not skipped. -/
lemma skipBlank_cons {c : Char} (h : isSeparator c = false) (rest : List Char) :
    skipBlank (c :: rest) = c :: rest :=
  List.dropWhile_cons_of_neg (by simp [h])

theorem writes_stringText (text : List Char) :
    Writes (stringText text) (.string (writtenOf text)) := by
  intro fuel rest _
  have htext : stringText text ++ rest = '"' :: (text.flatMap escapeChar ++ '"' :: rest) := by
    simp [stringText]
  rw [htext, readValue, skipBlank_cons rfl]
  simp only [readString_flatMap, scalar]

/-- A numeral opens with a digit or a minus sign. -/
lemma exists_cons_of_readNumeral {text : List Char} {result : Numeral × List Char}
    (h : readNumeral text = some result) :
    ∃ c rest, text = c :: rest ∧ (c = '-' ∨ c.isDigit = true) := by
  cases text with
  | nil => simp [readNumeral, readUnsigned, readWhole, readDigits, splitDigits] at h
  | cons c rest =>
    refine ⟨c, rest, rfl, ?_⟩
    by_cases hminus : c = '-'
    · exact .inl hminus
    · right
      rw [readNumeral] at h
      · by_contra hdigit
        simp [readUnsigned, readWhole, readDigits, splitDigits, hdigit] at h
      · rintro after heq
        injection heq with hc
        exact hminus hc

/-- What is read as a numeral is read as a value. -/
lemma readValue_numeral (fuel : ℕ) {text rest : List Char} {n : Numeral}
    (h : readNumeral text = some (n, rest)) :
    readValue (fuel + 1) text = (.number n, some rest) := by
  obtain ⟨c, tail, rfl, hc⟩ := exists_cons_of_readNumeral h
  have hother : c ≠ 'n' ∧ c ≠ 't' ∧ c ≠ 'f' ∧ c ≠ '"' ∧ c ≠ '[' ∧ c ≠ '{'
      ∧ isSeparator c = false := by
    rcases hc with rfl | hdigit
    · decide
    · have hne : ∀ d : Char, d.isDigit = false → c ≠ d := fun _ => ne_of_isDigit hdigit
      refine ⟨hne _ rfl, hne _ rfl, hne _ rfl, hne _ rfl, hne _ rfl, hne _ rfl, ?_⟩
      simp [isSeparator, hne ' ' rfl, hne '\n' rfl, hne '\t' rfl, hne '\r' rfl]
  obtain ⟨hn, ht, hf, hquote, hbracket, hbrace, hblank⟩ := hother
  rw [readValue, skipBlank_cons hblank]
  split <;> simp_all [scalar]

/-- A finite number writes a numeral that is the number. -/
theorem exists_writes_numberText {x : Binary64} (hx : x.isFinite = true) :
    ∃ n, Writes (numberText x) (.number n) ∧ n.binary? = some x := by
  obtain ⟨n, hread, hbinary⟩ := readNumeral_finiteText (l := numberLayout) (.inl rfl) hx
  exact ⟨n, fun fuel rest hrest => readValue_numeral fuel (hread rest hrest), hbinary⟩

/-- A whole number writes its digits. -/
theorem writes_write (n : ℕ) :
    Writes (Digits.write n) (.number ⟨false, Digits.write n, [], none⟩) := by
  intro fuel rest hrest
  apply readValue_numeral
  apply readNumeral_of_readUnsigned
  have hread : readUnsigned false (Digits.write n ++ fractionPart [] ++ rest)
      = some (⟨false, Digits.write n, [], none⟩, rest) :=
    readUnsigned_plain false (WholePart.write n) rfl hrest
  rwa [fractionPart, List.append_nil] at hread

/-! ## Members -/

/-- A member of an object, by its name and the text and tree of its value. -/
structure Member where
  name : String
  text : List Char
  tree : Tree

namespace Member

/-- The member as it is written. -/
def written (m : Member) : List Char :=
  memberText m.name m.text

/-- The member as it is read. -/
def read (m : Member) : Written × Tree :=
  (writtenOf m.name.toList, m.tree)

/-- A written member opens with the quote of its name. -/
lemma written_append (m : Member) (rest : List Char) :
    m.written ++ rest
      = '"' :: (m.name.toList.flatMap escapeChar ++ '"' :: ':' :: (m.text ++ rest)) := by
  simp [written, memberText, stringText]

end Member

/-- Members are read back up to the brace that closes them, one step for each of them. -/
lemma readMembers_written (ms : List Member) (m : Member) (rest : List Char) {fuel : ℕ}
    (hfuel : ms.length < fuel) (hwrites : ∀ m' ∈ m :: ms, Writes m'.text m'.tree) :
    readMembers (fuel + 1) (List.intercalate [','] ((m :: ms).map Member.written) ++ '}' :: rest)
      = ((m :: ms).map Member.read, some rest) := by
  induction ms generalizing m fuel with
  | nil =>
    obtain ⟨fuel, rfl⟩ : ∃ k, fuel = k + 1 := ⟨fuel - 1, by omega⟩
    have hvalue : Writes m.text m.tree := hwrites m (List.mem_cons_self ..)
    have hend : EndsNumeral ('}' :: rest) := endsNumeral_cons (by decide) rest
    rw [List.map_singleton, List.intercalate_singleton, m.written_append, readMembers,
      skipBlank_cons rfl]
    simp only [readString_flatMap]
    rw [skipBlank_cons rfl]
    simp only [hvalue fuel _ hend]
    rw [skipBlank_cons rfl]
    rfl
  | cons next ms ih =>
    rw [List.length_cons] at hfuel
    obtain ⟨fuel, rfl⟩ : ∃ k, fuel = k + 1 := ⟨fuel - 1, by omega⟩
    have hvalue : Writes m.text m.tree := hwrites m (List.mem_cons_self ..)
    set tail := List.intercalate [','] ((next :: ms).map Member.written) ++ '}' :: rest with htail
    have hrest : readMembers (fuel + 1) tail = ((next :: ms).map Member.read, some rest) :=
      ih next (by omega) fun m' hm' => hwrites m' (List.mem_cons_of_mem m hm')
    have hend : EndsNumeral (',' :: tail) := endsNumeral_cons (by decide) tail
    have htext : List.intercalate [','] ((m :: next :: ms).map Member.written) ++ '}' :: rest
        = m.written ++ ',' :: tail := by
      rw [htail, List.map_cons, List.map_cons, List.intercalate_cons_cons, List.append_assoc,
        List.append_assoc]
      rfl
    rw [htext, m.written_append, readMembers, skipBlank_cons rfl]
    simp only [readString_flatMap]
    rw [skipBlank_cons rfl]
    simp only [hvalue fuel _ hend]
    rw [skipBlank_cons rfl]
    simp only [hrest]
    rfl

/-- Members take up at least a character each. -/
lemma length_le_length_intercalate (ms : List Member) :
    ms.length ≤ (List.intercalate [','] (ms.map Member.written)).length := by
  induction ms with
  | nil => exact Nat.zero_le _
  | cons m ms ih =>
    have hpos : 0 < m.written.length := by
      have htext := m.written_append []
      rw [List.append_nil] at htext
      rw [htext]
      exact Nat.succ_pos _
    cases ms with
    | nil =>
      rw [List.map_singleton, List.intercalate_singleton]
      exact hpos
    | cons next ms =>
      rw [List.map_cons, List.map_cons, List.intercalate_cons_cons]
      rw [List.map_cons] at ih
      simp only [List.length_append, List.length_cons, List.length_nil] at ih ⊢
      omega

/-- An object is read back as the tree of its members, and nothing is left of its text. -/
theorem ofText_objectText (ms : List Member) (hne : ms ≠ [])
    (hwrites : ∀ m ∈ ms, Writes m.text m.tree) :
    Document.ofText (objectText (ms.map Member.written))
      = ⟨.object (ms.map Member.read) true, true⟩ := by
  obtain ⟨m, ms, rfl⟩ := List.exists_cons_of_ne_nil hne
  have hfuel := length_le_length_intercalate (m :: ms)
  rw [List.length_cons] at hfuel
  set text := List.intercalate [','] ((m :: ms).map Member.written) with htext
  have hbody : ∃ after, text ++ ['}'] = '"' :: after := by
    rw [htext]
    cases ms with
    | nil =>
      rw [List.map_singleton, List.intercalate_singleton, m.written_append]
      exact ⟨_, rfl⟩
    | cons next ms =>
      rw [List.map_cons, List.map_cons, List.intercalate_cons_cons, List.append_assoc,
        List.append_assoc, m.written_append]
      exact ⟨_, rfl⟩
  have hmembers : readMembers (2 * (text.length + 2) + 1) (text ++ ['}'])
      = ((m :: ms).map Member.read, some []) :=
    readMembers_written ms m [] (by omega) hwrites
  have htree : readTree (objectText ((m :: ms).map Member.written))
      = (.object ((m :: ms).map Member.read) true, some []) := by
    have hlength : (objectText ((m :: ms).map Member.written)).length = text.length + 2 := by
      simp [objectText, htext]
    have hopen : objectText ((m :: ms).map Member.written) = '{' :: (text ++ ['}']) := rfl
    obtain ⟨after, hafter⟩ := hbody
    rw [readTree, hlength, hopen, readValue, skipBlank_cons rfl]
    simp only [hmembers]
    rw [hafter, skipBlank_cons rfl]
    rfl
  rw [Document.ofText, htree]
  rfl

end Admission.Json
