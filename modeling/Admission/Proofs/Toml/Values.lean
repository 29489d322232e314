import Admission.Proofs.Text.Digits
import Admission.Toml.Writer

/-!
# Values are read from their lines

What stands between double marks is read as the text that it was written from, escape by escape
(`readQuoted_escaped`, `readText_quoted`). The digits of a number are tried as a date, as a time
and as a number with a fraction or a power first; as the line ends behind them, they are none of
these, and are read as the whole number (`readScalar_write`). So either kind of value is read from
its line as it was written (`readValue_toText`).
-/

namespace Admission.Toml

open Admission.Text

-- Powers are those of the core library, also where another instance is in sight.
attribute [local instance (high)] instPowNat

variable {digits rest : List Char} {n : ℕ}

/-! ## Texts between marks -/

/-- What does not print is ASCII, so two hexadecimal digits are enough for it. -/
lemma toNat_lt_of_not_printable {c : Char} (h : isPrintable c ≠ true) : c.toNat < 128 := by
  simp only [isPrintable, ne_eq, Bool.or_eq_true, Bool.and_eq_true, decide_eq_true_eq] at h
  omega

/-- An escaped character is read back, whatever follows. -/
lemma readQuoted_escaped (c : Char) (rest : List Char) :
    readQuoted ⟨'"', false⟩ (.plain false) (escaped c ++ rest)
      = keep c (readQuoted ⟨'"', false⟩ (.plain false) rest) := by
  unfold escaped
  split
  · rename_i hmark
    rcases hmark with rfl | rfl <;> rfl
  · rename_i hplain
    obtain ⟨hquote, hslash⟩ := not_or.mp hplain
    split
    · rename_i hprints
      simp [readQuoted, hquote, hslash, hprints, Marks.admits]
    · rename_i hhidden
      have hlow := toNat_lt_of_not_printable hhidden
      have hbyte : (UInt8.ofNat c.toNat).toNat = c.toNat := by
        rw [UInt8.toNat_ofNat']
        omega
      have hzero : Hex.digit? '0' = some 0 := rfl
      have hhigh : Hex.digit? (Nat.digitChar (c.toNat / 16)) = some (c.toNat / 16) :=
        Hex.digit?_digitChar (by omega)
      have hlast : Hex.digit? (Nat.digitChar (c.toNat % 16)) = some (c.toNat % 16) :=
        Hex.digit?_digitChar (by omega)
      have hvalid : c.toNat.isValidChar := c.valid
      have hchar : charOf? (16 * (c.toNat / 16) + c.toNat % 16) = some c := by
        rw [Nat.div_add_mod, charOf?, if_pos hvalid, Char.ofNat_toNat]
      simp [readQuoted, shortEscape?, Marks.escapes, Hex.pair, hbyte, hzero, hhigh, hlast, hchar]

/-- A text between double marks is read up to the closing one. -/
lemma readLineText_quoted (text rest : List Char) :
    readLineText (quoted text ++ rest) = some (text, rest) := by
  have hread : readQuoted ⟨'"', false⟩ (.plain false) (text.flatMap escaped ++ '"' :: rest)
      = some (text, rest) := by
    induction text with
    | nil => rfl
    | cons c text ih =>
      rw [List.flatMap_cons, List.append_assoc, readQuoted_escaped, ih]
      rfl
  rw [quoted, List.append_assoc, List.singleton_append]
  exact hread

/-- An escaped character does not open with a mark. -/
lemma head?_escaped (c : Char) (rest : List Char) : (escaped c ++ rest).head? ≠ some '"' := by
  unfold escaped
  split
  · simp
  · rename_i hplain
    split
    · simpa using (not_or.mp hplain).1
    · simp

/-- A text between two marks is not taken for one between six, unless a further mark follows. -/
lemma readText_quoted (text : List Char) (hrest : rest.head? ≠ some '"') :
    readText (quoted text ++ rest) = some (text, rest) := by
  rw [← readLineText_quoted text rest]
  apply readText.eq_3
  · intro tail htail
    cases text with
    | nil =>
      simp only [quoted, List.flatMap_nil, List.cons_append, List.nil_append, List.cons.injEq,
        true_and] at htail
      exact hrest (congrArg List.head? htail)
    | cons c text =>
      simp only [quoted, List.flatMap_cons, List.cons_append, List.append_assoc, List.cons.injEq,
        true_and] at htail
      exact head?_escaped c _ (congrArg List.head? htail)
  · exact fun _ h => nomatch h

/-! ## Numbers at the end of a line -/

/-- After a field of digits comes a further digit or the end of the line, and no mark. -/
lemma after?_of_readField (hdigits : Digits.allDigits digits = true) {mark : Char}
    (hmark : mark.isDigit = false) (hline : mark ≠ '\n') {width least most value : ℕ}
    {after : List Char}
    (hread : readField width least most (digits ++ '\n' :: rest) = some (value, after)) :
    after? mark after = none := by
  simp only [readField] at hread
  split at hread
  · rename_i hfield
    obtain ⟨-, rfl⟩ := Prod.mk.inj (Option.some.inj hread)
    have hlength : width ≤ digits.length := by
      -- Otherwise the field would hold the end of the line.
      by_contra hlong
      obtain ⟨m, hm⟩ : ∃ m, width - digits.length = m + 1 := ⟨width - digits.length - 1, by omega⟩
      have hend : '\n' ∈ (digits ++ '\n' :: rest).take width := by
        rw [List.take_append, hm, List.take_succ_cons]
        simp
      exact absurd (Digits.isDigit_of_mem hfield.2.1 hend) (by decide)
    rw [List.drop_append_of_le_length hlength]
    cases hleft : digits.drop width with
    | nil => rw [List.nil_append, after?, if_neg hline.symm]
    | cons c left =>
      have hmem : c ∈ digits := List.mem_of_mem_drop (hleft ▸ List.mem_cons_self)
      have hc : c ≠ mark := ne_of_isDigit (Digits.isDigit_of_mem hdigits hmem) hmark
      rw [List.cons_append, after?, if_neg hc]
  · cases hread

/-- Digits that end their line are no date and no time. -/
lemma readMoment_digits (hdigits : Digits.allDigits digits = true) (rest : List Char) :
    readMoment (digits ++ '\n' :: rest) = none := by
  have hdate : readDate (digits ++ '\n' :: rest) = none := by
    rw [readDate]
    cases hread : readField 4 0 9999 (digits ++ '\n' :: rest) with
    | none => rfl
    | some read =>
      have hafter : after? '-' read.2 = none :=
        after?_of_readField hdigits (by decide) (by decide) hread
      simp [hafter]
  have htime : readTime (digits ++ '\n' :: rest) = none := by
    rw [readTime]
    cases hread : readField 2 0 23 (digits ++ '\n' :: rest) with
    | none => rfl
    | some read =>
      have hafter : after? ':' read.2 = none :=
        after?_of_readField hdigits (by decide) (by decide) hread
      simp [hafter]
  rw [readMoment, hdate, htime]
  rfl

lemma splitDigits_digits (hdigits : Digits.allDigits digits = true) (rest : List Char) :
    splitDigits Char.isDigit (digits ++ '\n' :: rest) = (digits, '\n' :: rest) := by
  induction digits with
  | nil => rfl
  | cons c digits ih =>
    rw [Digits.allDigits, List.all_cons, Bool.and_eq_true] at hdigits
    obtain ⟨hc, hdigits⟩ := hdigits
    rw [List.cons_append, splitDigits.eq_2, if_pos hc, ih hdigits]
    rintro d tail rfl
    exact absurd hc (by decide)

lemma exists_digit_write (n : ℕ) :
    ∃ c tail, Digits.write n = c :: tail ∧ c.isDigit = true := by
  obtain ⟨c, tail, htext⟩ := List.exists_cons_of_ne_nil (Digits.write_ne_nil n)
  exact ⟨c, tail, htext,
    Digits.isDigit_of_mem (Digits.allDigits_write n) (htext ▸ List.mem_cons_self)⟩

/-- A number that is not zero opens with no zero, which would stand alone or mark a base. -/
lemma exists_cons_write (hn : n ≠ 0) : ∃ c tail, Digits.write n = c :: tail ∧ c ≠ '0' := by
  obtain ⟨c, tail, htext⟩ := List.exists_cons_of_ne_nil (Digits.write_ne_nil n)
  have hhead := Digits.head?_write_ne_zero hn
  rw [htext] at hhead
  exact ⟨c, tail, htext, fun hc => hhead (congrArg some hc)⟩

lemma readSign_write (n : ℕ) (rest : List Char) :
    readSign (Digits.write n ++ '\n' :: rest) = (false, Digits.write n ++ '\n' :: rest) := by
  obtain ⟨c, tail, htext, hc⟩ := exists_digit_write n
  rw [htext, List.cons_append]
  apply readSign.eq_3
  · exact fun _ h => ne_of_isDigit hc (by decide) (List.cons.inj h).1
  · exact fun _ h => ne_of_isDigit hc (by decide) (List.cons.inj h).1

/-- A number in base ten is its own whole part. -/
lemma readWhole_write (n : ℕ) (rest : List Char) :
    readWhole (Digits.write n ++ '\n' :: rest) = some (Digits.write n, '\n' :: rest) := by
  by_cases hn : n = 0
  · subst hn
    rfl
  · have hdigits := Digits.allDigits_write n
    obtain ⟨c, tail, htext, hzero⟩ := exists_cons_write hn
    rw [htext, Digits.allDigits, List.all_cons, Bool.and_eq_true] at hdigits
    obtain ⟨hc, htail⟩ := hdigits
    rw [htext, List.cons_append, readWhole.eq_2 _ fun _ h => hzero (List.cons.inj h).1, readDigits,
      if_pos hc, splitDigits_digits htail]

/-- Without a fraction and a power, a number is not binary. -/
lemma readFloat_write (n : ℕ) (rest : List Char) :
    readFloat (Digits.write n ++ '\n' :: rest) = none := by
  have hdecimal : readDecimal (Digits.write n ++ '\n' :: rest) = none := by
    have hfraction : readFraction ('\n' :: rest) = some (none, '\n' :: rest) := rfl
    have hpower : readPower ('\n' :: rest) = some (none, '\n' :: rest) := rfl
    simp [readDecimal, readSign_write, readWhole_write, hfraction, hpower]
  have hspecial : readSpecial (Digits.write n ++ '\n' :: rest) = none := by
    obtain ⟨c, tail, htext, hc⟩ := exists_digit_write n
    rw [readSpecial, readSign_write, htext]
    dsimp only
    split
    · rename_i h
      exact absurd (List.cons.inj h).1 (ne_of_isDigit hc (by decide))
    · rename_i h
      exact absurd (List.cons.inj h).1 (ne_of_isDigit hc (by decide))
    · rfl
  rw [readFloat, hdecimal, hspecial]
  rfl

lemma readTens_write (hn : n < 2 ^ 63) (rest : List Char) :
    readTens (Digits.write n ++ '\n' :: rest) = some ((n : ℤ), '\n' :: rest) := by
  have hword : word? (n : ℤ) = some (n : ℤ) := word?_eq_some_iff.mpr ⟨rfl, by omega, by omega⟩
  rw [readTens, readSign_write]
  dsimp only
  rw [readWhole_write, Option.bind_eq_bind, Option.bind_some]
  dsimp only
  rw [if_neg Bool.false_ne_true, Digits.value_write, hword]
  rfl

lemma readInteger_write (hn : n < 2 ^ 63) (rest : List Char) :
    readInteger (Digits.write n ++ '\n' :: rest) = some ((n : ℤ), '\n' :: rest) := by
  rw [← readTens_write hn]
  by_cases hzero : n = 0
  · subst hzero
    rfl
  · obtain ⟨c, tail, htext, hc⟩ := exists_cons_write hzero
    rw [htext, List.cons_append]
    apply readInteger.eq_4
    · exact fun _ h => hc (List.cons.inj h).1
    · exact fun _ h => hc (List.cons.inj h).1
    · exact fun _ h => hc (List.cons.inj h).1

/-- What is written as a whole number of 63 bits is read as one, and as nothing else. -/
lemma readScalar_write (hn : n < 2 ^ 63) (rest : List Char) :
    readScalar (Digits.write n ++ '\n' :: rest) = some (.integer n, '\n' :: rest) := by
  have hmoment := readMoment_digits (Digits.allDigits_write n) rest
  have hfloat := readFloat_write n rest
  have hinteger := readInteger_write hn rest
  obtain ⟨c, tail, htext, hc⟩ := exists_digit_write n
  rw [htext, List.cons_append] at hmoment hfloat hinteger ⊢
  have hunmarked : readText (c :: (tail ++ '\n' :: rest)) = none := by
    have hquote : c ≠ '"' := ne_of_isDigit hc (by decide)
    have hmark : c ≠ '\'' := ne_of_isDigit hc (by decide)
    rw [readText.eq_3, readLineText.eq_3]
    · exact fun _ h => hquote (List.cons.inj h).1
    · exact fun _ h => hmark (List.cons.inj h).1
    · exact fun _ h => hquote (List.cons.inj h).1
    · exact fun _ h => hmark (List.cons.inj h).1
  rw [readScalar.eq_3, hunmarked, hmoment, hfloat, hinteger]
  · rfl
  · exact fun _ h => ne_of_isDigit hc (by decide) (List.cons.inj h).1
  · exact fun _ h => ne_of_isDigit hc (by decide) (List.cons.inj h).1

/-! ## Values -/

/-- What opens with no bracket and no brace holds no other values. -/
lemma readValue_eq {c : Char} (hlist : c ≠ '[') (hbraced : c ≠ '{') (rest : List Char) :
    readValue (c :: rest) = readScalar (c :: rest) := by
  show readWithin (78 + 1) (c :: rest) = _
  unfold readWithin
  split
  · rename_i h
    exact absurd (List.cons.inj h).1 hlist
  · rename_i h
    exact absurd (List.cons.inj h).1 hbraced
  · rfl

/-- A value is read up to the end of its line. -/
theorem readValue_toText (value : Scalar) (rest : List Char) :
    readValue (skipSpaces (value.toText ++ '\n' :: rest)) = some (value.toNode, '\n' :: rest) := by
  cases value with
  | text value =>
    have htext : readText (quoted value.toList ++ '\n' :: rest)
        = some (value.toList, '\n' :: rest) := readText_quoted value.toList (by simp)
    show readValue (quoted value.toList ++ '\n' :: rest) = _
    rw [quoted, List.cons_append, List.cons_append] at htext ⊢
    rw [readValue_eq (by decide) (by decide), readScalar.eq_3, htext]
    · simp [Scalar.toNode]
    · exact fun _ h => nomatch h
    · exact fun _ h => nomatch h
  | number value =>
    have hread := readScalar_write (n := value.toNat) (by have := value.toNat_lt; omega) rest
    obtain ⟨c, tail, htext, hc⟩ := exists_digit_write value.toNat
    have hspace : isSpace c = false := by
      have hblank : c ≠ ' ' := ne_of_isDigit hc (by decide)
      have htab : c ≠ '\t' := ne_of_isDigit hc (by decide)
      simp [isSpace, hblank, htab]
    show readValue (skipSpaces (Digits.write value.toNat ++ '\n' :: rest)) = _
    rw [Scalar.toNode, ← hread, htext, List.cons_append, skipSpaces,
      List.dropWhile_cons_of_neg (by simp [hspace])]
    exact readValue_eq (ne_of_isDigit hc (by decide)) (ne_of_isDigit hc (by decide)) _

end Admission.Toml
