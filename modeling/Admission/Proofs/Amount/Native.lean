import Admission.Amount.Native
import Admission.Proofs.Text.Digits

/-!
# Native amounts read back

A whole number is written as a plus sign or none, a digit, and then digits and underscores; it is
read from these texts only (`number?_eq_some_iff`). The display text of an amount is the whole part,
and after a point what the fraction has left once its closing zeros are gone. Reading fills these
zeros up again (`value_fractionText`), so every amount is read back from its display text
(`ofDisplay_toDisplay`). The wei text is a number.
-/

namespace Admission.NativeAmount

open Text

/-! ## Numbers -/

/-- What may stand before the digits of a number: nothing, or a plus sign. -/
def signs : List (List Char) :=
  [[], ['+']]

/-- A text writes a whole number: a plus sign or none, then a digit, and then digits and
underscores, of which the digits count. -/
def WritesNumber (text : List Char) (n : ℕ) : Prop :=
  ∃ sign ∈ signs, ∃ first rest, text = sign ++ first :: rest ∧ first.isDigit = true ∧
    (∀ c ∈ rest, c.isDigit = true ∨ c = '_') ∧
    n = Digits.value ((first :: rest).filter Char.isDigit)

/-- A text is one of the signs before what is left without it. -/
lemma exists_sign_append_unsigned (text : List Char) :
    ∃ sign ∈ signs, text = sign ++ unsigned text := by
  unfold unsigned
  split
  · exact ⟨['+'], by decide, rfl⟩
  · exact ⟨[], by decide, rfl⟩

/-- A sign before a digit is taken off, and a digit without a sign is left alone. -/
lemma unsigned_append {sign rest : List Char} {first : Char} (hsign : sign ∈ signs)
    (hfirst : first.isDigit = true) : unsigned (sign ++ first :: rest) = first :: rest := by
  simp only [signs, List.mem_cons, List.not_mem_nil, or_false] at hsign
  rcases hsign with rfl | rfl
  · have hplus : first ≠ '+' := ne_of_isDigit hfirst rfl
    unfold unsigned
    split
    · rename_i text htext
      exact absurd (List.cons.inj htext).1 hplus
    · rfl
  · rfl

/-- Of digits and underscores the digits are what is no underscore. -/
lemma filter_ne_underscore {text : List Char} (h : ∀ c ∈ text, c.isDigit = true ∨ c = '_') :
    text.filter (· != '_') = text.filter Char.isDigit := by
  apply List.filter_congr
  intro c hc
  rcases h c hc with hdigit | rfl
  · rw [hdigit, bne_iff_ne]
    exact ne_of_isDigit hdigit rfl
  · rfl

/-- A number is read from the texts that write it, and from no others. -/
theorem number?_eq_some_iff {text : List Char} {n : ℕ} :
    number? text = some n ↔ WritesNumber text n := by
  simp only [number?, Option.ite_none_right_eq_some, List.all_eq_true, Bool.or_eq_true, beq_iff_eq]
  constructor
  · rintro ⟨⟨hne, hhead, hall⟩, hn⟩
    obtain ⟨sign, hsign, htext⟩ := exists_sign_append_unsigned text
    rw [filter_ne_underscore hall] at hn
    obtain ⟨first, rest, hdigits⟩ := List.exists_cons_of_ne_nil hne
    rw [hdigits] at htext hhead hall hn
    have hfirst : first.isDigit = true := by
      apply (hall first List.mem_cons_self).resolve_right
      rintro rfl
      exact hhead rfl
    exact ⟨sign, hsign, first, rest, htext, hfirst,
      fun c hc => hall c (List.mem_cons_of_mem first hc), (Option.some.inj hn).symm⟩
  · rintro ⟨sign, hsign, first, rest, rfl, hfirst, hrest, rfl⟩
    have hall : ∀ c ∈ first :: rest, c.isDigit = true ∨ c = '_' :=
      List.forall_mem_cons.mpr ⟨.inl hfirst, hrest⟩
    have hunderscore : first ≠ '_' := ne_of_isDigit hfirst rfl
    rw [unsigned_append hsign hfirst, filter_ne_underscore hall]
    exact ⟨⟨List.cons_ne_nil _ _, fun hhead => hunderscore (Option.some.inj hhead), hall⟩, rfl⟩

/-- A run of digits writes the number that it is read as. -/
lemma writesNumber_of_allDigits {digits : List Char} (h : Digits.allDigits digits = true)
    (hne : digits ≠ []) : WritesNumber digits (Digits.value digits) := by
  have hfilter : digits.filter Char.isDigit = digits :=
    List.filter_eq_self.mpr fun c hc => Digits.isDigit_of_mem h hc
  obtain ⟨first, rest, rfl⟩ := List.exists_cons_of_ne_nil hne
  refine ⟨[], by decide, first, rest, rfl, Digits.isDigit_of_mem h List.mem_cons_self, ?_, ?_⟩
  · exact fun c hc => .inl (Digits.isDigit_of_mem h (List.mem_cons_of_mem first hc))
  · rw [hfilter]

/-! ## Digits put together -/

section Filled

variable {whole kept : List Char}

/-- With the zeros there are eighteen places behind the whole part. -/
lemma length_filled (whole : List Char) (hkept : kept.length ≤ places) :
    (filled whole kept).length = whole.length + places := by
  unfold filled
  simp only [List.length_append, List.length_replicate]
  omega

/-- The whole part counts display units, and what follows it wei. -/
lemma value_filled (whole : List Char) (hkept : kept.length ≤ places) :
    Digits.value (filled whole kept)
      = Digits.value whole * 10 ^ places + Digits.value kept * 10 ^ (places - kept.length) := by
  unfold filled
  rw [Digits.value_append_zeros, Digits.value_append, Nat.mul_add, ← Nat.mul_assoc, ← pow_add,
    Nat.sub_add_cancel hkept, Nat.mul_comm (10 ^ places), Nat.mul_comm _ (Digits.value kept)]

/-- The digits that are put together are read. -/
lemma number?_filled (hwhole : Digits.allDigits whole = true) (hkept : Digits.allDigits kept = true)
    (hlength : kept.length ≤ places) :
    number? (filled whole kept) = some (Digits.value (filled whole kept)) := by
  apply number?_eq_some_iff.mpr
  apply writesNumber_of_allDigits
  · apply Digits.allDigits_append_zeros
    rw [Digits.allDigits_append, hwhole, hkept]
    rfl
  · intro hnil
    have hsome := length_filled whole hlength
    rw [hnil, List.length_nil, places] at hsome
    omega

end Filled

/-! ## Fractions of the display unit -/

/-- The eighteen places of a fraction, before closing zeros are trimmed. -/
def paddedFraction (wei : ℕ) : List Char :=
  List.replicate (places - (Digits.write wei).length) '0' ++ Digits.write wei

lemma fractionText_eq (wei : ℕ) : fractionText wei = Digits.trimZeros (paddedFraction wei) := rfl

lemma allDigits_paddedFraction (wei : ℕ) : Digits.allDigits (paddedFraction wei) = true :=
  Digits.allDigits_zeros_append (Digits.allDigits_write wei) _

lemma allDigits_fractionText (wei : ℕ) : Digits.allDigits (fractionText wei) = true :=
  Digits.allDigits_trimZeros (allDigits_paddedFraction wei)

/-- Less than one display unit fits the eighteen places. -/
lemma length_paddedFraction {wei : ℕ} (h : wei < 10 ^ places) :
    (paddedFraction wei).length = places := by
  have hle : (Digits.write wei).length ≤ places :=
    (Nat.length_toDigits_le_iff (by decide) (by decide)).mpr h
  rw [paddedFraction, List.length_append, List.length_replicate]
  omega

lemma length_fractionText_le {wei : ℕ} (h : wei < 10 ^ places) :
    (fractionText wei).length ≤ places := by
  rw [← length_paddedFraction h, fractionText_eq]
  exact Digits.length_trimZeros_le _

/-- Filled up to eighteen places again, a fraction is the number of its wei. -/
lemma value_fractionText {wei : ℕ} (h : wei < 10 ^ places) :
    Digits.value (fractionText wei ++ List.replicate (places - (fractionText wei).length) '0')
      = wei := by
  have hfill : fractionText wei ++ List.replicate (places - (fractionText wei).length) '0'
      = paddedFraction wei := by
    conv_rhs => rw [← Digits.trimZeros_append_replicate (paddedFraction wei)]
    rw [length_paddedFraction h, fractionText_eq]
  rw [hfill, paddedFraction, Digits.value_replicate_zero_append, Digits.value_write]

/-! ## Display texts -/

/-- Digits hold no point. -/
lemma ne_point_of_isDigit {c : Char} (h : c.isDigit = true) : (c != '.') = true :=
  bne_iff_ne.mpr (ne_of_isDigit h rfl)

/-- A text is split behind the digits that open it. -/
lemma splitPoint_digits {whole : List Char} (h : Digits.allDigits whole = true)
    (fraction : List Char) : splitPoint (whole ++ '.' :: fraction) = (whole, fraction) := by
  have hwhole : ∀ c ∈ whole, (c != '.') = true := fun c hc =>
    ne_point_of_isDigit (Digits.isDigit_of_mem h hc)
  rw [splitPoint, List.takeWhile_append_of_pos hwhole, List.dropWhile_append_of_pos hwhole]
  simp

lemma splitPoint_eq_self {whole : List Char} (h : Digits.allDigits whole = true) :
    splitPoint whole = (whole, []) := by
  have hwhole : ∀ c ∈ whole, (c != '.') = true := fun c hc =>
    ne_point_of_isDigit (Digits.isDigit_of_mem h hc)
  rw [← List.append_nil whole, splitPoint, List.takeWhile_append_of_pos hwhole,
    List.dropWhile_append_of_pos hwhole]
  rfl

/-- The parts of a display text are its whole part and its fraction. -/
lemma splitPoint_toDisplay (a : NativeAmount) :
    splitPoint a.toDisplay.toList
      = (Digits.write (a.wei / 10 ^ places), fractionText (a.wei % 10 ^ places)) := by
  rw [toDisplay, String.toList_ofList]
  by_cases hnil : fractionText (a.wei % 10 ^ places) = []
  · rw [if_pos hnil, splitPoint_eq_self (Digits.allDigits_write _), hnil]
  · rw [if_neg hnil, splitPoint_digits (Digits.allDigits_write _)]

/-- A display text holds digits and a point, hence no blank. -/
lemma trim_toDisplay (a : NativeAmount) : trim a.toDisplay.toList = a.toDisplay.toList := by
  have hwhole : ∀ c ∈ Digits.write (a.wei / 10 ^ places), isBlank c = false := fun c hc =>
    isBlank_of_isDigit (Digits.isDigit_of_mem (Digits.allDigits_write _) hc)
  have hfraction : ∀ c ∈ fractionText (a.wei % 10 ^ places), isBlank c = false := fun c hc =>
    isBlank_of_isDigit (Digits.isDigit_of_mem (allDigits_fractionText _) hc)
  apply trim_eq_self
  intro c hc
  rw [toDisplay, String.toList_ofList] at hc
  by_cases hnil : fractionText (a.wei % 10 ^ places) = []
  · rw [if_pos hnil] at hc
    exact hwhole c hc
  · rw [if_neg hnil, List.mem_append, List.mem_cons] at hc
    rcases hc with hc | rfl | hc
    · exact hwhole c hc
    · rfl
    · exact hfraction c hc

/-- Digits before and behind the point, at most eighteen of which count there, are read. -/
lemma ofDisplay_of_splitPoint {text : String} {whole fraction : List Char}
    (hparts : splitPoint (trim text.toList) = (whole, fraction))
    (hne : ¬ (whole = [] ∧ fraction = [])) (hwhole : Digits.allDigits whole = true)
    (hfraction : Digits.allDigits fraction = true)
    (hlength : (Digits.trimZeros fraction).length ≤ places) :
    ofDisplay text = .ok ⟨Digits.value (filled whole (Digits.trimZeros fraction))⟩ := by
  simp only [ofDisplay, hparts, hwhole, hfraction]
  rw [if_neg hne, if_neg (by decide), if_neg (by omega),
    number?_filled hwhole (Digits.allDigits_trimZeros hfraction) hlength]

/-- Every amount is read back from its display text. -/
theorem ofDisplay_toDisplay (a : NativeAmount) : ofDisplay a.toDisplay = .ok a := by
  have hlt : a.wei % 10 ^ places < 10 ^ places := Nat.mod_lt _ (by decide)
  have hkept : Digits.trimZeros (fractionText (a.wei % 10 ^ places))
      = fractionText (a.wei % 10 ^ places) := Digits.trimZeros_trimZeros _
  have hlength := length_fractionText_le hlt
  have hvalue : Digits.value (filled (Digits.write (a.wei / 10 ^ places))
      (fractionText (a.wei % 10 ^ places))) = a.wei := by
    rw [filled, List.append_assoc, Digits.value_append, value_fractionText hlt, Digits.value_write,
      List.length_append, List.length_replicate, Nat.add_sub_of_le hlength, Nat.div_add_mod]
  have hparts : splitPoint (trim a.toDisplay.toList)
      = (Digits.write (a.wei / 10 ^ places), fractionText (a.wei % 10 ^ places)) := by
    rw [trim_toDisplay, splitPoint_toDisplay]
  rw [ofDisplay_of_splitPoint hparts (fun h => Digits.write_ne_nil _ h.1)
    (Digits.allDigits_write _) (allDigits_fractionText _) (by rwa [hkept]), hkept, hvalue]

/-! ## Texts that write an amount -/

/-- A decimal of the display unit: digits, with or without a point, of which at most eighteen
follow the point before nothing but zeros do. -/
inductive IsDecimal : List Char → Prop
  | whole {digits : List Char} (h : Digits.allDigits digits = true) (hne : digits ≠ []) :
      IsDecimal digits
  | point {whole kept : List Char} {zeros : ℕ} (hwhole : Digits.allDigits whole = true)
      (hkept : Digits.allDigits kept = true) (hlength : kept.length ≤ places)
      (hne : ¬ (whole = [] ∧ kept = [] ∧ zeros = 0)) :
      IsDecimal (whole ++ '.' :: (kept ++ List.replicate zeros '0'))

/-- A text with a decimal of the display unit in it, and nothing else but blanks around that. -/
def IsDisplayText (text : String) : Prop :=
  ∃ before core after, text.toList = before ++ core ++ after ∧ IsDecimal core ∧
    (∀ c ∈ before, isBlank c = true) ∧ ∀ c ∈ after, isBlank c = true

/-- A text is what stands before its first point and, if it has one, the point and what follows. -/
lemma eq_or_eq_of_splitPoint (text : List Char) :
    (text = (splitPoint text).1 ∧ (splitPoint text).2 = []) ∨
      text = (splitPoint text).1 ++ '.' :: (splitPoint text).2 := by
  induction text with
  | nil => exact .inl ⟨rfl, rfl⟩
  | cons c rest ih =>
    by_cases hc : c = '.'
    · right
      simp [splitPoint, hc]
    · have hsplit : splitPoint (c :: rest) = (c :: (splitPoint rest).1, (splitPoint rest).2) := by
        simp [splitPoint, hc]
      rw [hsplit]
      rcases ih with ⟨hrest, hnil⟩ | hrest
      · exact .inl ⟨congrArg (c :: ·) hrest, hnil⟩
      · exact .inr (congrArg (c :: ·) hrest)

/-- The characters of a decimal are digits and a point, hence no blanks. -/
lemma IsDecimal.isBlank_eq_false {text : List Char} (h : IsDecimal text) :
    ∀ c ∈ text, isBlank c = false := by
  have hdigits : ∀ {digits : List Char}, Digits.allDigits digits = true →
      ∀ c ∈ digits, isBlank c = false :=
    fun hall c hc => isBlank_of_isDigit (Digits.isDigit_of_mem hall hc)
  cases h with
  | whole hall => exact hdigits hall
  | @point whole kept zeros hwhole hkept =>
    rw [List.forall_mem_append, List.forall_mem_cons, List.forall_mem_append]
    exact ⟨hdigits hwhole, rfl, hdigits hkept, hdigits (Digits.allDigits_replicate_zero zeros)⟩

/-- The part before the point and the part behind it make a decimal. -/
lemma isDecimal_iff_of_splitPoint {text whole fraction : List Char}
    (hparts : splitPoint text = (whole, fraction)) :
    IsDecimal text ↔ ¬ (whole = [] ∧ fraction = []) ∧ Digits.allDigits whole = true ∧
      Digits.allDigits fraction = true ∧ (Digits.trimZeros fraction).length ≤ places := by
  constructor
  · intro h
    cases h with
    | whole hall hne =>
      rw [splitPoint_eq_self hall, Prod.mk.injEq] at hparts
      obtain ⟨rfl, rfl⟩ := hparts
      exact ⟨fun hnil => hne hnil.1, hall, rfl, Nat.zero_le _⟩
    | @point whole kept zeros hwhole hkept hlength hne =>
      rw [splitPoint_digits hwhole, Prod.mk.injEq] at hparts
      obtain ⟨rfl, rfl⟩ := hparts
      refine ⟨?_, hwhole, ?_, Digits.length_trimZeros_le_iff.mpr ⟨kept, zeros, rfl, hlength⟩⟩
      · rintro ⟨hnil, hfraction⟩
        rw [List.append_eq_nil_iff, List.replicate_eq_nil_iff] at hfraction
        exact hne ⟨hnil, hfraction⟩
      · exact Digits.allDigits_append_zeros hkept zeros
  · rintro ⟨hne, hwhole, hfraction, hlength⟩
    have htext := eq_or_eq_of_splitPoint text
    rw [hparts] at htext
    rcases htext with ⟨rfl, hnil⟩ | rfl
    · exact .whole hwhole fun h => hne ⟨h, hnil⟩
    · -- Behind the point stand the places that count, and zeros.
      obtain ⟨kept, zeros, rfl, hkept⟩ := Digits.length_trimZeros_le_iff.mp hlength
      rw [Digits.allDigits_append, Bool.and_eq_true] at hfraction
      refine .point hwhole hfraction.1 hkept ?_
      rintro ⟨hnil, rfl, rfl⟩
      exact hne ⟨hnil, rfl⟩

/-- An amount is read from the texts that write one in the display unit, and from no others. -/
theorem exists_ofDisplay_iff {text : String} :
    (∃ a, ofDisplay text = .ok a) ↔ IsDisplayText text := by
  have hread : (∃ a, ofDisplay text = .ok a) ↔ IsDecimal (trim text.toList) := by
    have hparts : splitPoint (trim text.toList)
        = ((splitPoint (trim text.toList)).1, (splitPoint (trim text.toList)).2) := rfl
    rw [isDecimal_iff_of_splitPoint hparts]
    simp only [ofDisplay]
    split_ifs with hnil hshape hlength
    · exact iff_of_false (by simp) fun h => h.1 hnil
    · refine iff_of_false (by simp) fun h => ?_
      simp [h.2.1, h.2.2.1] at hshape
    · exact iff_of_false (by simp) fun h => absurd h.2.2.2 (Nat.not_le.mpr hlength)
    · simp only [Bool.not_eq_true', Bool.not_eq_false, Bool.and_eq_true] at hshape
      rw [number?_filled hshape.1 (Digits.allDigits_trimZeros hshape.2) (Nat.not_lt.mp hlength)]
      exact iff_of_true ⟨_, rfl⟩ ⟨hnil, hshape.1, hshape.2, Nat.not_lt.mp hlength⟩
  rw [hread]
  constructor
  · intro h
    obtain ⟨before, after, htext, hbefore, hafter⟩ := exists_blanks_around text.toList
    exact ⟨before, _, after, htext, h, hbefore, hafter⟩
  · rintro ⟨before, core, after, htext, h, hbefore, hafter⟩
    rw [htext, trim_append hbefore h.isBlank_eq_false hafter]
    exact h

/-! ## Wei texts -/

/-- Different amounts have different wei texts. -/
theorem weiText_injective : Function.Injective weiText := by
  intro a b h
  have hdigits : Digits.write a.wei = Digits.write b.wei := String.ofList_injective h
  have hwei : a.wei = b.wei := Digits.write_injective hdigits
  cases a
  cases b
  exact congrArg NativeAmount.mk hwei

end Admission.NativeAmount
