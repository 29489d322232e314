import Admission.Proofs.Amount.Native
import Admission.Proofs.Json.Numeral
import Admission.Proofs.Outcome

/-!
# The display unit

Blanks around it aside, a text writes an amount in the display unit if it is made of digits, with at
most one point among them, and at most eighteen of those behind the point count (`HasParts`). Such a
text is read with exactly the amount that its parts write, and every other text is refused for what
is wrong with it (`ofDisplay_decides`).

Of all texts of an amount one is canonical: no zero stands in front that need not, and none closes
the fraction (`IsCanonical`). It is the text that the amount is written with (`toDisplay_canonical`).
-/

namespace Admission.NativeAmount

open Text

/-! ## Texts that are read and texts that are refused -/

/-- A text of digits, or of digits with a point before, among or behind them, taken apart: the whole
part, and what is kept of the fraction once the zeros that close it are gone. -/
inductive HasParts : List Char → List Char → List Char → Prop
  | whole {digits : List Char} (h : Digits.allDigits digits = true) (hne : digits ≠ []) :
      HasParts digits digits []
  | point {whole kept : List Char} {zeros : ℕ} (hwhole : Digits.allDigits whole = true)
      (hkept : Digits.allDigits kept = true) (hlast : kept.getLast? ≠ some '0')
      (hlength : kept.length ≤ places) (hne : ¬ (whole = [] ∧ kept = [] ∧ zeros = 0)) :
      HasParts (whole ++ '.' :: (kept ++ List.replicate zeros '0')) whole kept

/-- Why a text writes no amount in the display unit: it has no digits, or a character that is no
digit and no point, or a second point, or more places that count than there are. -/
inductive Refused (core : List Char) : DecodingFault → Prop
  | empty (h : core = [] ∨ core = ['.']) : Refused core (.nativeEmpty (String.ofList core))
  | character {c : Char} (hc : c ∈ core) (hdigit : c.isDigit = false) (hpoint : c ≠ '.') :
      Refused core (.nativeShape (String.ofList core))
  | points (h : 2 ≤ core.count '.') : Refused core (.nativeShape (String.ofList core))
  | precision {whole kept : List Char} {zeros : ℕ}
      (hcore : core = whole ++ '.' :: (kept ++ List.replicate zeros '0'))
      (hwhole : Digits.allDigits whole = true) (hkept : Digits.allDigits kept = true)
      (hlast : kept.getLast? ≠ some '0') (hlength : places < kept.length) :
      Refused core (.nativePrecision (String.ofList core))

section Parts

variable {text : String} {core whole kept : List Char} {fault : DecodingFault}

lemma HasParts.length_le (h : HasParts core whole kept) : kept.length ≤ places := by
  cases h with
  | whole => exact Nat.zero_le _
  | point _ _ _ hlength => exact hlength

lemma HasParts.allDigits (h : HasParts core whole kept) :
    Digits.allDigits whole = true ∧ Digits.allDigits kept = true := by
  cases h with
  | whole hall => exact ⟨hall, rfl⟩
  | point hwhole hkept => exact ⟨hwhole, hkept⟩

lemma HasParts.getLast?_ne (h : HasParts core whole kept) : kept.getLast? ≠ some '0' := by
  cases h with
  | whole => exact nofun
  | point _ _ hlast => exact hlast

lemma HasParts.isDecimal (h : HasParts core whole kept) : IsDecimal core := by
  cases h with
  | whole hall hne => exact .whole hall hne
  | point hwhole hkept _ hlength hne => exact .point hwhole hkept hlength hne

/-- A text that has parts is read. -/
lemma HasParts.ofDisplay_eq (h : HasParts (trim text.toList) whole kept) :
    ofDisplay text = .ok ⟨Digits.value (filled whole kept)⟩ := by
  generalize hcore : trim text.toList = core at h
  cases h with
  | whole hall hne =>
    have hparts : splitPoint (trim text.toList) = (whole, []) := by
      rw [hcore, splitPoint_eq_self hall]
    exact ofDisplay_of_splitPoint hparts (fun hnil => hne hnil.1) hall rfl (Nat.zero_le _)
  | @point whole kept zeros hwhole hkept hlast hlength hne =>
    have hparts : splitPoint (trim text.toList) = (whole, kept ++ List.replicate zeros '0') := by
      rw [hcore, splitPoint_digits hwhole]
    have htrim := Digits.trimZeros_of_getLast? hlast zeros
    have hread := ofDisplay_of_splitPoint hparts
      (by rw [List.append_eq_nil_iff, List.replicate_eq_nil_iff]; exact hne) hwhole
      (Digits.allDigits_append_zeros hkept zeros) (by rwa [htrim])
    rw [hread, htrim]

/-- A character that is no digit, before or behind the first point, is not read over. -/
lemma ofDisplay_of_foreign {c : Char} (hdigit : c.isDigit = false)
    (hc : c ∈ (splitPoint (trim text.toList)).1 ∨ c ∈ (splitPoint (trim text.toList)).2) :
    ofDisplay text = .error (.nativeShape (String.ofList (trim text.toList))) := by
  have hshape : (Digits.allDigits (splitPoint (trim text.toList)).1
      && Digits.allDigits (splitPoint (trim text.toList)).2) = false := by
    rw [Bool.and_eq_false_iff]
    refine hc.imp ?_ ?_ <;>
    · intro hmem
      rw [Digits.allDigits, List.all_eq_false]
      exact ⟨c, hmem, by rw [hdigit]; decide⟩
  have hne : ¬ ((splitPoint (trim text.toList)).1 = [] ∧ (splitPoint (trim text.toList)).2 = []) := by
    intro hnil
    rw [hnil.1, hnil.2] at hc
    simp at hc
  simp only [ofDisplay, if_neg hne, hshape]
  rfl

/-- The characters of a text but its points stand before or behind the first of these. -/
lemma mem_splitPoint_iff {c : Char} (hpoint : c ≠ '.') :
    c ∈ (splitPoint core).1 ∨ c ∈ (splitPoint core).2 ↔ c ∈ core := by
  obtain ⟨hcore, hnil⟩ | hcore := eq_or_eq_of_splitPoint core
  · conv_rhs => rw [hcore]
    simp [hnil]
  · conv_rhs => rw [hcore]
    simp [hpoint]

/-- No point stands before the first one. -/
lemma point_notMem_splitPoint (core : List Char) : '.' ∉ (splitPoint core).1 := by
  intro hmem
  have hne := List.mem_takeWhile_imp (p := (· != '.')) hmem
  exact absurd hne (by decide)

/-- A second point stands behind the first one. -/
lemma point_mem_splitPoint_iff : '.' ∈ (splitPoint core).2 ↔ 2 ≤ core.count '.' := by
  have hbefore : (splitPoint core).1.count '.' = 0 :=
    List.count_eq_zero.mpr (point_notMem_splitPoint core)
  rw [← List.count_pos_iff]
  obtain ⟨hcore, hnil⟩ | hcore := eq_or_eq_of_splitPoint core
  · have hcount := congrArg (List.count '.') hcore
    rw [hnil, List.count_nil]
    omega
  · have hcount := congrArg (List.count '.') hcore
    rw [List.count_append, List.count_cons_self] at hcount
    omega

/-- A text that is refused is refused for the cause that is told. -/
lemma Refused.ofDisplay_eq (h : Refused (trim text.toList) fault) :
    ofDisplay text = .error fault := by
  cases h with
  | empty hcore => obtain hcore | hcore := hcore <;> (unfold ofDisplay; rw [hcore]; rfl)
  | character hc hdigit hpoint => exact ofDisplay_of_foreign hdigit ((mem_splitPoint_iff hpoint).mpr hc)
  | points hcount => exact ofDisplay_of_foreign rfl (.inr (point_mem_splitPoint_iff.mpr hcount))
  | @precision whole kept zeros hcore hwhole hkept hlast hlength =>
    have htrim := Digits.trimZeros_of_getLast? hlast zeros
    have hfraction := Digits.allDigits_append_zeros hkept zeros
    have hparts : splitPoint (trim text.toList) = (whole, kept ++ List.replicate zeros '0') := by
      rw [hcore, splitPoint_digits hwhole]
    have hne : ¬ (whole = [] ∧ kept ++ List.replicate zeros '0' = []) := by
      intro hnil
      have hkeptnil := (List.append_eq_nil_iff.mp hnil.2).1
      rw [hkeptnil, List.length_nil] at hlength
      omega
    simp only [ofDisplay, hparts, hwhole, hfraction, htrim]
    rw [if_neg hne, if_neg (by decide), if_pos hlength]

lemma exists_of_not_allDigits {digits : List Char} (h : ¬ Digits.allDigits digits = true) :
    ∃ c ∈ digits, c.isDigit = false := by
  simpa [Digits.allDigits] using h

/-- A character that is no digit, before or behind the first point, is a second point, or one that
does not belong there at all. -/
lemma exists_refused_of_foreign {c : Char} (hdigit : c.isDigit = false)
    (hc : c ∈ (splitPoint core).1 ∨ c ∈ (splitPoint core).2) : ∃ fault, Refused core fault := by
  by_cases hpoint : c = '.'
  · subst hpoint
    have hbehind := hc.resolve_left (point_notMem_splitPoint core)
    exact ⟨_, .points (point_mem_splitPoint_iff.mp hbehind)⟩
  · exact ⟨_, .character ((mem_splitPoint_iff hpoint).mp hc) hdigit hpoint⟩

/-- With digits before and behind the point, a text has parts unless it has no digits at all, or too
many behind the point that count. -/
lemma hasParts_or_refused_of_digits {fraction : List Char}
    (hwhole : Digits.allDigits whole = true) (hfraction : Digits.allDigits fraction = true)
    (hcore : core = whole ∧ fraction = [] ∨ core = whole ++ '.' :: fraction) :
    (∃ whole kept, HasParts core whole kept) ∨ ∃ fault, Refused core fault := by
  have hfill := Digits.trimZeros_append_replicate fraction
  have hlast := Digits.trimZeros_eq_self_iff.mp (Digits.trimZeros_trimZeros fraction)
  have hkept := Digits.allDigits_trimZeros hfraction
  generalize Digits.trimZeros fraction = kept at hfill hlast hkept
  generalize fraction.length - kept.length = zeros at hfill
  subst hfill
  obtain ⟨rfl, -⟩ | rfl := hcore
  · by_cases hne : core = []
    · exact .inr ⟨_, .empty (.inl hne)⟩
    · exact .inl ⟨core, [], .whole hwhole hne⟩
  · by_cases hne : whole = [] ∧ kept = [] ∧ zeros = 0
    · obtain ⟨rfl, rfl, rfl⟩ := hne
      exact .inr ⟨_, .empty (.inr rfl)⟩
    · by_cases hlength : kept.length ≤ places
      · exact .inl ⟨whole, kept, .point hwhole hkept hlast hlength hne⟩
      · exact .inr ⟨_, .precision rfl hwhole hkept hlast (Nat.not_le.mp hlength)⟩

/-- Every text either has parts or is refused. -/
lemma hasParts_or_refused (core : List Char) :
    (∃ whole kept, HasParts core whole kept) ∨ ∃ fault, Refused core fault := by
  by_cases hwhole : Digits.allDigits (splitPoint core).1 = true
  · by_cases hfraction : Digits.allDigits (splitPoint core).2 = true
    · exact hasParts_or_refused_of_digits hwhole hfraction (eq_or_eq_of_splitPoint core)
    · obtain ⟨c, hc, hdigit⟩ := exists_of_not_allDigits hfraction
      exact .inr (exists_refused_of_foreign hdigit (.inr hc))
  · obtain ⟨c, hc, hdigit⟩ := exists_of_not_allDigits hwhole
    exact .inr (exists_refused_of_foreign hdigit (.inl hc))

/-- An amount is read from a text that has parts, and is what these write. -/
theorem ofDisplay_eq_ok_iff {a : NativeAmount} : ofDisplay text = .ok a ↔
    ∃ whole kept, HasParts (trim text.toList) whole kept ∧
      a = ⟨Digits.value (filled whole kept)⟩ := by
  constructor
  · intro h
    obtain ⟨whole, kept, hparts⟩ | ⟨cause, hrefused⟩ := hasParts_or_refused (trim text.toList)
    · exact ⟨whole, kept, hparts, Except.ok.inj (h.symm.trans hparts.ofDisplay_eq)⟩
    · exact nomatch hrefused.ofDisplay_eq.symm.trans h
  · rintro ⟨whole, kept, hparts, rfl⟩
    exact hparts.ofDisplay_eq

/-- A text is refused for what is wrong with it. -/
theorem ofDisplay_eq_error_iff :
    ofDisplay text = .error fault ↔ Refused (trim text.toList) fault := by
  have hcases : (∃ a, ofDisplay text = .ok a) ∨ ∃ cause, Refused (trim text.toList) cause := by
    apply (hasParts_or_refused (trim text.toList)).imp_left
    rintro ⟨whole, kept, hparts⟩
    exact ⟨_, hparts.ofDisplay_eq⟩
  exact eq_error_iff_of_cases hcases fun _ => Refused.ofDisplay_eq

end Parts

/-- What is left of a text without the blanks around it decides: if it has parts, the text is read
with what they write, for any number of digits, and otherwise it is refused for what is wrong with
it. The digits put together for an amount have eighteen places behind the whole part and write the
number of its wei, so the last fault that there is a name for never occurs. -/
theorem ofDisplay_decides (text : String) :
    IsCore text.toList (trim text.toList) ∧
    (∀ a, ofDisplay text = .ok a ↔ ∃ whole kept, HasParts (trim text.toList) whole kept ∧
      a.wei = Digits.value whole * 10 ^ 18 + Digits.value kept * 10 ^ (18 - kept.length)) ∧
    (∀ fault, ofDisplay text = .error fault ↔ Refused (trim text.toList) fault) ∧
    (∀ whole kept, HasParts (trim text.toList) whole kept →
      (filled whole kept).length = whole.length + 18 ∧ number? (filled whole kept)
        = some (Digits.value whole * 10 ^ 18 + Digits.value kept * 10 ^ (18 - kept.length))) ∧
    ∀ shown, ofDisplay text ≠ .error (.nativeDigits shown) := by
  have hvalue : ∀ {whole kept}, HasParts (trim text.toList) whole kept →
      Digits.value (filled whole kept)
        = Digits.value whole * 10 ^ 18 + Digits.value kept * 10 ^ (18 - kept.length) :=
    fun h => value_filled _ h.length_le
  refine ⟨isCore_trim _, ?_, fun fault => ofDisplay_eq_error_iff, ?_, ?_⟩
  · intro a
    rw [ofDisplay_eq_ok_iff]
    refine exists₂_congr fun whole kept => and_congr_right fun hparts => ?_
    cases a
    rw [hvalue hparts, NativeAmount.mk.injEq]
  · intro whole kept hparts
    have hdigits := hparts.allDigits
    refine ⟨length_filled whole hparts.length_le, ?_⟩
    rw [number?_filled hdigits.1 hdigits.2 hparts.length_le, hvalue hparts]
  · intro shown h
    exact nomatch ofDisplay_eq_error_iff.mp h

/-- One and a half with blanks around it and a zero behind it, and the digits of its wei. -/
theorem ofDisplay_decides_of_half :
    HasParts (trim " 1.50\t".toList) ['1'] ['5'] ∧
      ofDisplay " 1.50\t" = .ok ⟨1500000000000000000⟩ ∧
      number? (filled ['1'] ['5']) = some 1500000000000000000 := by
  have hparts : HasParts (trim " 1.50\t".toList) ['1'] ['5'] := by
    have hcore : trim " 1.50\t".toList = ['1'] ++ '.' :: (['5'] ++ List.replicate 1 '0') := by
      decide
    rw [hcore]
    exact .point rfl rfl (by decide) (by decide) (by decide)
  obtain ⟨-, hread, -, hdigits, -⟩ := ofDisplay_decides " 1.50\t"
  exact ⟨hparts, (hread _).mpr ⟨_, _, hparts, rfl⟩, (hdigits _ _ hparts).2⟩

/-! ## Canonical texts -/

/-- The canonical texts: a whole part that opens with a zero only if it is one, and either nothing
else, or a point and up to eighteen digits, of which the last one is not zero. -/
inductive IsCanonical : List Char → Prop
  | whole {whole : List Char} (h : Json.WholePart whole) : IsCanonical whole
  | point {whole kept : List Char} (hwhole : Json.WholePart whole)
      (hkept : Digits.allDigits kept = true) (hne : kept ≠ []) (hlength : kept.length ≤ places)
      (hlast : kept.getLast? ≠ some '0') : IsCanonical (whole ++ '.' :: kept)

/-- A whole part and the places behind it, with a point between them if there are any. -/
def joined (whole kept : List Char) : List Char :=
  if kept = [] then whole else whole ++ '.' :: kept

section Written

variable {whole kept : List Char}

/-- A canonical text is joined from its own parts. -/
lemma IsCanonical.exists_parts {core : List Char} (h : IsCanonical core) :
    ∃ whole kept, HasParts core whole kept ∧ Json.WholePart whole ∧ core = joined whole kept := by
  cases h with
  | whole hwhole => exact ⟨core, [], .whole hwhole.digits hwhole.ne_nil, hwhole, rfl⟩
  | @point whole kept hwhole hkept hne hlength hlast =>
    refine ⟨whole, kept, ?_, hwhole, (if_neg hne).symm⟩
    have hparts : HasParts (whole ++ '.' :: (kept ++ List.replicate 0 '0')) whole kept :=
      .point hwhole.digits hkept hlast hlength fun hnil => hwhole.ne_nil hnil.1
    rwa [List.replicate_zero, List.append_nil] at hparts

/-- Places that count, of which the last one is not zero, are what their wei are written with. -/
lemma fractionText_of_places (hkept : Digits.allDigits kept = true)
    (hlast : kept.getLast? ≠ some '0') (hlength : kept.length ≤ places) :
    Digits.value kept * 10 ^ (places - kept.length) < 10 ^ places ∧
      fractionText (Digits.value kept * 10 ^ (places - kept.length)) = kept := by
  have hlt : Digits.value kept * 10 ^ (places - kept.length) < 10 ^ places := by
    calc Digits.value kept * 10 ^ (places - kept.length)
        < 10 ^ kept.length * 10 ^ (places - kept.length) :=
          Nat.mul_lt_mul_of_pos_right (Digits.value_lt hkept) (Nat.pow_pos (by omega))
      _ = 10 ^ places := by rw [← pow_add, Nat.add_sub_of_le hlength]
  refine ⟨hlt, ?_⟩
  have hpadded : paddedFraction (Digits.value kept * 10 ^ (places - kept.length))
      = kept ++ List.replicate (places - kept.length) '0' := by
    apply Digits.eq_of_value_eq (allDigits_paddedFraction _)
    · exact Digits.allDigits_append_zeros hkept _
    · rw [length_paddedFraction hlt, List.length_append, List.length_replicate]
      omega
    · rw [paddedFraction, Digits.value_replicate_zero_append, Digits.value_write,
        Digits.value_append_zeros, Nat.mul_comm]
  rw [fractionText_eq, hpadded, Digits.trimZeros_of_getLast? hlast]

/-- The amount that parts write is written with them, but for zeros in front. -/
lemma toDisplay_of_parts {core : List Char} (h : HasParts core whole kept) :
    (NativeAmount.mk (Digits.value (filled whole kept))).toDisplay
      = String.ofList (joined (Digits.stripped whole) kept) := by
  have hdigits := h.allDigits
  have hlength := h.length_le
  obtain ⟨hlt, hfraction⟩ := fractionText_of_places hdigits.2 h.getLast?_ne hlength
  have hpos : 0 < 10 ^ places := Nat.pow_pos (by omega)
  have hdiv : Digits.value (filled whole kept) / 10 ^ places = Digits.value whole := by
    rw [value_filled whole hlength, Nat.mul_comm, Nat.mul_add_div hpos, Nat.div_eq_of_lt hlt,
      Nat.add_zero]
  have hmod : Digits.value (filled whole kept) % 10 ^ places
      = Digits.value kept * 10 ^ (places - kept.length) := by
    rw [value_filled whole hlength, Nat.mul_comm, Nat.mul_add_mod, Nat.mod_eq_of_lt hlt]
  simp only [toDisplay, hdiv, hmod, hfraction]
  rw [Digits.write_value_eq_stripped hdigits.1]
  rfl

/-- Every amount is written canonically. -/
lemma isCanonical_toDisplay (a : NativeAmount) : IsCanonical a.toDisplay.toList := by
  have hlt : a.wei % 10 ^ places < 10 ^ places := Nat.mod_lt _ (by decide)
  have hlast : (fractionText (a.wei % 10 ^ places)).getLast? ≠ some '0' :=
    Digits.trimZeros_eq_self_iff.mp (Digits.trimZeros_trimZeros _)
  rw [toDisplay, String.toList_ofList]
  by_cases hnil : fractionText (a.wei % 10 ^ places) = []
  · rw [if_pos hnil]
    exact .whole (Json.WholePart.write _)
  · rw [if_neg hnil]
    exact .point (Json.WholePart.write _) (allDigits_fractionText _) hnil
      (length_fractionText_le hlt) hlast

/-- A canonical text is read, and what is read is written with it again. -/
lemma IsCanonical.exists_ofDisplay {text : String} (h : IsCanonical text.toList) :
    ∃ a, ofDisplay text = .ok a ∧ a.toDisplay = text := by
  obtain ⟨whole, kept, hparts, hwhole, htext⟩ := h.exists_parts
  have hblanks : trim text.toList = text.toList := trim_eq_self hparts.isDecimal.isBlank_eq_false
  have hstripped : Digits.stripped whole = whole := by
    rw [← Digits.write_value_eq_stripped hwhole.digits,
      Digits.write_value hwhole.digits hwhole.ne_nil hwhole.zero_alone]
  rw [← hblanks] at hparts
  refine ⟨_, hparts.ofDisplay_eq, ?_⟩
  rw [toDisplay_of_parts hparts, hstripped, ← htext, String.ofList_toList]

end Written

/-! ## The digits of the wei with a point among them -/

/-- The digits of a number of wei, with zeros in front so that one place stands before the point. -/
def paddedDigits (wei : ℕ) : List Char :=
  List.replicate (places + 1 - (Digits.write wei).length) '0' ++ Digits.write wei

/-- The last eighteen of these digits are the fraction, and those before them the whole part. -/
lemma paddedDigits_eq (wei : ℕ) :
    paddedDigits wei = Digits.write (wei / 10 ^ places) ++ paddedFraction (wei % 10 ^ places) := by
  have hlt : wei % 10 ^ places < 10 ^ places := Nat.mod_lt _ (by decide)
  have hfraction := length_paddedFraction hlt
  apply Digits.eq_of_value_eq
  · exact Digits.allDigits_zeros_append (Digits.allDigits_write wei) _
  · rw [Digits.allDigits_append, Digits.allDigits_write, allDigits_paddedFraction]
    rfl
  · -- So many digits come before the last eighteen as the quotient has.
    have hcount : ∀ k, 0 < k → ((Digits.write (wei / 10 ^ places)).length ≤ k ↔
        (Digits.write wei).length ≤ k + places) := by
      intro k hk
      rw [Digits.write, Digits.write, Nat.length_toDigits_le_iff (by decide) hk,
        Nat.length_toDigits_le_iff (by decide) (by omega), pow_add,
        Nat.div_lt_iff_lt_mul (Nat.pow_pos (by omega))]
    have hpos := List.length_pos_iff.mpr (Digits.write_ne_nil (wei / 10 ^ places))
    have hle := (hcount _ hpos).mp le_rfl
    have hge := hcount ((Digits.write (wei / 10 ^ places)).length - 1)
    rw [paddedDigits, List.length_append, List.length_append, List.length_replicate, hfraction]
    omega
  · rw [paddedDigits, Digits.value_replicate_zero_append, Digits.value_write, Digits.value_append,
      Digits.value_write, hfraction, paddedFraction, Digits.value_replicate_zero_append,
      Digits.value_write, Nat.div_add_mod]

/-- An amount is written with its digits, split before the last eighteen, and without the zeros that
close them. -/
lemma toDisplay_eq_split (a : NativeAmount) :
    let digits := paddedDigits a.wei
    a.toDisplay = String.ofList (joined (digits.take (digits.length - 18))
      (Digits.trimZeros (digits.drop (digits.length - 18)))) := by
  have hfraction : (paddedFraction (a.wei % 10 ^ places)).length = 18 :=
    length_paddedFraction (Nat.mod_lt _ (by decide))
  have hlength : (paddedDigits a.wei).length - 18 = (Digits.write (a.wei / 10 ^ places)).length := by
    rw [paddedDigits_eq, List.length_append]
    omega
  simp only [hlength]
  rw [paddedDigits_eq, List.take_left, List.drop_left, ← fractionText_eq]
  rfl

/-! ## Writing and reading -/

/-- Every amount is written canonically, with the digits of its wei, and is read back from that; and
every canonical text is read, and written again as it is. So amounts are written differently, each
has one canonical text, and an amount that is read from any text is written with the parts of that
text, but for zeros in front. -/
theorem toDisplay_canonical :
    (∀ a : NativeAmount, IsCanonical a.toDisplay.toList ∧ ofDisplay a.toDisplay = .ok a ∧
      let digits := paddedDigits a.wei
      a.toDisplay = String.ofList (joined (digits.take (digits.length - 18))
        (Digits.trimZeros (digits.drop (digits.length - 18))))) ∧
    (∀ text : String, IsCanonical text.toList → ∃ a, ofDisplay text = .ok a ∧ a.toDisplay = text) ∧
    Function.Injective toDisplay ∧
    (∀ (a : NativeAmount) (text : String),
      IsCanonical text.toList ∧ ofDisplay text = .ok a ↔ text = a.toDisplay) ∧
    ∀ (text : String) (a : NativeAmount), ofDisplay text = .ok a →
      ∃ whole kept, HasParts (trim text.toList) whole kept ∧
        a.toDisplay = String.ofList (joined (Digits.stripped whole) kept) := by
  refine ⟨?_, fun text h => h.exists_ofDisplay, ?_, ?_, ?_⟩
  · intro a
    exact ⟨isCanonical_toDisplay a, ofDisplay_toDisplay a, toDisplay_eq_split a⟩
  · intro a b h
    have hread := ofDisplay_toDisplay a
    rw [h, ofDisplay_toDisplay b] at hread
    exact (Except.ok.inj hread).symm
  · intro a text
    constructor
    · rintro ⟨hcanonical, hread⟩
      obtain ⟨b, hb, hwritten⟩ := hcanonical.exists_ofDisplay
      obtain rfl := Except.ok.inj (hread.symm.trans hb)
      exact hwritten.symm
    · rintro rfl
      exact ⟨isCanonical_toDisplay a, ofDisplay_toDisplay a⟩
  · intro text a h
    obtain ⟨whole, kept, hparts, rfl⟩ := ofDisplay_eq_ok_iff.mp h
    exact ⟨whole, kept, hparts, toDisplay_of_parts hparts⟩

/-- Seven and a half with zeros around it, and its canonical text. -/
theorem toDisplay_canonical_of_zeros :
    ofDisplay "007.500" = .ok ⟨7500000000000000000⟩ ∧ IsCanonical "7.5".toList ∧
      (NativeAmount.mk 7500000000000000000).toDisplay = "7.5" := by
  have hseven : Json.WholePart ['7'] := ⟨rfl, by decide, by decide⟩
  have hcanonical : IsCanonical "7.5".toList := by
    show IsCanonical (['7'] ++ '.' :: ['5'])
    exact .point hseven rfl (by decide) (by decide) (by decide)
  obtain ⟨-, hcanonicals, -, hunique, -⟩ := toDisplay_canonical
  obtain ⟨a, hread, hwritten⟩ := hcanonicals "7.5" hcanonical
  have ha : a = ⟨7500000000000000000⟩ := Except.ok.inj (hread.symm.trans (by decide))
  exact ⟨by decide, hcanonical, ha ▸ hwritten⟩

end Admission.NativeAmount
