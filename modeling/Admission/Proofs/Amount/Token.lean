import Admission.Amount.Token
import Admission.Proofs.Json.Numeral
import Admission.Proofs.Number.Characters
import Admission.Proofs.Number.Decade

/-!
# Canonical texts of token amounts

The canonical text of an amount is a sign, digits, a point, digits, and, if the size is out of the
range that is written in place, a capital `E` and a power (`Spelling`). It is there for every amount
that is finite; what it writes rounds to the amount, so no two amounts share a text
(`canonical_spells`). Which of the two forms is taken depends on the amount itself, although the
layout looks at its shortest decimal.
-/

namespace Admission.TokenAmount

open Text Number

/-! ## Spellings -/

/-- An amount as it is spelt: digits before and behind the point, and a power of ten if there is
one. Before a power, one digit stands before the point, which is not zero. -/
structure Spelling where
  negative : Bool
  whole : List Char
  fraction : List Char
  power : Option ℤ
  whole_part : Json.WholePart whole
  fraction_digits : Digits.allDigits fraction = true
  fraction_ne_nil : fraction ≠ []
  leading : power.isSome = true → ∃ c, whole = [c] ∧ c ≠ '0'

/-- A power of ten behind its mark; it has no sign unless it is negative. -/
def powerText (power : ℤ) : List Char :=
  'E' :: ((if power < 0 then ['-'] else []) ++ Digits.write power.natAbs)

/-- The text of a spelling. -/
def Spelling.text (s : Spelling) : List Char :=
  (if s.negative then ['-'] else []) ++ s.whole ++ '.' :: s.fraction ++ s.power.elim [] powerText

/-- The decimal that a spelling writes, without its sign. -/
def Spelling.decimal (s : Spelling) : Decimal :=
  ⟨Digits.value (s.whole ++ s.fraction), s.power.getD 0 - s.fraction.length⟩

/-- The sizes that are written in place, zero aside. -/
def InRange (x : Binary64) : Prop :=
  (10 : ℚ) ^ (-3 : ℤ) ≤ x.size ∧ x.size < 10 ^ (7 : ℤ)

lemma powerText_eq (power : ℤ) :
    canonicalLayout.mark :: Layout.powerText canonicalLayout.signed power = powerText power := by
  cases power with
  | ofNat p => rfl
  | negSucc p =>
    rw [powerText, if_pos (Int.negSucc_lt_zero p)]
    rfl

/-! ## The text of an amount -/

variable {a b : TokenAmount} {text : List Char}

/-- The text of an amount of tokens is that of its finite number. -/
lemma canonical_eq_ok_iff :
    a.canonical = .ok text ↔
      a.value.isFinite = true ∧ text = canonicalLayout.finiteText a.value := by
  rw [canonical]
  by_cases hfinite : a.value.isFinite = true <;> simp [hfinite, eq_comm (a := text)]

lemma canonical_eq_error_iff {fault : EncodingFault} :
    a.canonical = .error fault ↔ a.value.isFinite = false ∧ fault = .unwritable a.value := by
  rw [canonical]
  by_cases hfinite : a.value.isFinite = true <;> simp [hfinite, eq_comm (a := fault)]

/-- What is neither a digit nor a sign, a point or a mark is not in the text of an amount of
tokens. -/
lemma notMem_canonical (h : a.canonical = .ok text) {c : Char} (hc : c = ',' ∨ c = 'x') :
    c ∉ text := by
  obtain ⟨-, rfl⟩ := canonical_eq_ok_iff.mp h
  intro hmem
  have huses := Layout.mem_finiteText hmem
  rcases hc with rfl | rfl <;> simp [Layout.Uses, canonicalLayout] at huses

/-- A number is not finite if it is infinite or no number at all. -/
lemma isFinite_eq_false_iff (x : Binary64) :
    x.isFinite = false ↔ x.isNaN = true ∨ x.magnitude = Binary64.infinity := by
  rw [Binary64.isFinite, Binary64.isNaN, decide_eq_false_iff_not, decide_eq_true_iff]
  omega

/-- The leading digit of the shortest decimal is written in place if the number itself is in
range. -/
lemma inRange_iff {x : Binary64} (hx : x.isFinite = true) (hzero : x.isZero = false) :
    (canonicalLayout.lowest ≤ (x.shortest canonicalLayout.tie).leadingExponent ∧
      (x.shortest canonicalLayout.tie).leadingExponent < canonicalLayout.past) ↔ InRange x := by
  have hlow := Binary64.leadingExponent_shortest canonicalLayout.tie hx hzero
    Binary64.isThreshold_thousandth
  have hpast := Binary64.leadingExponent_shortest canonicalLayout.tie hx hzero
    Binary64.isThreshold_tenMillion
  apply and_congr hlow
  rw [← not_le, ← not_le]
  exact not_congr hpast

/-- The text of a finite amount is a spelling of it. -/
lemma exists_spelling (ha : a.value.isFinite = true) :
    ∃ s : Spelling, a.canonical = .ok s.text ∧ s.negative = a.value.isNegative ∧
      (s.power.isSome = true ↔ a.value.isZero = false ∧ ¬ InRange a.value) ∧
      s.decimal.value = (a.value.shortest canonicalLayout.tie).value := by
  obtain ⟨whole, fraction, power, h⟩ :=
    Json.exists_hasLayout canonicalLayout (a.value.shortest canonicalLayout.tie)
  have hfraction := h.pointed rfl
  refine ⟨⟨a.value.isNegative, whole, fraction, power, h.whole_part, h.fraction_digits, hfraction,
    h.leading⟩, ?_, rfl, ?_, h.value⟩
  · have htext : (power.elim [] fun e =>
        canonicalLayout.mark :: Layout.powerText canonicalLayout.signed e)
          = power.elim [] powerText := by
      cases power with
      | none => rfl
      | some e => exact powerText_eq e
    rw [canonical_eq_ok_iff, Layout.finiteText, h.text, htext,
      Json.fractionPart_of_ne_nil hfraction]
    refine ⟨ha, ?_⟩
    simp only [Spelling.text, List.append_assoc]
  · show power.isSome = true ↔ _
    rw [h.power_iff, Ne, Binary64.coefficient_shortest_eq_zero_iff, Bool.not_eq_true]
    exact and_congr_right fun hzero => not_congr (inRange_iff ha hzero)

/-- An amount has no canonical text if and only if it is infinite or no number. Otherwise the text
is a spelling with the sign of the amount, has a power if and only if the amount is neither zero nor
in range, and writes a decimal that rounds to the amount with all its bits; so amounts with one text
are one amount. To be in range is to lie between the numbers nearest to the two bounds, of which the
second is out. -/
theorem canonical_spells (a b : TokenAmount) :
    (∀ fault, a.canonical = .error fault ↔ fault = .unwritable a.value ∧
      (a.value.isNaN = true ∨ a.value.magnitude = Binary64.infinity)) ∧
    (¬ (a.value.isNaN = true ∨ a.value.magnitude = Binary64.infinity) →
      ∃ s : Spelling, a.canonical = .ok s.text ∧ s.negative = a.value.isNegative ∧
        (s.power.isSome = true ↔ a.value.isZero = false ∧ ¬ InRange a.value) ∧ ',' ∉ s.text ∧
        Binary64.ofDecimal? s.negative s.decimal = some a.value) ∧
    (InRange a.value ↔ (Decimal.mk 1 (-3)).magnitude ≤ a.value.magnitude ∧
      a.value.magnitude < (Decimal.mk 1 7).magnitude) ∧
    ∀ text, a.canonical = .ok text → b.canonical = .ok text → a.value.bits = b.value.bits := by
  refine ⟨?_, ?_, ?_, ?_⟩
  · intro fault
    rw [canonical_eq_error_iff, isFinite_eq_false_iff, and_comm]
  · intro hfinite
    rw [← isFinite_eq_false_iff, Bool.not_eq_false] at hfinite
    obtain ⟨s, htext, hnegative, hpower, hvalue⟩ := exists_spelling hfinite
    refine ⟨s, htext, hnegative, hpower, notMem_canonical htext (.inl rfl), ?_⟩
    rw [hnegative]
    exact Binary64.ofDecimal?_of_value hfinite hvalue
  · apply and_congr (Binary64.isThreshold_thousandth a.value)
    rw [← not_le, ← not_le]
    exact not_congr (Binary64.isThreshold_tenMillion a.value)
  · intro text ha hb
    obtain ⟨hafinite, hatext⟩ := canonical_eq_ok_iff.mp ha
    obtain ⟨hbfinite, hbtext⟩ := canonical_eq_ok_iff.mp hb
    have hvalue : a.value = b.value :=
      Json.finiteText_injective (.inr rfl) hafinite hbfinite (hatext.symm.trans hbtext)
    rw [hvalue]

/-- Ten millions are written with a power, and the two zeros are written differently. -/
theorem canonical_spells_of_tenMillion :
    (TokenAmount.mk ⟨0x416312D000000000⟩).canonical = .ok "1.0E7".toList ∧
      (∃ s : Spelling, s.text = "1.0E7".toList ∧ s.power.isSome = true) ∧
      (TokenAmount.mk ⟨0⟩).canonical ≠ (TokenAmount.mk ⟨0x8000000000000000⟩).canonical := by
  have hcanonical : (TokenAmount.mk ⟨0x416312D000000000⟩).canonical = .ok "1.0E7".toList := by
    decide +kernel
  obtain ⟨-, hspelling, hrange, -⟩ :=
    canonical_spells ⟨⟨0x416312D000000000⟩⟩ ⟨⟨0x416312D000000000⟩⟩
  obtain ⟨-, -, -, hsame⟩ := canonical_spells ⟨⟨0⟩⟩ ⟨⟨0x8000000000000000⟩⟩
  obtain ⟨s, htext, -, hpower, -⟩ := hspelling (by decide)
  refine ⟨hcanonical, ⟨s, Except.ok.inj (htext.symm.trans hcanonical), hpower.mpr ⟨by decide, ?_⟩⟩,
    ?_⟩
  · rw [hrange]
    decide +kernel
  · intro h
    have hzero : (TokenAmount.mk ⟨0⟩).canonical = .ok "0.0".toList := by decide
    exact absurd (hsame _ hzero (h ▸ hzero)) (by decide)

end Admission.TokenAmount
