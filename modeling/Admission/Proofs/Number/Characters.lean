import Admission.Number.Layout
import Admission.Proofs.Text.Digits

/-!
# The characters of written numbers

Whatever the layout, the text of a number is made of digits, signs, a point and the mark of the
power (`Layout.mem_finiteText`); where a mantissa of one digit has a fraction too, there is always a
point (`Layout.point_mem_finiteText`). So texts of numbers are told from other fields by sight.
-/

namespace Admission.Number.Layout

open Admission.Text

/-- The characters that a layout uses. -/
def Uses (l : Layout) (c : Char) : Prop :=
  c.isDigit = true ∨ c = '-' ∨ c = '+' ∨ c = '.' ∨ c = l.mark

variable {l : Layout} {digits : List Char} {c : Char}

/-- Digits laid out in place are joined by zeros and a point only. -/
lemma mem_inPlace (hdigits : Digits.allDigits digits = true) {power : ℤ}
    (hc : c ∈ inPlace digits power) : c.isDigit = true ∨ c = '.' := by
  have hzero : ∀ {n : ℕ}, c ∈ List.replicate n '0' → c.isDigit = true := by
    intro n hmem
    rw [List.eq_of_mem_replicate hmem]
    rfl
  cases power with
  | ofNat p =>
    simp only [inPlace, List.mem_append, List.mem_cons] at hc
    rcases hc with (hc | hc) | rfl | hc
    · exact .inl (Digits.isDigit_of_mem hdigits (List.mem_of_mem_take hc))
    · exact .inl (hzero hc)
    · exact .inr rfl
    · split at hc
      · exact .inl (hzero (n := 1) hc)
      · exact .inl (Digits.isDigit_of_mem hdigits (List.mem_of_mem_drop hc))
  | negSucc p =>
    simp only [inPlace, List.cons_append, List.mem_cons, List.mem_append] at hc
    rcases hc with rfl | rfl | hc | hc
    · exact .inl rfl
    · exact .inr rfl
    · exact .inl (hzero hc)
    · exact .inl (Digits.isDigit_of_mem hdigits hc)

lemma mem_powerText {signed : Bool} {power : ℤ} (hc : c ∈ powerText signed power) :
    c.isDigit = true ∨ c = '-' ∨ c = '+' := by
  cases power with
  | ofNat p =>
    rw [powerText, List.mem_append] at hc
    rcases hc with hc | hc
    · cases signed
      · exact nomatch hc
      · exact .inr (.inr (List.mem_singleton.mp hc))
    · exact .inl (Digits.isDigit_of_mem (Digits.allDigits_write p) hc)
  | negSucc p =>
    rw [powerText, List.mem_cons] at hc
    rcases hc with rfl | hc
    · exact .inr (.inl rfl)
    · exact .inl (Digits.isDigit_of_mem (Digits.allDigits_write (p + 1)) hc)

lemma mem_scientific (hdigits : Digits.allDigits digits = true) {power : ℤ}
    (hc : c ∈ l.scientific digits power) : l.Uses c := by
  unfold scientific at hc
  rw [List.mem_append, List.mem_cons] at hc
  rcases hc with hc | rfl | hc
  · match digits, hdigits with
    | [], _ => exact nomatch hc
    | [d], hdigits =>
      have hd : d.isDigit = true := Digits.isDigit_of_mem hdigits (List.mem_singleton_self d)
      have hmem : c = d ∨ c = '.' ∨ c = '0' := by
        by_cases hpointed : l.pointed = true
        · simpa [hpointed] using hc
        · exact .inl (by simpa [hpointed] using hc)
      rcases hmem with rfl | rfl | rfl
      · exact .inl hd
      · exact .inr (.inr (.inr (.inl rfl)))
      · exact .inl rfl
    | d :: e :: rest, hdigits =>
      simp only [List.mem_cons] at hc
      rcases hc with rfl | rfl | hc
      · exact .inl (Digits.isDigit_of_mem hdigits (List.mem_cons_self ..))
      · exact .inr (.inr (.inr (.inl rfl)))
      · exact .inl (Digits.isDigit_of_mem hdigits (List.mem_cons_of_mem d (List.mem_cons.mpr hc)))
  · exact .inr (.inr (.inr (.inr rfl)))
  · rcases mem_powerText hc with hdigit | hsign | hsign
    · exact .inl hdigit
    · exact .inr (.inl hsign)
    · exact .inr (.inr (.inl hsign))

/-- Nothing but digits, signs, a point and the mark stands in the text of a number. -/
theorem mem_finiteText {x : Binary64} (hc : c ∈ l.finiteText x) : l.Uses c := by
  rw [finiteText, List.mem_append] at hc
  rcases hc with hc | hc
  · cases hsign : x.isNegative with
    | true =>
      rw [hsign] at hc
      exact .inr (.inl (List.mem_singleton.mp hc))
    | false =>
      rw [hsign] at hc
      exact nomatch hc
  · have hdigits :=
      Digits.allDigits_trimZeros (Digits.allDigits_write (x.shortest l.tie).coefficient)
    simp only [decimalText] at hc
    split at hc
    · simp only [List.mem_cons, List.not_mem_nil, or_false] at hc
      rcases hc with rfl | rfl | rfl
      · exact .inl rfl
      · exact .inr (.inr (.inr (.inl rfl)))
      · exact .inl rfl
    · split at hc
      · rcases mem_inPlace hdigits hc with hdigit | hpoint
        · exact .inl hdigit
        · exact .inr (.inr (.inr (.inl hpoint)))
      · exact mem_scientific hdigits hc

/-- There is a point in every text of a number, if a mantissa of one digit has a fraction too. -/
theorem point_mem_finiteText (hpointed : l.pointed = true) (x : Binary64) :
    '.' ∈ l.finiteText x := by
  rw [finiteText, List.mem_append]
  refine .inr ?_
  simp only [decimalText]
  split
  · simp
  · rename_i hcoefficient
    split
    · cases (x.shortest l.tie).leadingExponent <;> simp [inPlace]
    · have hne := Digits.trimZeros_write_ne_nil hcoefficient
      obtain ⟨d, rest, hdigits⟩ := List.exists_cons_of_ne_nil hne
      rw [hdigits]
      cases rest <;> simp [scientific, hpointed]

end Admission.Number.Layout
