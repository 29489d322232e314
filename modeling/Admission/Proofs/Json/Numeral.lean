import Admission.Json.Reader
import Admission.Proofs.Number.Shortest

/-!
# Number texts read back

Every layout whose mark is an `e` writes numerals of the JSON grammar. This file reads them back: a
numeral is a whole part, perhaps a point and a fraction, perhaps a mark and a power (`NumeralText`);
these texts are read, and whatever is read as a numeral is one of them (`exists_numeralText`). Both
ways to lay out digits keep the value (`readUnsigned_decimalText`). With the rounding of the
shortest decimal this gives the number itself (`readNumeral_finiteText`), so a layout writes
different numbers differently (`finiteText_injective`).
-/

namespace Admission.Json

open Admission.Text Admission.Number

/-! ## What may follow a numeral -/

/-- The text does not go on with a digit. -/
def NoDigitNext (rest : List Char) : Prop :=
  ∀ c, rest.head? = some c → c.isDigit = false

/-- The text goes on with nothing that a numeral could go on with. -/
def EndsNumeral (rest : List Char) : Prop :=
  ∀ c, rest.head? = some c → c.isDigit = false ∧ c ≠ '.' ∧ c ≠ 'e' ∧ c ≠ 'E'

lemma EndsNumeral.noDigitNext {rest : List Char} (h : EndsNumeral rest) : NoDigitNext rest :=
  fun c hc => (h c hc).1

lemma endsNumeral_nil : EndsNumeral [] := by
  intro c hc
  cases hc

lemma endsNumeral_cons {c : Char} (h : c.isDigit = false ∧ c ≠ '.' ∧ c ≠ 'e' ∧ c ≠ 'E')
    (rest : List Char) : EndsNumeral (c :: rest) := by
  intro d hd
  cases hd
  exact h

/-! ## The parts of a numeral -/

/-- Digits are read up to the first character that is none. -/
lemma readDigits_append {digits rest : List Char} (hdigits : Digits.allDigits digits = true)
    (hne : digits ≠ []) (hrest : NoDigitNext rest) :
    readDigits (digits ++ rest) = some (digits, rest) := by
  have hall : ∀ c ∈ digits, c.isDigit = true := fun c hc => Digits.isDigit_of_mem hdigits hc
  have hsplit : splitDigits (digits ++ rest) = (digits, rest) := by
    rw [splitDigits, List.takeWhile_append_of_pos hall, List.dropWhile_append_of_pos hall]
    cases rest with
    | nil => simp
    | cons c rest =>
      have hc : c.isDigit = false := hrest c rfl
      rw [List.takeWhile_cons_of_neg (by simp [hc]), List.dropWhile_cons_of_neg (by simp [hc]),
        List.append_nil]
  rw [readDigits, hsplit, if_neg hne]

/-- Digits that may stand before a point: a zero stands alone. -/
structure WholePart (whole : List Char) : Prop where
  digits : Digits.allDigits whole = true
  ne_nil : whole ≠ []
  zero_alone : whole.head? = some '0' → whole = ['0']

lemma WholePart.zero : WholePart ['0'] :=
  ⟨rfl, List.cons_ne_nil _ _, fun _ => rfl⟩

lemma WholePart.write (n : ℕ) : WholePart (Digits.write n) where
  digits := Digits.allDigits_write n
  ne_nil := Digits.write_ne_nil n
  zero_alone h := by
    by_cases hn : n = 0
    · rw [hn]
      rfl
    · exact absurd h (Digits.head?_write_ne_zero hn)

lemma readWhole_append {whole rest : List Char} (hwhole : WholePart whole)
    (hrest : NoDigitNext rest) : readWhole (whole ++ rest) = some (whole, rest) := by
  rw [readWhole, readDigits_append hwhole.digits hwhole.ne_nil hrest]
  split
  · rename_i head second tail after heq
    -- A zero in front would stand alone.
    rw [Option.some.injEq, Prod.mk.injEq] at heq
    have halone := hwhole.zero_alone (by rw [heq.1]; rfl)
    rw [heq.1] at halone
    cases halone
  · rfl

/-- A fraction with its point, if there is one. -/
def fractionPart : List Char → List Char
  | [] => []
  | digits => '.' :: digits

lemma fractionPart_of_ne_nil {fraction : List Char} (h : fraction ≠ []) :
    fractionPart fraction = '.' :: fraction := by
  cases fraction with
  | nil => exact absurd rfl h
  | cons => rfl

lemma readFraction_append {fraction rest : List Char} (hdigits : Digits.allDigits fraction = true)
    (hrest : NoDigitNext rest) (hpoint : rest.head? ≠ some '.') :
    readFraction (fractionPart fraction ++ rest) = some (fraction, rest) := by
  by_cases hnil : fraction = []
  · rw [hnil, fractionPart, List.nil_append]
    cases rest with
    | nil => rfl
    | cons c rest =>
      rw [readFraction]
      rintro after heq
      injection heq with hc
      exact hpoint (by rw [hc]; rfl)
  · rw [fractionPart_of_ne_nil hnil, List.cons_append, readFraction,
      readDigits_append hdigits hnil hrest]

lemma readPower_of_endsNumeral {rest : List Char} (hrest : EndsNumeral rest) :
    readPower rest = some (none, rest) := by
  cases rest with
  | nil => rfl
  | cons c rest =>
    obtain ⟨-, -, hsmall, hcapital⟩ := hrest c rfl
    rw [readPower]
    · intro after heq
      injection heq with hc
      exact hsmall hc
    · intro after heq
      injection heq with hc
      exact hcapital hc

/-- Digits have no sign. -/
lemma readSign_digits {digits rest : List Char} (hdigits : Digits.allDigits digits = true)
    (hne : digits ≠ []) : readSign (digits ++ rest) = (false, digits ++ rest) := by
  obtain ⟨c, tail, rfl⟩ := List.exists_cons_of_ne_nil hne
  have hc : c.isDigit = true := Digits.isDigit_of_mem hdigits (List.mem_cons_self ..)
  rw [List.cons_append, readSign]
  · intro after heq
    injection heq with hminus
    rw [hminus] at hc
    exact absurd hc (by decide)
  · intro after heq
    injection heq with hplus
    rw [hplus] at hc
    exact absurd hc (by decide)

/-- The sign and the digits of a power are read back. -/
lemma readSigned_powerText (signed : Bool) (power : ℤ) {rest : List Char}
    (hrest : NoDigitNext rest) :
    readSigned (Layout.powerText signed power ++ rest)
      = some (some (decide (power < 0), Digits.write power.natAbs), rest) := by
  have hdigits := readDigits_append (Digits.allDigits_write power.natAbs)
    (Digits.write_ne_nil power.natAbs) hrest
  have hsign : readSign (Layout.powerText signed power ++ rest)
      = (decide (power < 0), Digits.write power.natAbs ++ rest) := by
    cases power with
    | ofNat p =>
      have hpos : decide (Int.ofNat p < 0) = false := decide_eq_false (by simp)
      rw [hpos]
      cases signed with
      | true => rfl
      | false => exact readSign_digits (Digits.allDigits_write p) (Digits.write_ne_nil p)
    | negSucc p =>
      have hneg : decide (Int.negSucc p < 0) = true := decide_eq_true (Int.negSucc_lt_zero p)
      rw [hneg]
      rfl
  rw [readSigned, hsign, hdigits]
  rfl

/-! ## Numerals from their parts -/

/-- A numeral is read from its parts; `tail` is what stands behind the fraction. -/
lemma readUnsigned_spelled (negative : Bool) {whole fraction tail rest : List Char}
    {power : Option (Bool × List Char)} (hwhole : WholePart whole)
    (hfraction : Digits.allDigits fraction = true) (hdigit : NoDigitNext tail)
    (hpoint : tail.head? ≠ some '.') (htail : readPower tail = some (power, rest)) :
    readUnsigned negative (whole ++ fractionPart fraction ++ tail)
      = some (⟨negative, whole, fraction, power⟩, rest) := by
  have hstop : NoDigitNext (fractionPart fraction ++ tail) := by
    by_cases hnil : fraction = []
    · rw [hnil, fractionPart, List.nil_append]
      exact hdigit
    · rw [fractionPart_of_ne_nil hnil]
      intro c hc
      cases hc
      rfl
  rw [List.append_assoc]
  simp only [readUnsigned, readWhole_append hwhole hstop,
    readFraction_append hfraction hdigit hpoint, htail, Option.bind_eq_bind, Option.bind_some]

/-- A numeral without a power. -/
lemma readUnsigned_plain (negative : Bool) {whole fraction rest : List Char}
    (hwhole : WholePart whole) (hfraction : Digits.allDigits fraction = true)
    (hrest : EndsNumeral rest) :
    readUnsigned negative (whole ++ fractionPart fraction ++ rest)
      = some (⟨negative, whole, fraction, none⟩, rest) :=
  readUnsigned_spelled negative hwhole hfraction hrest.noDigitNext
    (fun h => (hrest _ h).2.1 rfl) (readPower_of_endsNumeral hrest)

/-- A numeral with a power. -/
lemma readUnsigned_power (negative signed : Bool) {whole fraction rest : List Char} {mark : Char}
    (hmark : mark = 'e' ∨ mark = 'E') (power : ℤ) (hwhole : WholePart whole)
    (hfraction : Digits.allDigits fraction = true) (hrest : NoDigitNext rest) :
    readUnsigned negative
        (whole ++ fractionPart fraction ++ mark :: (Layout.powerText signed power ++ rest))
      = some (⟨negative, whole, fraction,
          some (decide (power < 0), Digits.write power.natAbs)⟩, rest) := by
  have hsigned := readSigned_powerText signed power hrest
  rcases hmark with rfl | rfl
  · refine readUnsigned_spelled negative hwhole hfraction ?_ (by simp) hsigned
    exact fun c hc => by cases hc; rfl
  · refine readUnsigned_spelled negative hwhole hfraction ?_ (by simp) hsigned
    exact fun c hc => by cases hc; rfl

/-- A text that opens as a numeral opens with no minus sign. -/
lemma readNumeral_of_readUnsigned {text : List Char} {result : Numeral × List Char}
    (h : readUnsigned false text = some result) : readNumeral text = some result := by
  rw [readNumeral]
  · exact h
  · rintro rest rfl
    have hnone : readUnsigned false ('-' :: rest) = none := by
      simp [readUnsigned, readWhole, readDigits, splitDigits]
    rw [hnone] at h
    cases h

/-! ## The grammar of numerals -/

/-- The signs of a power, and which of them are negative. -/
inductive SignText : List Char → Bool → Prop
  | none : SignText [] false
  | plus : SignText ['+'] false
  | minus : SignText ['-'] true

/-- A power of ten, or none. -/
inductive PowerText : List Char → Option (Bool × List Char) → Prop
  | none : PowerText [] none
  | mark {mark : Char} {sign digits : List Char} {negative : Bool}
    (hmark : mark = 'e' ∨ mark = 'E') (hsign : SignText sign negative)
    (hdigits : Digits.allDigits digits = true) (hne : digits ≠ []) :
    PowerText (mark :: (sign ++ digits)) (some (negative, digits))

/-- A numeral without its minus sign. -/
inductive UnsignedText (negative : Bool) : List Char → Numeral → Prop
  | parts {whole fraction body : List Char} {power : Option (Bool × List Char)}
    (hwhole : WholePart whole) (hfraction : Digits.allDigits fraction = true)
    (hpower : PowerText body power) :
    UnsignedText negative (whole ++ fractionPart fraction ++ body)
      ⟨negative, whole, fraction, power⟩

/-- A numeral. -/
inductive NumeralText : List Char → Numeral → Prop
  | plain {body : List Char} {n : Numeral} (h : UnsignedText false body n) : NumeralText body n
  | minus {body : List Char} {n : Numeral} (h : UnsignedText true body n) :
      NumeralText ('-' :: body) n

lemma SignText.readSign {sign digits : List Char} {negative : Bool} (h : SignText sign negative)
    (hdigits : Digits.allDigits digits = true) (hne : digits ≠ []) (rest : List Char) :
    readSign (sign ++ (digits ++ rest)) = (negative, digits ++ rest) := by
  cases h with
  | none =>
    rw [List.nil_append]
    exact readSign_digits hdigits hne
  | plus => rfl
  | minus => rfl

section Power

variable {body tail : List Char} {power : Option (Bool × List Char)}

/-- A power does not go on with the digits before it. -/
lemma PowerText.noDigitNext (h : PowerText body power) (htail : EndsNumeral tail) :
    NoDigitNext (body ++ tail) := by
  cases h with
  | none => exact htail.noDigitNext
  | mark hmark =>
    intro c hc
    injection hc with hc
    rcases hmark with rfl | rfl <;> (rw [← hc]; rfl)

/-- A power does not open with a point. -/
lemma PowerText.head?_ne_point (h : PowerText body power) (htail : EndsNumeral tail) :
    (body ++ tail).head? ≠ some '.' := by
  cases h with
  | none => exact fun hpoint => (htail _ hpoint).2.1 rfl
  | mark hmark => rcases hmark with rfl | rfl <;> simp

lemma PowerText.readPower (h : PowerText body power) (htail : EndsNumeral tail) :
    readPower (body ++ tail) = some (power, tail) := by
  cases h with
  | none => exact readPower_of_endsNumeral htail
  | @mark mark sign digits negative hmark hsign hdigits hne =>
    have hsigned : readSigned (sign ++ (digits ++ tail))
        = some (some (negative, digits), tail) := by
      rw [readSigned, hsign.readSign hdigits hne,
        readDigits_append hdigits hne htail.noDigitNext]
      rfl
    rw [List.cons_append, List.append_assoc]
    rcases hmark with rfl | rfl
    · exact hsigned
    · exact hsigned

end Power

lemma UnsignedText.readUnsigned {negative : Bool} {body tail : List Char} {n : Numeral}
    (h : UnsignedText negative body n) (htail : EndsNumeral tail) :
    readUnsigned negative (body ++ tail) = some (n, tail) := by
  obtain ⟨hwhole, hfraction, hpower⟩ := h
  rw [List.append_assoc]
  exact readUnsigned_spelled negative hwhole hfraction (hpower.noDigitNext htail)
    (hpower.head?_ne_point htail) (hpower.readPower htail)

/-- What stands for a numeral is read as it, whatever ends it. -/
lemma NumeralText.readNumeral {body tail : List Char} {n : Numeral} (h : NumeralText body n)
    (htail : EndsNumeral tail) : readNumeral (body ++ tail) = some (n, tail) := by
  cases h with
  | plain h => exact readNumeral_of_readUnsigned (h.readUnsigned htail)
  | minus h => exact h.readUnsigned htail

/-! ### Numerals taken apart -/

lemma of_readDigits {text digits rest : List Char} (h : readDigits text = some (digits, rest)) :
    text = digits ++ rest ∧ Digits.allDigits digits = true ∧ digits ≠ [] := by
  unfold readDigits splitDigits at h
  split at h
  · cases h
  · rename_i hne
    injection h with h
    injection h with hdigits hrest
    rw [← hdigits, ← hrest]
    exact ⟨List.takeWhile_append_dropWhile.symm, List.all_takeWhile, hne⟩

lemma of_readWhole {text whole rest : List Char} (h : readWhole text = some (whole, rest)) :
    text = whole ++ rest ∧ WholePart whole := by
  unfold readWhole at h
  split at h
  · cases h
  · rename_i hzero
    obtain ⟨htext, hdigits, hne⟩ := of_readDigits h
    refine ⟨htext, hdigits, hne, ?_⟩
    intro hhead
    match whole with
    | [c] => rw [Option.some.inj hhead]
    | c :: d :: tail =>
      obtain rfl : c = '0' := Option.some.inj hhead
      exact absurd h (hzero _ _ _)

lemma of_readFraction {text fraction rest : List Char}
    (h : readFraction text = some (fraction, rest)) :
    text = fractionPart fraction ++ rest ∧ Digits.allDigits fraction = true := by
  unfold readFraction at h
  split at h
  · obtain ⟨htext, hdigits, hne⟩ := of_readDigits h
    rw [htext, fractionPart_of_ne_nil hne]
    exact ⟨rfl, hdigits⟩
  · injection h with h
    injection h with hfraction hrest
    rw [← hfraction, ← hrest]
    exact ⟨rfl, rfl⟩

/-- What is read as a power with its sign stands for it. -/
lemma exists_signText {text rest : List Char} {power : Option (Bool × List Char)}
    (h : readSigned text = some (power, rest)) :
    ∃ sign digits negative, text = sign ++ digits ++ rest ∧ SignText sign negative ∧
      Digits.allDigits digits = true ∧ digits ≠ [] ∧ power = some (negative, digits) := by
  rw [readSigned, Option.map_eq_some_iff] at h
  obtain ⟨⟨digits, after⟩, hread, heq⟩ := h
  injection heq with hpower hrest
  subst hpower hrest
  obtain ⟨htext, hdigits, hne⟩ := of_readDigits hread
  obtain ⟨sign, hsplit, hsign⟩ : ∃ sign, text = sign ++ (readSign text).2 ∧
      SignText sign (readSign text).1 := by
    unfold readSign
    split
    · exact ⟨['-'], rfl, .minus⟩
    · exact ⟨['+'], rfl, .plus⟩
    · exact ⟨[], rfl, .none⟩
  refine ⟨sign, digits, _, ?_, hsign, hdigits, hne, rfl⟩
  rw [List.append_assoc, ← htext, ← hsplit]

lemma exists_powerText {text rest : List Char} {power : Option (Bool × List Char)}
    (h : readPower text = some (power, rest)) :
    ∃ body, text = body ++ rest ∧ PowerText body power := by
  unfold readPower at h
  split at h
  · obtain ⟨sign, digits, negative, rfl, hsign, hdigits, hne, rfl⟩ := exists_signText h
    exact ⟨_, rfl, .mark (.inl rfl) hsign hdigits hne⟩
  · obtain ⟨sign, digits, negative, rfl, hsign, hdigits, hne, rfl⟩ := exists_signText h
    exact ⟨_, rfl, .mark (.inr rfl) hsign hdigits hne⟩
  · injection h with h
    injection h with hpower hrest
    rw [← hpower, ← hrest]
    exact ⟨[], rfl, .none⟩

lemma exists_unsignedText {negative : Bool} {text rest : List Char} {n : Numeral}
    (h : readUnsigned negative text = some (n, rest)) :
    ∃ body, text = body ++ rest ∧ UnsignedText negative body n := by
  simp only [readUnsigned, Option.bind_eq_bind, Option.bind_eq_some_iff, Option.some.injEq,
    Prod.mk.injEq, Prod.exists] at h
  obtain ⟨whole, after, hwhole, fraction, after', hfraction, power, after'', hpower, rfl, rfl⟩ := h
  obtain ⟨rfl, hwholePart⟩ := of_readWhole hwhole
  obtain ⟨rfl, hdigits⟩ := of_readFraction hfraction
  obtain ⟨body, rfl, hbody⟩ := exists_powerText hpower
  refine ⟨whole ++ fractionPart fraction ++ body, ?_, .parts hwholePart hdigits hbody⟩
  simp only [List.append_assoc]

/-- What is read as a numeral stands for it. -/
lemma exists_numeralText {text rest : List Char} {n : Numeral}
    (h : readNumeral text = some (n, rest)) :
    ∃ body, text = body ++ rest ∧ NumeralText body n := by
  unfold readNumeral at h
  split at h
  · obtain ⟨body, rfl, hbody⟩ := exists_unsignedText h
    exact ⟨'-' :: body, rfl, .minus hbody⟩
  · obtain ⟨body, rfl, hbody⟩ := exists_unsignedText h
    exact ⟨body, rfl, .plain hbody⟩

/-! ### Their characters -/

/-- The characters of numerals. -/
def NumeralChar (c : Char) : Prop :=
  c.isDigit = true ∨ c ∈ ['-', '+', '.', 'e', 'E']

lemma numeralChar_of_allDigits {digits : List Char} (h : Digits.allDigits digits = true) :
    ∀ c ∈ digits, NumeralChar c :=
  fun _ hc => .inl (Digits.isDigit_of_mem h hc)

lemma SignText.chars {sign : List Char} {negative : Bool} (h : SignText sign negative) :
    ∀ c ∈ sign, NumeralChar c := by
  cases h <;> simp [NumeralChar]

lemma PowerText.chars {body : List Char} {power : Option (Bool × List Char)}
    (h : PowerText body power) : ∀ c ∈ body, NumeralChar c := by
  cases h with
  | none => exact fun _ hc => nomatch hc
  | mark hmark hsign hdigits =>
    intro c hc
    rcases List.mem_cons.mp hc with rfl | hc
    · rcases hmark with rfl | rfl <;> simp [NumeralChar]
    · rcases List.mem_append.mp hc with hc | hc
      · exact hsign.chars c hc
      · exact numeralChar_of_allDigits hdigits c hc

lemma UnsignedText.chars {negative : Bool} {body : List Char} {n : Numeral}
    (h : UnsignedText negative body n) : ∀ c ∈ body, NumeralChar c := by
  cases h with
  | @parts whole fraction body power hwhole hfraction hpower =>
    have hpart : ∀ c ∈ fractionPart fraction, NumeralChar c := by
      intro c hc
      cases fraction with
      | nil => cases hc
      | cons =>
        rcases List.mem_cons.mp hc with rfl | hc
        · simp [NumeralChar]
        · exact numeralChar_of_allDigits hfraction c hc
    intro c hc
    rcases List.mem_append.mp hc with hc | hc
    · rcases List.mem_append.mp hc with hc | hc
      · exact numeralChar_of_allDigits hwhole.digits c hc
      · exact hpart c hc
    · exact hpower.chars c hc

lemma NumeralText.chars {body : List Char} {n : Numeral} (h : NumeralText body n) :
    ∀ c ∈ body, NumeralChar c := by
  cases h with
  | plain h => exact h.chars
  | minus h =>
    intro c hc
    rcases List.mem_cons.mp hc with rfl | hc
    · simp [NumeralChar]
    · exact h.chars c hc

/-! ## Laid-out digits -/

section Layouts

variable {digits : List Char}

/-- Laid out in place, digits keep their value and the power of the leading one. -/
lemma exists_parts_of_inPlace (hdigits : Digits.allDigits digits = true) (hne : digits ≠ [])
    (hzero : digits.head? ≠ some '0') (power : ℤ) :
    ∃ whole fraction, Layout.inPlace digits power = whole ++ fractionPart fraction ∧
      WholePart whole ∧ Digits.allDigits fraction = true ∧ fraction ≠ [] ∧
      (Digits.value (whole ++ fraction) : ℚ) * 10 ^ (-(fraction.length : ℤ))
        = Digits.value digits * 10 ^ (power - digits.length + 1) := by
  have hten : (10 : ℚ) ≠ 0 := by norm_num
  cases power with
  | ofNat p =>
    have htake : Digits.allDigits (digits.take (p + 1)) = true := by
      rw [Digits.allDigits, List.all_eq_true]
      exact fun c hc => Digits.isDigit_of_mem hdigits (List.mem_of_mem_take hc)
    have hhead : (digits.take (p + 1)
        ++ List.replicate (p + 1 - (digits.take (p + 1)).length) '0').head? = digits.head? := by
      rw [List.head?_append_of_ne_nil _ (by simpa using hne), List.head?_take,
        if_neg (Nat.succ_ne_zero p)]
    have hwhole : WholePart (digits.take (p + 1)
        ++ List.replicate (p + 1 - (digits.take (p + 1)).length) '0') := by
      refine ⟨?_, ?_, fun h => absurd (hhead ▸ h) hzero⟩
      · exact Digits.allDigits_append_zeros htake _
      · simp [hne]
    by_cases hlong : digits.drop (p + 1) = []
    · -- All digits stand before the point, and zeros fill the places up to it.
      have hle : digits.length ≤ p + 1 := List.drop_eq_nil_iff.mp hlong
      refine ⟨_, ['0'], ?_, hwhole, rfl, List.cons_ne_nil _ _, ?_⟩
      · simp only [Layout.inPlace, if_pos hlong]
        rfl
      · rw [List.take_of_length_le hle, List.append_assoc,
          show ['0'] = List.replicate 1 '0' from rfl, List.replicate_append_replicate,
          Digits.value_append_zeros, List.length_replicate]
        push_cast
        rw [← zpow_natCast (10 : ℚ), mul_right_comm, ← zpow_add₀ hten, mul_comm]
        congr 2
        simp only [Int.ofNat_eq_natCast]
        omega
    · have hlt : p + 1 < digits.length := by
        rw [List.drop_eq_nil_iff] at hlong
        omega
      have htakelength : (digits.take (p + 1)).length = p + 1 :=
        List.length_take_of_le hlt.le
      refine ⟨_, digits.drop (p + 1), ?_, hwhole, ?_, hlong, ?_⟩
      · simp only [Layout.inPlace, if_neg hlong, fractionPart_of_ne_nil hlong]
      · rw [Digits.allDigits, List.all_eq_true]
        exact fun c hc => Digits.isDigit_of_mem hdigits (List.mem_of_mem_drop hc)
      · rw [htakelength, Nat.sub_self, List.replicate_zero, List.append_nil, List.take_append_drop,
          List.length_drop]
        congr 2
        simp only [Int.ofNat_eq_natCast]
        omega
  | negSucc p =>
    have hfraction : List.replicate p '0' ++ digits ≠ [] := by simp [hne]
    refine ⟨['0'], List.replicate p '0' ++ digits, ?_, WholePart.zero, ?_, hfraction, ?_⟩
    · rw [fractionPart_of_ne_nil hfraction]
      rfl
    · exact Digits.allDigits_zeros_append hdigits p
    · rw [show ['0'] = List.replicate 1 '0' from rfl, Digits.value_replicate_zero_append,
        Digits.value_replicate_zero_append, List.length_append, List.length_replicate]
      congr 2
      simp only [Int.negSucc_eq]
      push_cast
      ring

/-- In front of a power stands one digit, which is not zero, and what follows it as the fraction. -/
lemma exists_parts_of_scientific (l : Layout) (hdigits : Digits.allDigits digits = true)
    (hne : digits ≠ []) (hzero : digits.head? ≠ some '0') (power : ℤ) :
    ∃ c fraction, l.scientific digits power
        = [c] ++ fractionPart fraction ++ l.mark :: Layout.powerText l.signed power ∧
      WholePart [c] ∧ c ≠ '0' ∧ Digits.allDigits fraction = true ∧
      (l.pointed = true → fraction ≠ []) ∧
      (Digits.value ([c] ++ fraction) : ℚ) * 10 ^ (power - fraction.length)
        = Digits.value digits * 10 ^ (power - digits.length + 1) := by
  obtain ⟨c, tail, rfl⟩ := List.exists_cons_of_ne_nil hne
  have hc : c ≠ '0' := fun h => hzero (congrArg some h)
  have hwhole : WholePart [c] := by
    refine ⟨?_, List.cons_ne_nil _ _, fun h => absurd h hzero⟩
    have hdigit : c.isDigit = true := Digits.isDigit_of_mem hdigits (List.mem_cons_self ..)
    simp [Digits.allDigits, hdigit]
  cases tail with
  | nil =>
    by_cases hpointed : l.pointed = true
    · refine ⟨c, ['0'], ?_, hwhole, hc, rfl, fun _ => List.cons_ne_nil _ _, ?_⟩
      · simp [Layout.scientific, hpointed, fractionPart]
      · have hvalue := Digits.value_append_zeros [c] 1
        rw [List.replicate_one] at hvalue
        rw [hvalue]
        push_cast
        rw [mul_comm (10 : ℚ), mul_assoc, ← zpow_one_add₀ (by norm_num)]
        congr 2
        simp
    · refine ⟨c, [], ?_, hwhole, hc, rfl, fun h => absurd h hpointed, ?_⟩
      · simp [Layout.scientific, hpointed, fractionPart]
      · simp
  | cons e tail =>
    refine ⟨c, e :: tail, ?_, hwhole, hc, ?_, fun _ => List.cons_ne_nil _ _, ?_⟩
    · simp [Layout.scientific, fractionPart]
    · rw [Digits.allDigits, List.all_eq_true]
      exact fun d hd => Digits.isDigit_of_mem hdigits (List.mem_cons_of_mem c hd)
    · congr 2
      simp only [List.length_cons]
      push_cast
      ring

end Layouts

/-! ## Whole texts of numbers -/

/-- The value of a decimal, from the digits that are left once closing zeros are trimmed. -/
lemma value_eq_trimmed {d : Decimal} :
    d.value = Digits.value (Digits.trimZeros (Digits.write d.coefficient))
      * 10 ^ (d.leadingExponent - (Digits.trimZeros (Digits.write d.coefficient)).length + 1) := by
  have hcoefficient : d.coefficient
      = 10 ^ ((Digits.write d.coefficient).length
          - (Digits.trimZeros (Digits.write d.coefficient)).length)
        * Digits.value (Digits.trimZeros (Digits.write d.coefficient)) := by
    rw [← Digits.value_append_zeros, Digits.trimZeros_append_replicate, Digits.value_write]
  have hle := Digits.length_trimZeros_le (Digits.write d.coefficient)
  rw [Decimal.value]
  conv_lhs => rw [hcoefficient]
  push_cast
  rw [← zpow_natCast (10 : ℚ), mul_comm ((10 : ℚ) ^ _), mul_assoc, ← zpow_add₀ (by norm_num)]
  congr 2
  rw [Decimal.leadingExponent]
  omega

/-- The parts of the text of a decimal: digits before the point and digits behind it and, where the
leading digit is out of the range that is written in place, the power of that digit. -/
structure HasLayout (l : Layout) (d : Decimal) (whole fraction : List Char) (power : Option ℤ) :
    Prop where
  text : l.decimalText d = whole ++ fractionPart fraction
    ++ power.elim [] fun e => l.mark :: Layout.powerText l.signed e
  whole_part : WholePart whole
  fraction_digits : Digits.allDigits fraction = true
  pointed : l.pointed = true → fraction ≠ []
  power_iff : power.isSome = true ↔
    d.coefficient ≠ 0 ∧ ¬ (l.lowest ≤ d.leadingExponent ∧ d.leadingExponent < l.past)
  leading : power.isSome = true → ∃ c, whole = [c] ∧ c ≠ '0'
  value : (Decimal.mk (Digits.value (whole ++ fraction)) (power.getD 0 - fraction.length)).value
    = d.value

/-- Every decimal is laid out with some parts. -/
theorem exists_hasLayout (l : Layout) (d : Decimal) :
    ∃ whole fraction power, HasLayout l d whole fraction power := by
  by_cases hd : d.coefficient = 0
  · refine ⟨['0'], ['0'], none, ?_, .zero, rfl, fun _ => List.cons_ne_nil _ _, ?_, nofun, ?_⟩
    · rw [Layout.decimalText, if_pos hd]
      rfl
    · exact iff_of_false nofun fun h => h.1 hd
    · rw [(Decimal.value_eq_zero_iff d).mpr hd, Decimal.value_eq_zero_iff]
      rfl
  · have hdigits := Digits.allDigits_trimZeros (Digits.allDigits_write d.coefficient)
    have hhead : (Digits.trimZeros (Digits.write d.coefficient)).head? ≠ some '0' := by
      rw [Digits.head?_trimZeros_write hd]
      exact Digits.head?_write_ne_zero hd
    have hne : Digits.trimZeros (Digits.write d.coefficient) ≠ [] :=
      Digits.trimZeros_write_ne_nil hd
    by_cases hplace : l.lowest ≤ d.leadingExponent ∧ d.leadingExponent < l.past
    · obtain ⟨whole, fraction, htext, hwhole, hfraction, hfractionne, hvalue⟩ :=
        exists_parts_of_inPlace hdigits hne hhead d.leadingExponent
      refine ⟨whole, fraction, none, ?_, hwhole, hfraction, fun _ => hfractionne, ?_, nofun, ?_⟩
      · rw [Layout.decimalText, if_neg hd]
        simp only [if_pos hplace]
        rw [htext, Option.elim_none, List.append_nil]
      · exact iff_of_false nofun fun h => h.2 hplace
      · rw [Decimal.value, value_eq_trimmed, ← hvalue, Option.getD_none, zero_sub]
    · obtain ⟨c, fraction, htext, hwhole, hc, hfraction, hpointed, hvalue⟩ :=
        exists_parts_of_scientific l hdigits hne hhead d.leadingExponent
      refine ⟨[c], fraction, some d.leadingExponent, ?_, hwhole, hfraction, hpointed, ?_,
        fun _ => ⟨c, rfl, hc⟩, ?_⟩
      · rw [Layout.decimalText, if_neg hd]
        simp only [if_neg hplace]
        rw [htext, Option.elim_some]
      · exact iff_of_true rfl ⟨hd, hplace⟩
      · rw [Decimal.value, value_eq_trimmed, ← hvalue, Option.getD_some]

/-- A decimal is read back from its text with its value. -/
theorem readUnsigned_decimalText {l : Layout} (hmark : l.mark = 'e' ∨ l.mark = 'E')
    (negative : Bool) (d : Decimal) :
    ∃ n, (∀ rest, EndsNumeral rest →
        readUnsigned negative (l.decimalText d ++ rest) = some (n, rest)) ∧
      n.negative = negative ∧ n.size.value = d.value := by
  obtain ⟨whole, fraction, power, h⟩ := exists_hasLayout l d
  have hvalue := h.value
  rw [h.text]
  cases power with
  | none =>
    refine ⟨⟨negative, whole, fraction, none⟩, fun rest hrest => ?_, rfl, hvalue⟩
    rw [Option.elim_none, List.append_nil]
    exact readUnsigned_plain negative h.whole_part h.fraction_digits hrest
  | some e =>
    refine ⟨⟨negative, whole, fraction, some (decide (e < 0), Digits.write e.natAbs)⟩,
      fun rest hrest => ?_, rfl, ?_⟩
    · rw [Option.elim_some, List.append_assoc, List.cons_append]
      exact readUnsigned_power negative l.signed hmark e h.whole_part h.fraction_digits
        hrest.noDigitNext
    · have hpower : Numeral.writtenPower ⟨negative, whole, fraction,
          some (decide (e < 0), Digits.write e.natAbs)⟩ = e := by
        simp only [Numeral.writtenPower, Digits.value_write, decide_eq_true_eq]
        split <;> omega
      rw [← hvalue, Numeral.size, hpower, Option.getD_some]

/-- A finite number is read back from its text, whatever follows it. -/
theorem readNumeral_finiteText {l : Layout} (hmark : l.mark = 'e' ∨ l.mark = 'E') {x : Binary64}
    (hx : x.isFinite = true) :
    ∃ n, (∀ rest, EndsNumeral rest → readNumeral (l.finiteText x ++ rest) = some (n, rest)) ∧
      n.binary? = some x := by
  obtain ⟨n, hread, hnegative, hvalue⟩ :=
    readUnsigned_decimalText hmark x.isNegative (x.shortest l.tie)
  refine ⟨n, fun rest hrest => ?_, ?_⟩
  · have hnumeral := hread rest hrest
    rw [Layout.finiteText]
    cases hsign : x.isNegative with
    | true =>
      rw [hsign] at hnumeral
      exact hnumeral
    | false =>
      rw [hsign] at hnumeral
      exact readNumeral_of_readUnsigned hnumeral
  · rw [Numeral.binary?, hnegative]
    exact Binary64.ofDecimal?_of_value hx hvalue

/-- Different finite numbers are written differently. -/
theorem finiteText_injective {l : Layout} (hmark : l.mark = 'e' ∨ l.mark = 'E') {x y : Binary64}
    (hx : x.isFinite = true) (hy : y.isFinite = true) (h : l.finiteText x = l.finiteText y) :
    x = y := by
  obtain ⟨n, hreadx, hbinaryx⟩ := readNumeral_finiteText hmark hx
  obtain ⟨m, hready, hbinaryy⟩ := readNumeral_finiteText hmark hy
  have hsame : some (n, ([] : List Char)) = some (m, []) := by
    rw [← hreadx [] endsNumeral_nil, ← hready [] endsNumeral_nil, h]
  have hnumeral : n = m := congrArg Prod.fst (Option.some.inj hsame)
  rw [hnumeral, hbinaryy] at hbinaryx
  exact (Option.some.inj hbinaryx).symm

end Admission.Json
