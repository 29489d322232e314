import Admission.Text.Blank
import Admission.Text.Digits
import Mathlib.Tactic
import Mathlib.Data.List.DropRight

/-!
# Facts about decimal digits

What a run of digits is and is not: it holds no blank, no point and no letter, so readers stop
right behind it, and of a text with blanks around it nothing but these is trimmed (`isCore_iff`).
A written number opens with a zero only if it is zero (`head?_write_ne_zero`), and digits that do so
no more than that are what their number is written with (`write_value`). The zeros that `trimZeros`
takes away are told by their number alone (`trimZeros_append_replicate`).
-/

namespace Admission.Text

/-! ## Digits among the characters -/

/-- A digit is one of ten code points. -/
lemma toNat_of_isDigit {c : Char} (h : c.isDigit = true) : 48 ≤ c.toNat ∧ c.toNat ≤ 57 := by
  simp only [Char.isDigit, Bool.and_eq_true, decide_eq_true_eq] at h
  exact ⟨UInt32.le_iff_toNat_le.mp h.1, UInt32.le_iff_toNat_le.mp h.2⟩

/-- A digit is no character that is none. -/
lemma ne_of_isDigit {c d : Char} (h : c.isDigit = true) (hd : d.isDigit = false) : c ≠ d := by
  rintro rfl
  exact absurd h (by simp [hd])

/-- A digit is no blank. -/
lemma isBlank_of_isDigit {c : Char} (h : c.isDigit = true) : isBlank c = false := by
  have hc := toNat_of_isDigit h
  simp only [isBlank, Bool.or_eq_false_iff, Bool.and_eq_false_iff, decide_eq_false_iff_not,
    beq_eq_false_iff_ne]
  omega

/-! ## Blanks around a text -/

/-- A text is its core with blanks around it, and the core neither opens nor closes with one. -/
structure IsCore (text core : List Char) : Prop where
  exists_around : ∃ before after, text = before ++ core ++ after ∧
    (∀ c ∈ before, isBlank c = true) ∧ ∀ c ∈ after, isBlank c = true
  head : ∀ c, core.head? = some c → isBlank c = false
  last : ∀ c, core.getLast? = some c → isBlank c = false

/-- A core is what is left of its text once that is trimmed. -/
theorem IsCore.trim_eq {text core : List Char} (h : IsCore text core) : trim text = core := by
  obtain ⟨before, after, rfl, hbefore, hafter⟩ := h.exists_around
  have hstart : trimStart (before ++ core ++ after) = trimStart (core ++ after) := by
    rw [trimStart, List.append_assoc, List.dropWhile_append_of_pos hbefore, trimStart]
  have hend : trimEnd (core ++ after) = core := by
    rw [trimEnd, List.reverse_append,
      List.dropWhile_append_of_pos fun c hc => hafter c (List.mem_reverse.mp hc)]
    show List.rdropWhile isBlank core = core
    rw [List.rdropWhile_eq_self_iff]
    intro hne
    rw [h.last _ (List.getLast?_eq_some_getLast hne)]
    exact Bool.false_ne_true
  rw [trim, hstart]
  cases core with
  | nil =>
    have hnil : trimStart after = [] := List.dropWhile_eq_nil_iff.mpr hafter
    rw [List.nil_append, hnil]
    rfl
  | cons c rest => rw [List.cons_append, trimStart_cons (h.head c rfl), ← List.cons_append, hend]

/-- What is trimmed away are blanks. -/
lemma exists_blanks_around (text : List Char) :
    ∃ before after, text = before ++ trim text ++ after ∧ (∀ c ∈ before, isBlank c = true) ∧
      ∀ c ∈ after, isBlank c = true := by
  refine ⟨text.takeWhile isBlank, (trimStart text).rtakeWhile isBlank, ?_,
    fun c hc => List.mem_takeWhile_imp hc, fun c hc => List.mem_rtakeWhile_imp hc⟩
  have hend : trim text ++ (trimStart text).rtakeWhile isBlank = trimStart text :=
    List.rdropWhile_append_rtakeWhile
  rw [List.append_assoc, hend]
  exact List.takeWhile_append_dropWhile.symm

/-- What is left of a text once it is trimmed is its core. -/
theorem isCore_trim (text : List Char) : IsCore text (trim text) where
  exists_around := exists_blanks_around text
  head c hc := by
    have hprefix : trim text <+: trimStart text := List.rdropWhile_prefix isBlank (trimStart text)
    obtain ⟨rest, hrest⟩ := hprefix
    have hstart : (trimStart text).head? = some c := by
      rw [← hrest, List.head?_append, hc]
      rfl
    unfold trimStart at hstart
    have hnot := List.head?_dropWhile_not isBlank text
    rw [hstart] at hnot
    simpa using hnot
  last c hc := by
    obtain ⟨hne, hlast⟩ := List.mem_getLast?_eq_getLast hc
    have hnot := List.rdropWhile_last_not isBlank (trimStart text) hne
    rw [hlast]
    exact Bool.eq_false_iff.mpr hnot

/-- A text has one core. -/
lemma isCore_iff {text core : List Char} : IsCore text core ↔ trim text = core := by
  refine ⟨IsCore.trim_eq, ?_⟩
  rintro rfl
  exact isCore_trim text

/-- No character but a blank is trimmed. -/
lemma mem_trim_iff {c : Char} (h : isBlank c = false) {text : List Char} :
    c ∈ trim text ↔ c ∈ text := by
  obtain ⟨before, after, htext, hbefore, hafter⟩ := exists_blanks_around text
  have hblanks : ∀ blanks : List Char, (∀ d ∈ blanks, isBlank d = true) → c ∉ blanks := by
    intro blanks hall hc
    rw [hall c hc] at h
    exact nomatch h
  conv_rhs => rw [htext]
  simp [hblanks before hbefore, hblanks after hafter]

/-- Blanks around a text without blanks are what is trimmed. -/
lemma trim_append {before core after : List Char} (hbefore : ∀ c ∈ before, isBlank c = true)
    (hcore : ∀ c ∈ core, isBlank c = false) (hafter : ∀ c ∈ after, isBlank c = true) :
    trim (before ++ core ++ after) = core :=
  IsCore.trim_eq {
    exists_around := ⟨before, after, rfl, hbefore, hafter⟩
    head := fun c hc => hcore c (List.mem_of_head? hc)
    last := fun c hc => hcore c (List.mem_of_getLast? hc) }

/-- A text without blanks is not trimmed. -/
lemma trim_eq_self {text : List Char} (h : ∀ c ∈ text, isBlank c = false) : trim text = text := by
  have htrim := trim_append (List.forall_mem_nil _) h (List.forall_mem_nil _)
  rwa [List.nil_append, List.append_nil] at htrim

namespace Digits

/-! ## Runs of digits -/

lemma allDigits_append (a b : List Char) :
    allDigits (a ++ b) = (allDigits a && allDigits b) := by
  simp [allDigits]

lemma isDigit_of_mem {c : Char} {text : List Char} (h : allDigits text = true) (hc : c ∈ text) :
    c.isDigit = true :=
  List.all_eq_true.mp h c hc

lemma allDigits_replicate_zero (n : ℕ) : allDigits (List.replicate n '0') = true := by
  rw [allDigits, List.all_eq_true]
  intro c hc
  rw [List.eq_of_mem_replicate hc]
  rfl

/-- Zeros behind digits are digits too. -/
lemma allDigits_append_zeros {digits : List Char} (h : allDigits digits = true) (n : ℕ) :
    allDigits (digits ++ List.replicate n '0') = true := by
  rw [allDigits_append, h, allDigits_replicate_zero]
  rfl

/-- Zeros in front of digits are digits too. -/
lemma allDigits_zeros_append {digits : List Char} (h : allDigits digits = true) (n : ℕ) :
    allDigits (List.replicate n '0' ++ digits) = true := by
  rw [allDigits_append, h, allDigits_replicate_zero]
  rfl

/-- Zeros that stand before a number do not count. -/
lemma value_replicate_zero_append (n : ℕ) (digits : List Char) :
    value (List.replicate n '0' ++ digits) = value digits := by
  rw [value_append, value, Nat.ofDigitChars_replicate_zero, Nat.mul_zero, Nat.mul_zero,
    Nat.zero_add]

/-! ## Written numbers -/

lemma write_ne_nil (n : ℕ) : write n ≠ [] := Nat.toDigits_ne_nil

/-- Different numbers are written differently. -/
lemma write_injective : Function.Injective write :=
  Function.LeftInverse.injective value_write

/-- Only zero is written with a zero in front. -/
theorem head?_write_ne_zero {n : ℕ} (hn : n ≠ 0) : (write n).head? ≠ some '0' := by
  induction n using Nat.strong_induction_on with
  | _ n ih =>
    by_cases hlt : n < 10
    · rw [write, Nat.toDigits_of_lt_base hlt, List.head?_cons, ne_eq, Option.some.injEq]
      interval_cases n <;> first | exact absurd rfl hn | decide
    · have hle : 10 ≤ n := Nat.le_of_not_lt hlt
      have hhead : (write n).head? = (write (n / 10)).head? := by
        rw [write, Nat.toDigits_of_base_le (by decide) hle,
          List.head?_append_of_ne_nil _ Nat.toDigits_ne_nil]
        rfl
      rw [hhead]
      exact ih (n / 10) (by omega) (by omega)

/-- The number of digits is the power of the leading one, and one more. -/
theorem length_write {n : ℕ} (hn : n ≠ 0) : (write n).length = Nat.log 10 n + 1 := by
  have hle : (write n).length ≤ Nat.log 10 n + 1 :=
    (Nat.length_toDigits_le_iff (by decide) (by omega)).mpr (Nat.lt_pow_succ_log_self (by decide) n)
  have hge : ¬ (write n).length ≤ Nat.log 10 n := by
    intro hshort
    by_cases hpos : 0 < Nat.log 10 n
    · have hlt : n < 10 ^ Nat.log 10 n :=
        (Nat.length_toDigits_le_iff (by decide) hpos).mp hshort
      exact absurd (Nat.pow_log_le_self 10 hn) (Nat.not_le.mpr hlt)
    · have hnonempty := List.length_pos_iff.mpr (write_ne_nil n)
      omega
  omega

/-! ## Digits told by their number -/

/-- A digit counts from zero on. -/
lemma value_singleton (c : Char) : value [c] = c.toNat - 48 := by
  rw [value, Nat.ofDigitChars_cons, Nat.ofDigitChars_nil]
  simp

/-- The leading digit counts the highest power. -/
lemma value_cons (c : Char) (digits : List Char) :
    value (c :: digits) = 10 ^ digits.length * (c.toNat - 48) + value digits := by
  rw [← List.singleton_append, value_append, value_singleton]

/-- There are as many numbers as strings of so many digits. -/
lemma value_lt {digits : List Char} (h : allDigits digits = true) :
    value digits < 10 ^ digits.length := by
  induction digits with
  | nil => decide
  | cons c digits ih =>
    rw [allDigits, List.all_cons, Bool.and_eq_true] at h
    have hc := toNat_of_isDigit h.1
    have hrest := ih h.2
    have hle : 10 ^ digits.length * (c.toNat - 48) ≤ 10 ^ digits.length * 9 :=
      Nat.mul_le_mul_left _ (by omega)
    rw [value_cons, List.length_cons, pow_succ]
    omega

/-- Strings of equally many digits are told apart by their numbers. -/
theorem eq_of_value_eq {a b : List Char} (ha : allDigits a = true) (hb : allDigits b = true)
    (hlength : a.length = b.length) (h : value a = value b) : a = b := by
  induction a generalizing b with
  | nil => exact (List.length_eq_zero_iff.mp hlength.symm).symm
  | cons c a ih =>
    obtain ⟨d, b, rfl⟩ := List.exists_cons_of_length_eq_add_one hlength.symm
    have hsame : a.length = b.length := Nat.succ.inj hlength
    rw [allDigits, List.all_cons, Bool.and_eq_true] at ha hb
    have hc := toNat_of_isDigit ha.1
    have hd := toNat_of_isDigit hb.1
    have hpos : 0 < 10 ^ b.length := Nat.pow_pos (by omega)
    have hlta : value a < 10 ^ b.length := hsame ▸ value_lt ha.2
    have hltb : value b < 10 ^ b.length := value_lt hb.2
    rw [value_cons, value_cons, hsame] at h
    -- Quotient and remainder by the power of the leading digit.
    have hdigit := congrArg (· / 10 ^ b.length) h
    have hrest := congrArg (· % 10 ^ b.length) h
    simp only [Nat.mul_add_div hpos, Nat.div_eq_of_lt hlta, Nat.div_eq_of_lt hltb,
      Nat.add_zero] at hdigit
    simp only [Nat.mul_add_mod, Nat.mod_eq_of_lt hlta, Nat.mod_eq_of_lt hltb] at hrest
    have hchar : c = d := Char.toNat_inj.mp (by omega)
    rw [hchar, ih ha.2 hb.2 hsame hrest]

/-- Digits without a superfluous zero in front are what their number is written with. -/
theorem write_value {digits : List Char} (h : allDigits digits = true) (hne : digits ≠ [])
    (hzero : digits.head? = some '0' → digits = ['0']) : write (value digits) = digits := by
  obtain ⟨c, rest, rfl⟩ := List.exists_cons_of_ne_nil hne
  by_cases hc : c = '0'
  · rw [hzero (by rw [hc]; rfl)]
    rfl
  · have hdigit := toNat_of_isDigit (isDigit_of_mem h (List.mem_cons_self ..))
    have hleading : 1 ≤ c.toNat - 48 := by
      have hne48 : c.toNat ≠ '0'.toNat := fun heq => hc (Char.toNat_inj.mp heq)
      simp at hne48
      omega
    have hlow : 10 ^ rest.length ≤ value (c :: rest) := by
      rw [value_cons]
      exact (Nat.le_mul_of_pos_right _ hleading).trans (Nat.le_add_right _ _)
    have hhigh := value_lt h
    have hpos : value (c :: rest) ≠ 0 := by
      have := Nat.pow_pos (n := rest.length) (show 0 < 10 by omega)
      omega
    apply eq_of_value_eq (allDigits_write _) h
    · rw [length_write hpos, List.length_cons, Nat.log_eq_of_pow_le_of_lt_pow hlow hhigh]
    · exact value_write _

/-- The digits without the zeros in front of them, or one zero if there is nothing else. -/
def stripped (digits : List Char) : List Char :=
  if digits.dropWhile (· == '0') = [] then ['0'] else digits.dropWhile (· == '0')

/-- The number of a string of digits is written without the zeros in front. -/
theorem write_value_eq_stripped {digits : List Char} (h : allDigits digits = true) :
    write (value digits) = stripped digits := by
  have hzeros : digits.takeWhile (· == '0')
      = List.replicate (digits.takeWhile (· == '0')).length '0' := by
    refine List.eq_replicate_iff.mpr ⟨rfl, fun c hc => ?_⟩
    exact beq_iff_eq.mp (List.mem_takeWhile_imp (p := (· == '0')) hc)
  have hvalue : value digits = value (digits.dropWhile (· == '0')) := by
    conv_lhs => rw [← List.takeWhile_append_dropWhile (p := (· == '0')) (l := digits), hzeros]
    exact value_replicate_zero_append _ _
  rw [hvalue]
  unfold stripped
  split
  · rename_i hnil
    rw [hnil]
    rfl
  · rename_i hne
    apply write_value
    · rw [allDigits, List.all_eq_true]
      exact fun c hc => isDigit_of_mem h ((List.dropWhile_sublist _).subset hc)
    · exact hne
    · intro hhead
      have hnot := List.head?_dropWhile_not (· == '0') digits
      rw [hhead] at hnot
      exact absurd hnot (by decide)

/-! ## Zeros that close a text -/

/-- What is trimmed away are zeros, as many as the text became shorter. -/
theorem trimZeros_append_replicate (text : List Char) :
    trimZeros text ++ List.replicate (text.length - (trimZeros text).length) '0' = text := by
  have hsplit : trimZeros text ++ List.rtakeWhile (· == '0') text = text :=
    List.rdropWhile_append_rtakeWhile
  have hlength : (List.rtakeWhile (· == '0') text).length
      = text.length - (trimZeros text).length := by
    have hsum := congrArg List.length hsplit
    rw [List.length_append] at hsum
    omega
  have hzeros : List.rtakeWhile (· == '0') text
      = List.replicate (text.length - (trimZeros text).length) '0' := by
    refine List.eq_replicate_iff.mpr ⟨hlength, fun c hc => ?_⟩
    simpa using List.mem_rtakeWhile_imp hc
  rw [← hzeros, hsplit]

lemma length_trimZeros_le (text : List Char) : (trimZeros text).length ≤ text.length :=
  (List.rdropWhile_prefix (· == '0') text).length_le

/-- Zeros behind a text are trimmed with those that close it. -/
lemma trimZeros_append_zeros (text : List Char) (n : ℕ) :
    trimZeros (text ++ List.replicate n '0') = trimZeros text := by
  rw [trimZeros, List.reverse_append, List.reverse_replicate,
    List.dropWhile_append_of_pos fun c hc => by rw [List.eq_of_mem_replicate hc]; rfl]
  rfl

/-- A text that closes with no zero is not trimmed, and no other one is left as it is. -/
lemma trimZeros_eq_self_iff {text : List Char} :
    trimZeros text = text ↔ text.getLast? ≠ some '0' := by
  show List.rdropWhile (· == '0') text = text ↔ _
  rw [List.rdropWhile_eq_self_iff]
  by_cases hnil : text = []
  · simp [hnil]
  · simp [hnil, List.getLast?_eq_some_getLast hnil]

/-- Zeros behind a text that closes with none are what is trimmed. -/
lemma trimZeros_of_getLast? {text : List Char} (h : text.getLast? ≠ some '0') (n : ℕ) :
    trimZeros (text ++ List.replicate n '0') = text := by
  rw [trimZeros_append_zeros, trimZeros_eq_self_iff]
  exact h

/-- A text is trimmed to at most `n` characters if nothing but zeros follow its first ones. -/
lemma length_trimZeros_le_iff {text : List Char} {n : ℕ} :
    (trimZeros text).length ≤ n ↔
      ∃ kept zeros, text = kept ++ List.replicate zeros '0' ∧ kept.length ≤ n := by
  constructor
  · intro h
    exact ⟨trimZeros text, _, (trimZeros_append_replicate text).symm, h⟩
  · rintro ⟨kept, zeros, rfl, h⟩
    rw [trimZeros_append_zeros]
    exact (length_trimZeros_le kept).trans h

/-- A trimmed text closes with no zero, so nothing more is trimmed. -/
lemma trimZeros_trimZeros (text : List Char) : trimZeros (trimZeros text) = trimZeros text :=
  List.rdropWhile_idempotent (· == '0') text

lemma allDigits_trimZeros {text : List Char} (h : allDigits text = true) :
    allDigits (trimZeros text) = true := by
  rw [allDigits, List.all_eq_true]
  intro c hc
  exact isDigit_of_mem h ((List.rdropWhile_prefix (· == '0') text).subset hc)

/-- A written number other than zero is not made of zeros. -/
lemma trimZeros_write_ne_nil {n : ℕ} (hn : n ≠ 0) : trimZeros (write n) ≠ [] := by
  intro hnil
  have hall := List.rdropWhile_eq_nil_iff.mp hnil
  obtain ⟨c, rest, hwrite⟩ := List.exists_cons_of_ne_nil (write_ne_nil n)
  have hc : c = '0' := by simpa using hall c (by rw [hwrite]; exact List.mem_cons_self ..)
  exact head?_write_ne_zero hn (by rw [hwrite, hc]; rfl)

/-- A written number other than zero keeps its leading digit. -/
lemma head?_trimZeros_write {n : ℕ} (hn : n ≠ 0) :
    (trimZeros (write n)).head? = (write n).head? := by
  conv_rhs => rw [← trimZeros_append_replicate (write n)]
  rw [List.head?_append_of_ne_nil _ (trimZeros_write_ne_nil hn)]

end Digits

end Admission.Text
