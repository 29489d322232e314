import Admission.Proofs.Amount.Display

/-!
# Wei

Blanks around it aside, a text writes an amount in wei if it is a whole number, with a plus sign in
front or underscores between the digits as people like to write them (`ofWei_eq_ok_iff`). The
display unit is read more strictly, but by the same reader once its digits are put together. So
wherever both readings give an amount, they differ by the `10 ^ 18` wei of the unit and by nothing
else (`wei_eq_of_ofDisplay_of_ofWei`), and where there is no point, the strict reading is never
alone (`exists_ofWei_of_ofDisplay`).
-/

namespace Admission.NativeAmount

open Text

variable {text : String} {core whole kept : List Char} {n : ℕ}

/-! ## Texts of wei -/

/-- An amount in wei is read from a text whose core writes its number. -/
theorem ofWei_eq_ok_iff {a : NativeAmount} :
    ofWei text = .ok a ↔ WritesNumber (trim text.toList) a.wei := by
  rw [← number?_eq_some_iff]
  unfold ofWei
  cases number? (trim text.toList) with
  | none => simp
  | some wei =>
    cases a
    simp

/-- All other texts are refused, and shown as they are. -/
theorem ofWei_eq_error_iff {fault : DecodingFault} :
    ofWei text = .error fault ↔
      (¬ ∃ n, WritesNumber (trim text.toList) n) ∧ fault = .wei text := by
  simp only [← number?_eq_some_iff]
  unfold ofWei
  cases number? (trim text.toList) <;> simp [eq_comm (a := fault)]

/-- Every amount is read back from its text in wei. -/
theorem ofWei_weiText (a : NativeAmount) : ofWei a.weiText = .ok a := by
  have hdigits : Digits.allDigits (Digits.write a.wei) = true := Digits.allDigits_write a.wei
  have hcore : trim (Digits.write a.wei) = Digits.write a.wei :=
    trim_eq_self fun c hc => isBlank_of_isDigit (Digits.isDigit_of_mem hdigits hc)
  have hwrites := writesNumber_of_allDigits hdigits (Digits.write_ne_nil a.wei)
  rw [Digits.value_write] at hwrites
  rw [ofWei_eq_ok_iff, weiText, String.toList_ofList, hcore]
  exact hwrites

/-! ## Wei and the display unit -/

/-- No point is in the text of a number. -/
lemma WritesNumber.point_notMem (h : WritesNumber core n) : '.' ∉ core := by
  obtain ⟨sign, hsign, first, rest, rfl, hfirst, hrest, -⟩ := h
  have hsigns : ∀ sign ∈ signs, '.' ∉ sign := by decide
  have hpoint : '.' ∉ rest := fun hmem => by
    have hforeign := hrest '.' hmem
    simp at hforeign
  rw [List.mem_append, List.mem_cons, not_or, not_or]
  exact ⟨hsigns sign hsign, (ne_of_isDigit hfirst rfl).symm, hpoint⟩

/-- A text in the display unit without a point is the number of its units, which is also read in
wei. -/
lemma HasParts.writesNumber (h : HasParts core whole kept) (hpoint : '.' ∉ core) :
    WritesNumber core (Digits.value core) ∧
      Digits.value (filled whole kept) = 10 ^ 18 * Digits.value core := by
  cases h with
  | whole hall hne =>
    refine ⟨writesNumber_of_allDigits hall hne, ?_⟩
    have hkept : ([] : List Char).length ≤ places := Nat.zero_le places
    rw [value_filled core hkept]
    show Digits.value core * 10 ^ 18 + 0 * 10 ^ 18 = 10 ^ 18 * Digits.value core
    omega
  | point => exact absurd (by simp) hpoint

/-- Without a point, what is read in the display unit is read in wei. -/
theorem exists_ofWei_of_ofDisplay {a : NativeAmount} (hpoint : '.' ∉ text.toList)
    (h : ofDisplay text = .ok a) : ∃ b, ofWei text = .ok b ∧ a.wei = 10 ^ 18 * b.wei := by
  obtain ⟨whole, kept, hparts, rfl⟩ := ofDisplay_eq_ok_iff.mp h
  obtain ⟨hwrites, hvalue⟩ := hparts.writesNumber (mt (mem_trim_iff rfl).mp hpoint)
  exact ⟨⟨Digits.value (trim text.toList)⟩, ofWei_eq_ok_iff.mpr hwrites, hvalue⟩

/-- What is read in both units has no point, and a unit of the one is `10 ^ 18` of the other. -/
theorem wei_eq_of_ofDisplay_of_ofWei {a b : NativeAmount} (h : ofDisplay text = .ok a)
    (h' : ofWei text = .ok b) : a.wei = 10 ^ 18 * b.wei := by
  have hpoint : '.' ∉ text.toList :=
    mt (mem_trim_iff rfl).mpr (ofWei_eq_ok_iff.mp h').point_notMem
  obtain ⟨c, hc, hwei⟩ := exists_ofWei_of_ofDisplay hpoint h
  rw [hwei, Except.ok.inj (hc.symm.trans h')]

/-! ## Reading wei -/

/-- A text is read in wei exactly if blanks and nothing else stand around a number in it, and as
that number; any other text is refused. Every amount is read back from its text. A text without a
point that is read in the display unit is also read in wei, and a text that is read in both units
has `10 ^ 18` times as many wei in the display unit. -/
theorem ofWei_decides :
    (∀ text a, ofWei text = .ok a ↔
      ∃ core, IsCore text.toList core ∧ WritesNumber core a.wei) ∧
    (∀ text fault, ofWei text = .error fault ↔
      (¬ ∃ core n, IsCore text.toList core ∧ WritesNumber core n) ∧ fault = .wei text) ∧
    (∀ a, ofWei a.weiText = .ok a) ∧
    (∀ text a, '.' ∉ text.toList → ofDisplay text = .ok a →
      ∃ b, ofWei text = .ok b ∧ a.wei = 10 ^ 18 * b.wei) ∧
    ∀ text a b, ofDisplay text = .ok a → ofWei text = .ok b → a.wei = 10 ^ 18 * b.wei := by
  refine ⟨?_, ?_, ofWei_weiText, fun text a => exists_ofWei_of_ofDisplay,
    fun text a b => wei_eq_of_ofDisplay_of_ofWei⟩
  · intro text a
    simp only [isCore_iff, exists_eq_left', ofWei_eq_ok_iff]
  · intro text fault
    simp only [isCore_iff, exists_and_left, exists_eq_left', ofWei_eq_error_iff]

/-- A thousand with a sign and underscores is read in wei only; seven with zeros in front is read in
both units. -/
theorem ofWei_decides_of_seven :
    IsCore "\t+1_000_ ".toList "+1_000_".toList ∧ WritesNumber "+1_000_".toList 1000 ∧
      ofWei "\t+1_000_ " = .ok ⟨1000⟩ ∧
      '.' ∉ " 007".toList ∧ ofDisplay " 007" = .ok ⟨7000000000000000000⟩ ∧
      ∃ b, ofWei " 007" = .ok b ∧ 7000000000000000000 = 10 ^ 18 * b.wei := by
  obtain ⟨hread, -, -, hunits, -⟩ := ofWei_decides
  have hcore : IsCore "\t+1_000_ ".toList "+1_000_".toList := isCore_iff.mpr (by decide)
  have hwrites : WritesNumber "+1_000_".toList 1000 :=
    ⟨['+'], by decide, '1', ['_', '0', '0', '0', '_'], by decide, by decide, by simp, rfl⟩
  have hpoint : '.' ∉ " 007".toList := by decide
  have hdisplay : ofDisplay " 007" = .ok ⟨7000000000000000000⟩ := by decide
  exact ⟨hcore, hwrites, (hread _ _).mpr ⟨_, hcore, hwrites⟩, hpoint, hdisplay,
    hunits _ _ hpoint hdisplay⟩

end Admission.NativeAmount
