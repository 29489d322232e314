import Admission.Address
import Admission.Proofs.Text.Hex

/-!
# The texts of addresses

A written address is read back (`ofText_toText`); its text has one length and holds no comma. A text
is read as an address with or without one of the marks, from digits of either case
(`ofText_eq_ok_iff`), so forty digits behind a mark or none are read, whichever digits they are
(`exists_ofText_iff`). What tells the address is the digits without their case, and every other text
is refused for their number or for the first character that is none (`ofText_decides`).
-/

namespace Admission

namespace Address

open Text

/-! ## Written addresses -/

lemma toList_toText (a : Address) : a.toText.toList = '0' :: 'x' :: Hex.encode a.bytes := by
  rw [toText, String.toList_ofList]

/-- An address takes 42 characters. -/
lemma length_toText (a : Address) : a.toText.toList.length = 42 := by
  rw [toList_toText, List.length_cons, List.length_cons, Hex.length_encode, a.length_bytes]

/-- A written address is read back. -/
theorem ofText_toText (a : Address) : ofText a.toText = .ok a := by
  have hunmarked : unmarked a.toText.toList = Hex.encode a.bytes := by
    rw [toList_toText]
    rfl
  have hlength : byteLength (Hex.encode a.bytes) = 40 := by
    rw [Hex.byteLength_encode, a.length_bytes]
  simp only [ofText, hunmarked, hlength, Hex.decode_encode, ofBytes_bytes]
  rfl

/-! ## Spellings of an address -/

/-- What may stand before the digits of an address: nothing, or one of the two marks. -/
def marks : List (List Char) :=
  [[], ['0', 'x'], ['0', 'X']]

/-- A text is one of the marks before what is left without it. -/
lemma exists_mark_append_unmarked (text : List Char) :
    ∃ mark ∈ marks, text = mark ++ unmarked text := by
  unfold unmarked
  split
  · exact ⟨['0', 'x'], by decide, rfl⟩
  · exact ⟨['0', 'X'], by decide, rfl⟩
  · exact ⟨[], by decide, rfl⟩

/-- A mark before digits is taken off, and digits without a mark are left alone. -/
lemma unmarked_append {mark digits : List Char} {bytes : List UInt8} (hmark : mark ∈ marks)
    (hdigits : digits.map Char.toLower = Hex.encode bytes) :
    unmarked (mark ++ digits) = digits := by
  simp only [marks, List.mem_cons, List.not_mem_nil, or_false] at hmark
  rcases hmark with rfl | rfl | rfl
  · obtain ⟨hsmall, hcapital⟩ := Hex.x_notMem (Hex.isDigit_of_map_toLower hdigits)
    rw [List.nil_append, unmarked]
    · rintro rest rfl
      exact hsmall (by simp)
    · rintro rest rfl
      exact hcapital (by simp)
  · rfl
  · rfl

/-- A text spells an address: one of the marks or none, then digits of either case whose small forms
are those of the address. -/
def SpelledBy (a : Address) (text : String) : Prop :=
  ∃ mark ∈ marks, ∃ digits, text.toList = mark ++ digits ∧
    digits.map Char.toLower = Hex.encode a.bytes

/-- A text is read as the address that it spells. -/
theorem ofText_eq_ok_iff {text : String} {a : Address} :
    ofText text = .ok a ↔ a.SpelledBy text := by
  unfold ofText
  dsimp only
  constructor
  · intro h
    split at h
    · cases h
    · split at h
      · rename_i bytes hbytes
        unfold ofBytes at h
        split at h
        · injection h with ha
          obtain ⟨mark, hmark, hsplit⟩ := exists_mark_append_unmarked text.toList
          refine ⟨mark, hmark, unmarked text.toList, hsplit, ?_⟩
          rw [← ha]
          exact Hex.decode_eq_ok_iff.mp hbytes
        · cases h
      · cases h
  · rintro ⟨mark, hmark, digits, hsplit, hdigits⟩
    have hbytes : Hex.decode digits = .ok a.bytes := Hex.decode_eq_ok_iff.mpr hdigits
    have hlength : byteLength digits = 40 := by
      rw [Hex.byteLength_of_map_toLower hdigits, a.length_bytes]
    rw [hsplit, unmarked_append hmark hdigits, if_neg (by omega), hbytes]
    exact ofBytes_bytes a

/-- A text of an address: one of the marks or none, then forty digits of either case. -/
def IsText (text : String) : Prop :=
  ∃ mark ∈ marks, ∃ digits, text.toList = mark ++ digits ∧ digits.length = 40 ∧
    ∀ c ∈ digits, Hex.IsDigit c

/-- An address is read from the texts of addresses, and from no others. -/
theorem exists_ofText_iff {text : String} : (∃ a, ofText text = .ok a) ↔ IsText text := by
  simp only [ofText_eq_ok_iff]
  constructor
  · rintro ⟨a, mark, hmark, digits, htext, hdigits⟩
    exact ⟨mark, hmark, digits, htext,
      (Hex.exists_map_toLower_eq_encode 20).mp ⟨a.bytes, a.length_bytes, hdigits⟩⟩
  · rintro ⟨mark, hmark, digits, htext, hdigits⟩
    obtain ⟨bytes, hlength, hbytes⟩ := (Hex.exists_map_toLower_eq_encode 20).mpr hdigits
    exact ⟨⟨bytes, hlength⟩, mark, hmark, digits, htext, hbytes⟩

/-- Different addresses are written differently. -/
theorem toText_injective : Function.Injective toText := by
  intro a b h
  have hread : ofText a.toText = ofText b.toText := by rw [h]
  rw [ofText_toText, ofText_toText] at hread
  exact Except.ok.inj hread

/-! ## The digits of a text -/

/-- The digits of a text: behind one of the marks or none, the text is made of these forty, of
either case. -/
def HasDigits (text : String) (digits : List Char) : Prop :=
  ∃ mark ∈ marks, text.toList = mark ++ digits ∧ digits.length = 40 ∧ ∀ c ∈ digits, Hex.IsDigit c

lemma exists_hasDigits_iff {text : String} : (∃ digits, HasDigits text digits) ↔ IsText text := by
  constructor
  · rintro ⟨digits, mark, hmark, htext, hdigits⟩
    exact ⟨mark, hmark, digits, htext, hdigits⟩
  · rintro ⟨mark, hmark, digits, htext, hdigits⟩
    exact ⟨digits, mark, hmark, htext, hdigits⟩

/-- A text with digits is read as the address that is written with their small forms. -/
theorem HasDigits.exists_ofText {text : String} {digits : List Char} (h : HasDigits text digits) :
    ∃ a, ofText text = .ok a ∧ a.toText.toList = '0' :: 'x' :: digits.map Char.toLower := by
  obtain ⟨mark, hmark, htext, hdigits⟩ := h
  obtain ⟨bytes, hlength, hbytes⟩ := (Hex.exists_map_toLower_eq_encode 20).mpr hdigits
  refine ⟨⟨bytes, hlength⟩, ofText_eq_ok_iff.mpr ⟨mark, hmark, digits, htext, hbytes⟩, ?_⟩
  rw [toList_toText, hbytes]

/-- The digits without their case tell addresses apart. -/
theorem HasDigits.ofText_eq_iff {text text' : String} {digits digits' : List Char}
    (h : HasDigits text digits) (h' : HasDigits text' digits') :
    ofText text = ofText text' ↔ digits.map Char.toLower = digits'.map Char.toLower := by
  obtain ⟨a, ha, hwritten⟩ := h.exists_ofText
  obtain ⟨a', ha', hwritten'⟩ := h'.exists_ofText
  calc ofText text = ofText text'
    _ ↔ a = a' := by rw [ha, ha', Except.ok.injEq]
    _ ↔ a.toText.toList = a'.toText.toList :=
      ⟨fun h => by rw [h], fun h => toText_injective (String.toList_injective h)⟩
    _ ↔ digits.map Char.toLower = digits'.map Char.toLower := by
      rw [hwritten, hwritten', List.cons_inj_right, List.cons_inj_right]

/-! ## Texts that are refused -/

/-- Why a text spells no address: without its mark it has not forty bytes, or it has these and one
of its characters is no digit. The first such character is told. -/
inductive Refused (text : String) : DecodingFault → Prop
  | count (h : byteLength (unmarked text.toList) ≠ 40) :
      Refused text (.addressDigits (byteLength (unmarked text.toList)))
  | digit {before after : List Char} {c : Char} (hlength : byteLength (unmarked text.toList) = 40)
      (htext : unmarked text.toList = before ++ c :: after) (hbefore : ∀ d ∈ before, Hex.IsDigit d)
      (hc : ¬ Hex.IsDigit c) :
      Refused text (.addressHex (.badDigit (firstByte c) before.length))

lemma Refused.ofText_eq {text : String} {fault : DecodingFault} (h : Refused text fault) :
    ofText text = .error fault := by
  unfold ofText
  cases h with
  | count h => rw [if_pos h]
  | digit hlength htext hbefore hc =>
    have heven : byteLength (unmarked text.toList) % 2 = 0 := by omega
    have hrefused := Hex.decode_eq_error_iff.mpr (.badDigit heven htext hbefore hc)
    rw [if_neg (not_not.mpr hlength), hrefused]

/-- Every text spells an address or is refused. With forty bytes, digits write the twenty bytes of
an address, and their number is not odd. -/
lemma exists_ofText_or_refused (text : String) :
    (∃ a, ofText text = .ok a) ∨ ∃ fault, Refused text fault := by
  by_cases hlength : byteLength (unmarked text.toList) = 40
  · obtain ⟨bytes, hbytes⟩ | ⟨fault, hrefused⟩ :=
      Hex.exists_decode_or_refused (unmarked text.toList)
    · left
      obtain ⟨mark, hmark, htext⟩ := exists_mark_append_unmarked text.toList
      rw [Hex.decode_eq_ok_iff] at hbytes
      have htwenty : bytes.length = 20 := by
        have hdouble := Hex.byteLength_of_map_toLower hbytes
        omega
      exact ⟨⟨bytes, htwenty⟩, ofText_eq_ok_iff.mpr ⟨mark, hmark, _, htext, hbytes⟩⟩
    · right
      cases hrefused with
      | oddLength hodd => omega
      | badDigit _ htext hbefore hc => exact ⟨_, .digit hlength htext hbefore hc⟩
  · exact .inr ⟨_, .count hlength⟩

theorem ofText_eq_error_iff {text : String} {fault : DecodingFault} :
    ofText text = .error fault ↔ Refused text fault :=
  eq_error_iff_of_cases (exists_ofText_or_refused text) fun _ => Refused.ofText_eq

/-! ## Reading and writing -/

/-- The digits of a written address are small. -/
lemma digits_toText (a : Address) : ∃ digits, a.toText.toList = '0' :: 'x' :: digits ∧
    digits.length = 40 ∧ ∀ c ∈ digits, ('0' ≤ c ∧ c ≤ '9') ∨ ('a' ≤ c ∧ c ≤ 'f') := by
  have hsmall : ∀ value < 16, ('0' ≤ Nat.digitChar value ∧ Nat.digitChar value ≤ '9') ∨
      ('a' ≤ Nat.digitChar value ∧ Nat.digitChar value ≤ 'f') := by decide
  refine ⟨Hex.encode a.bytes, toList_toText a, ?_, fun c hc => ?_⟩
  · rw [Hex.length_encode, a.length_bytes]
  · obtain ⟨value, hvalue, rfl⟩ := Hex.exists_digit_of_mem_encode hc
    exact hsmall value hvalue

/-- An address is read from forty digits of either case with one mark in front or none, and from no
other text. It is written with a mark and small digits, and read back from that; what is read from
any text is written with the small forms of the text's digits, so texts are read as one address
exactly if their digits agree up to case. Every other text is refused, for the number of its bytes
or for the first character that is no digit; a wrong number of bytes in the address itself is never
told. -/
theorem ofText_decides :
    (∀ text, (∃ a, ofText text = .ok a) ↔ ∃ digits, HasDigits text digits) ∧
    (∀ a : Address, ofText a.toText = .ok a ∧ ∃ digits, a.toText.toList = '0' :: 'x' :: digits ∧
      digits.length = 40 ∧ ∀ c ∈ digits, ('0' ≤ c ∧ c ≤ '9') ∨ ('a' ≤ c ∧ c ≤ 'f')) ∧
    (∀ text digits, HasDigits text digits → ∃ a, ofText text = .ok a ∧
      a.toText.toList = '0' :: 'x' :: digits.map Char.toLower) ∧
    (∀ text text' digits digits', HasDigits text digits → HasDigits text' digits' →
      (ofText text = ofText text' ↔ digits.map Char.toLower = digits'.map Char.toLower)) ∧
    (∀ text fault, ofText text = .error fault ↔ Refused text fault) ∧
    (∀ text, (∃ fault, Refused text fault) ↔ ¬ ∃ digits, HasDigits text digits) ∧
    ∀ text count, ofText text ≠ .error (.addressBytes count) := by
  have hread : ∀ text, (∃ a, ofText text = .ok a) ↔ ∃ digits, HasDigits text digits :=
    fun text => exists_ofText_iff.trans exists_hasDigits_iff.symm
  refine ⟨hread, fun a => ⟨ofText_toText a, digits_toText a⟩, fun _ _ h => h.exists_ofText,
    fun _ _ _ _ h h' => h.ofText_eq_iff h', fun _ _ => ofText_eq_error_iff, fun text => ?_,
    fun text count h => nomatch ofText_eq_error_iff.mp h⟩
  simp only [← hread, ← ofText_eq_error_iff]
  cases ofText text <;> simp

/-- Forty capital letters behind the capital mark, and their small forms behind none: both are read
as one address, which is written with the small mark and the small letters. Twenty letters that take
forty bytes are refused for the first of these. -/
theorem ofText_decides_of_capitals :
    let capital := List.replicate 40 'C'
    let small := List.replicate 40 'c'
    let wide := List.replicate 20 'ç'
    HasDigits (String.ofList ('0' :: 'X' :: capital)) capital ∧
      HasDigits (String.ofList small) small ∧
      ofText (String.ofList ('0' :: 'X' :: capital)) = ofText (String.ofList small) ∧
      (∃ a, ofText (String.ofList small) = .ok a ∧ a.toText.toList = '0' :: 'x' :: small) ∧
      ofText (String.ofList wide) = .error (.addressHex (.badDigit 0xc3 0)) := by
  intro capital small wide
  obtain ⟨-, -, hwritten, hsame, hrefused, -⟩ := ofText_decides
  have hcapital : HasDigits (String.ofList ('0' :: 'X' :: capital)) capital :=
    ⟨['0', 'X'], by decide, String.toList_ofList, rfl,
      List.forall_mem_replicate.mpr (.inr (by decide))⟩
  have hsmall : HasDigits (String.ofList small) small :=
    ⟨[], by decide, String.toList_ofList, rfl, List.forall_mem_replicate.mpr (.inr (by decide))⟩
  have hwide : unmarked (String.ofList wide).toList = [] ++ 'ç' :: List.replicate 19 'ç' := by
    rw [String.toList_ofList]
    rfl
  refine ⟨hcapital, hsmall, (hsame _ _ _ _ hcapital hsmall).mpr (by decide),
    hwritten _ _ hsmall, (hrefused _ _).mpr ?_⟩
  have hlength : byteLength (unmarked (String.ofList wide).toList) = 40 := by
    rw [hwide]
    rfl
  exact .digit hlength hwide (List.forall_mem_nil _) (by decide)

end Address

end Admission
