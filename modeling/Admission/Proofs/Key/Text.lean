import Admission.Key
import Admission.Proofs.Outcome
import Admission.Proofs.Text.Digits
import Admission.Proofs.Text.Hex

/-!
# The texts of keys

A verification key is any byte string, so it is read from digits of either case that are even in
number, behind the small mark or none (`VerificationKey.exists_ofText_iff`); whether the bytes are a
point is not asked here. A secret key is a number of the group other than zero, so its 64 digits
also have to write one (`SecretKey.exists_ofText_iff`). Of other texts it is told what is wrong
first: the digits, how many bytes they spell, or the number of these (`SecretKey.Refused`). Both
keys are written in small digits without a mark and read back from these.
-/

namespace Admission

open Text

/-! ## Verification keys -/

namespace VerificationKey

/-- What may stand before the digits of a verification key: nothing, or the small mark. -/
def marks : List (List Char) :=
  [[], ['0', 'x']]

/-- The digits of a text: behind the mark or none, the text is made of these, of either case and
even in number. -/
def HasDigits (text : String) (digits : List Char) : Prop :=
  ∃ mark ∈ marks, text.toList = mark ++ digits ∧ Even digits.length ∧ ∀ c ∈ digits, Hex.IsDigit c

/-- A text is the mark or nothing before what is left without it. -/
lemma exists_mark_append_unmarked (text : List Char) :
    ∃ mark ∈ marks, text = mark ++ unmarked text := by
  unfold unmarked
  split
  · exact ⟨['0', 'x'], by decide, rfl⟩
  · exact ⟨[], by decide, rfl⟩

/-- The mark before digits is taken off, and digits without it are left alone. -/
lemma unmarked_append {mark digits : List Char} (hmark : mark ∈ marks)
    (hdigits : ∀ c ∈ digits, Hex.IsDigit c) : unmarked (mark ++ digits) = digits := by
  simp only [marks, List.mem_cons, List.not_mem_nil, or_false] at hmark
  rcases hmark with rfl | rfl
  · rw [List.nil_append, unmarked]
    rintro rest rfl
    exact (Hex.x_notMem hdigits).1 (by simp)
  · rfl

/-- The digits of a text are what is left of it without the mark. -/
lemma hasDigits_iff {text : String} {digits : List Char} :
    HasDigits text digits ↔ unmarked text.toList = digits ∧ Even digits.length ∧
      ∀ c ∈ digits, Hex.IsDigit c := by
  constructor
  · rintro ⟨mark, hmark, htext, hdigits⟩
    exact ⟨by rw [htext, unmarked_append hmark hdigits.2], hdigits⟩
  · rintro ⟨rfl, hdigits⟩
    obtain ⟨mark, hmark, htext⟩ := exists_mark_append_unmarked text.toList
    exact ⟨mark, hmark, htext, hdigits⟩

/-- A key is read from the bytes that the text writes behind its mark. -/
lemma ofText_eq_ok_iff {text : String} {key : VerificationKey} :
    ofText text = .ok key ↔ Hex.decode (unmarked text.toList) = .ok key.bytes := by
  unfold ofText
  cases key
  cases Hex.decode (unmarked text.toList) <;> simp

/-- A text is refused for what is wrong with its digits. -/
theorem ofText_eq_error_iff {text : String} {fault : DecodingFault} :
    ofText text = .error fault ↔
      ∃ cause, Hex.Refused (unmarked text.toList) cause ∧ fault = .keyHex cause := by
  simp only [← Hex.decode_eq_error_iff]
  unfold ofText
  cases Hex.decode (unmarked text.toList) <;> simp [eq_comm (a := fault)]

lemma toList_toText (key : VerificationKey) : key.toText.toList = Hex.encode key.bytes := by
  rw [toText, String.toList_ofList]

/-- A written key is read back, however many bytes it has. -/
theorem ofText_toText (key : VerificationKey) : ofText key.toText = .ok key := by
  have hnone : [] ∈ marks := by decide
  have hunmarked : unmarked (Hex.encode key.bytes) = Hex.encode key.bytes :=
    unmarked_append hnone (Hex.isDigit_of_mem_encode key.bytes)
  rw [ofText_eq_ok_iff, toList_toText, hunmarked, Hex.decode_encode]

/-- A text with digits is read as the key that is written with their small forms. -/
theorem HasDigits.exists_ofText {text : String} {digits : List Char} (h : HasDigits text digits) :
    ∃ key, ofText text = .ok key ∧ key.toText.toList = digits.map Char.toLower := by
  obtain ⟨hunmarked, ⟨n, hlength⟩, hdigits⟩ := hasDigits_iff.mp h
  obtain ⟨bytes, -, hbytes⟩ := (Hex.exists_decode_iff n).mpr ⟨by omega, hdigits⟩
  refine ⟨⟨bytes⟩, ofText_eq_ok_iff.mpr (by rw [hunmarked, hbytes]), ?_⟩
  rw [toList_toText, Hex.decode_eq_ok_iff.mp hbytes]

/-- A key is read from the texts with digits, and from no others. -/
theorem exists_ofText_iff {text : String} :
    (∃ key, ofText text = .ok key) ↔ ∃ digits, HasDigits text digits := by
  constructor
  · rintro ⟨key, hkey⟩
    obtain ⟨hlength, hdigits⟩ := (Hex.exists_decode_iff key.bytes.length).mp
      ⟨key.bytes, rfl, ofText_eq_ok_iff.mp hkey⟩
    exact ⟨_, hasDigits_iff.mpr ⟨rfl, ⟨key.bytes.length, by omega⟩, hdigits⟩⟩
  · rintro ⟨digits, h⟩
    obtain ⟨key, hkey, -⟩ := h.exists_ofText
    exact ⟨key, hkey⟩

/-- The capital mark is none: unless the number of bytes is odd, its letter is the first character
that is no digit. -/
lemma ofText_of_capital_mark {text : String} {rest : List Char}
    (htext : text.toList = '0' :: 'X' :: rest) :
    ofText text
      = .error (.keyHex (if byteLength rest % 2 = 1 then .oddLength else .badDigit 0x58 1)) := by
  have hunmarked : unmarked text.toList = '0' :: 'X' :: rest := by
    rw [htext]
    rfl
  have hlength : byteLength ('0' :: 'X' :: rest) = 2 + byteLength rest :=
    byteLength_append ['0', 'X'] rest
  have hplain : '0' :: 'X' :: rest = ['0'] ++ 'X' :: rest := rfl
  refine ofText_eq_error_iff.mpr ⟨_, ?_, rfl⟩
  rw [hunmarked]
  split
  · exact .oddLength (by omega)
  · exact .badDigit (by omega) hplain (List.forall_mem_singleton.mpr (by decide)) (by decide)

/-- A verification key is read from a text exactly if digits of either case, even in number and
possibly none, stand in it behind one small mark or none. Every key is read back from its text,
however many bytes it has, and what is read from any text is written with the small forms of the
text's digits and no mark. Every other text is refused for what is wrong with its digits, among them
every text behind a capital mark and every text that takes an odd number of bytes without its mark.
-/
theorem keyText_decides :
    (∀ text, (∃ key, ofText text = .ok key) ↔ ∃ digits, HasDigits text digits) ∧
    (∀ key, ofText key.toText = .ok key) ∧
    (∀ text digits, HasDigits text digits → ∃ key, ofText text = .ok key ∧
      key.toText.toList = digits.map Char.toLower) ∧
    (∀ text fault, ofText text = .error fault ↔
      ∃ cause, Hex.Refused (unmarked text.toList) cause ∧ fault = .keyHex cause) ∧
    (∀ text, (∃ fault, ofText text = .error fault) ↔ ¬ ∃ digits, HasDigits text digits) ∧
    (∀ text rest, text.toList = '0' :: 'X' :: rest → ofText text
      = .error (.keyHex (if byteLength rest % 2 = 1 then .oddLength else .badDigit 0x58 1))) ∧
    ∀ text, byteLength (unmarked text.toList) % 2 = 1 →
      ofText text = .error (.keyHex .oddLength) := by
  refine ⟨fun _ => exists_ofText_iff, ofText_toText, fun _ _ h => h.exists_ofText,
    fun _ _ => ofText_eq_error_iff, fun text => ?_, fun _ _ => ofText_of_capital_mark,
    fun _ h => ofText_eq_error_iff.mpr ⟨_, .oddLength h, rfl⟩⟩
  rw [← exists_ofText_iff]
  cases ofText text <;> simp

/-- Two digits behind the small mark are a key of one byte, whichever their case; nothing behind it
is the key without bytes. Behind the capital mark the same digits are refused for its letter, and a
third digit makes their number odd. -/
theorem keyText_decides_of_marked :
    HasDigits "0xaB" ['a', 'B'] ∧ HasDigits "0x" [] ∧
      (∃ key, ofText "0xaB" = .ok key ∧ key.toText.toList = ['a', 'b']) ∧
      (∃ key, ofText "0x" = .ok key ∧ key.toText.toList = []) ∧
      "0XaB".toList = ['0', 'X', 'a', 'B'] ∧
      ofText "0XaB" = .error (.keyHex (.badDigit 0x58 1)) ∧
      byteLength (unmarked "0xaB0".toList) % 2 = 1 ∧
      ofText "0xaB0" = .error (.keyHex .oddLength) := by
  obtain ⟨-, -, hwritten, -, -, hcapital, hodd⟩ := keyText_decides
  have hdigits : ∀ c ∈ ['a', 'B'], Hex.IsDigit c :=
    List.forall_mem_cons.mpr ⟨by decide, List.forall_mem_singleton.mpr (by decide)⟩
  have hpair : HasDigits "0xaB" ['a', 'B'] := ⟨['0', 'x'], by decide, rfl, by decide, hdigits⟩
  have hnone : HasDigits "0x" [] :=
    ⟨['0', 'x'], by decide, rfl, by decide, List.forall_mem_nil _⟩
  have hmarked : "0XaB".toList = ['0', 'X', 'a', 'B'] := rfl
  have hthree : byteLength (unmarked "0xaB0".toList) % 2 = 1 := by decide
  exact ⟨hpair, hnone, hwritten _ _ hpair, hwritten _ _ hnone, hmarked, hcapital _ _ hmarked,
    hthree, hodd _ hthree⟩

end VerificationKey

/-! ## Secret keys -/

namespace SecretKey

open Crypto.Secp256k1

variable {bytes : List UInt8} {key : SecretKey} {text : String} {digits : List Char}
  {fault : CryptoFault}

/-! ### From bytes -/

/-- A secret key is read from the 32 bytes of its number. -/
lemma ofBytes?_eq_some_iff :
    ofBytes? bytes = some key ↔ bytes.length = 32 ∧ Bytes.number bytes = key.number := by
  unfold ofBytes?
  by_cases hlength : bytes.length = 32
  · by_cases hrange : 0 < Bytes.number bytes ∧ Bytes.number bytes < order
    · simp [hlength, hrange, ← number_inj]
    · have hother : Bytes.number bytes ≠ key.number := fun hsame =>
        hrange (hsame ▸ ⟨key.pos, key.lt_order⟩)
      simp [hlength, hrange, hother]
  · simp [hlength]

theorem ofBytes_eq_ok_iff :
    ofBytes bytes = .ok key ↔ bytes.length = 32 ∧ Bytes.number bytes = key.number := by
  rw [← ofBytes?_eq_some_iff]
  unfold ofBytes
  cases ofBytes? bytes with
  | none => by_cases hlength : bytes.length = 32 <;> simp [hlength]
  | some _ => simp

/-- Why bytes are no secret key: they are not 32, or these write zero or a number that is not below
the group order. -/
inductive RefusedBytes (bytes : List UInt8) : CryptoFault → Prop
  | length (h : bytes.length ≠ 32) : RefusedBytes bytes (.secretLength bytes.length)
  | range (hlength : bytes.length = 32)
      (h : Bytes.number bytes = 0 ∨ order ≤ Bytes.number bytes) : RefusedBytes bytes .secretRange

lemma RefusedBytes.ofBytes_eq (h : RefusedBytes bytes fault) : ofBytes bytes = .error fault := by
  -- Bytes of a key have its length and its number, so these bytes are none.
  have hnone : ofBytes? bytes = none := by
    rw [Option.eq_none_iff_forall_ne_some]
    intro key hkey
    obtain ⟨hlength, hnumber⟩ := ofBytes?_eq_some_iff.mp hkey
    have hpos := key.pos
    have hlt := key.lt_order
    cases h with
    | length h => exact h hlength
    | range _ h => omega
  unfold ofBytes
  rw [hnone]
  cases h with
  | length h => exact if_pos h
  | range hlength _ => exact if_neg (not_not.mpr hlength)

lemma exists_ofBytes_or_refused (bytes : List UInt8) :
    (∃ key, ofBytes bytes = .ok key) ∨ ∃ fault, RefusedBytes bytes fault := by
  by_cases hlength : bytes.length = 32
  · by_cases hrange : 0 < Bytes.number bytes ∧ Bytes.number bytes < order
    · exact .inl ⟨⟨_, hrange.1, hrange.2⟩, ofBytes_eq_ok_iff.mpr ⟨hlength, rfl⟩⟩
    · exact .inr ⟨_, .range hlength (by omega)⟩
  · exact .inr ⟨_, .length hlength⟩

theorem ofBytes_eq_error_iff : ofBytes bytes = .error fault ↔ RefusedBytes bytes fault :=
  eq_error_iff_of_cases (exists_ofBytes_or_refused bytes) fun _ => RefusedBytes.ofBytes_eq

/-! ### From texts -/

/-- The digits of a text: with nothing but blanks around them, the text is made of these 64, of
either case. -/
def HasDigits (text : String) (digits : List Char) : Prop :=
  IsCore text.toList digits ∧ digits.length = 64 ∧ ∀ c ∈ digits, Hex.IsDigit c

/-- A text is read as the bytes that its core spells. -/
lemma ofText_of_decode {core : List Char} (hcore : IsCore text.toList core)
    (hbytes : Hex.decode core = .ok bytes) : ofText text = ofBytes bytes := by
  rw [ofText, isCore_iff.mp hcore, hbytes]

/-- A secret key is read from the 64 digits of its number. -/
theorem ofText_eq_ok_iff :
    ofText text = .ok key ↔ ∃ digits, HasDigits text digits ∧ Hex.number digits = key.number := by
  constructor
  · intro h
    unfold ofText at h
    split at h
    · rename_i bytes hbytes
      obtain ⟨hlength, hnumber⟩ := ofBytes_eq_ok_iff.mp h
      refine ⟨_, ⟨isCore_trim _, (Hex.exists_decode_iff 32).mp ⟨bytes, hlength, hbytes⟩⟩, ?_⟩
      rw [Hex.number_of_decode hbytes, hnumber]
    · exact nomatch h
  · rintro ⟨digits, ⟨hcore, hdigits⟩, hnumber⟩
    obtain ⟨bytes, hlength, hbytes⟩ := (Hex.exists_decode_iff 32).mpr hdigits
    rw [ofText_of_decode hcore hbytes, ofBytes_eq_ok_iff]
    exact ⟨hlength, by rw [← Hex.number_of_decode hbytes, hnumber]⟩

/-- Secret keys are read from the texts whose digits write a number of the group other than zero,
and from no others. -/
theorem exists_ofText_iff : (∃ key, ofText text = .ok key) ↔
    ∃ digits, HasDigits text digits ∧ 1 ≤ Hex.number digits ∧ Hex.number digits < order := by
  simp only [ofText_eq_ok_iff]
  constructor
  · rintro ⟨key, digits, hdigits, hnumber⟩
    exact ⟨digits, hdigits, hnumber ▸ key.pos, hnumber ▸ key.lt_order⟩
  · rintro ⟨digits, hdigits, hpos, hlt⟩
    exact ⟨⟨_, hpos, hlt⟩, digits, hdigits, rfl⟩

lemma toList_toText (key : SecretKey) :
    key.toText.toList = Hex.encode (Bytes.ofNumber 32 key.number) := by
  rw [toText, String.toList_ofList]

/-- A secret key is written with the small forms of the digits that it is read from. -/
lemma HasDigits.toList_toText (h : HasDigits text digits)
    (hnumber : Hex.number digits = key.number) :
    key.toText.toList = digits.map Char.toLower := by
  obtain ⟨bytes, hlength, hbytes⟩ := (Hex.exists_decode_iff 32).mpr h.2
  rw [SecretKey.toList_toText, ← hnumber, Hex.number_of_decode hbytes, ← hlength,
    Bytes.ofNumber_number, Hex.decode_eq_ok_iff.mp hbytes]

/-- A written secret key is read back. -/
theorem ofText_toText (key : SecretKey) : ofText key.toText = .ok key := by
  have hdigits := Hex.isDigit_of_mem_encode (Bytes.ofNumber 32 key.number)
  have hcore : IsCore key.toText.toList (Hex.encode (Bytes.ofNumber 32 key.number)) := by
    rw [isCore_iff, toList_toText, trim_eq_self fun c hc => Hex.isBlank_of_isDigit (hdigits c hc)]
  have hfits : key.number < 256 ^ 32 := key.lt_order.trans (by decide)
  rw [ofText_of_decode hcore (Hex.decode_encode _), ofBytes_eq_ok_iff]
  exact ⟨Bytes.length_ofNumber _ _, Bytes.number_ofNumber hfits⟩

/-! ### Texts that are refused -/

/-- Why a text spells no secret key: blanks around it aside, it spells no bytes, or its digits are
those of another number of bytes than 32, or the 64 digits write zero or a number that is not below
the group order. -/
inductive Refused (text : String) : CryptoFault → Prop
  | digits {core : List Char} {cause : Hex.Fault} (hcore : IsCore text.toList core)
      (h : Hex.Refused core cause) : Refused text (.secretHex cause)
  | length {digits : List Char} {count : ℕ} (hcore : IsCore text.toList digits)
      (hdigits : ∀ c ∈ digits, Hex.IsDigit c) (hcount : digits.length = 2 * count)
      (h : count ≠ 32) : Refused text (.secretLength count)
  | range {digits : List Char} (hdigits : HasDigits text digits)
      (h : Hex.number digits = 0 ∨ order ≤ Hex.number digits) : Refused text .secretRange

lemma Refused.ofText_eq (h : Refused text fault) : ofText text = .error fault := by
  cases h with
  | digits hcore h => rw [ofText, isCore_iff.mp hcore, Hex.decode_eq_error_iff.mpr h]
  | length hcore hdigits hcount h =>
    obtain ⟨bytes, rfl, hbytes⟩ := (Hex.exists_decode_iff _).mpr ⟨hcount, hdigits⟩
    rw [ofText_of_decode hcore hbytes, ofBytes_eq_error_iff]
    exact .length h
  | range hdigits h =>
    obtain ⟨bytes, hlength, hbytes⟩ := (Hex.exists_decode_iff 32).mpr hdigits.2
    rw [ofText_of_decode hdigits.1 hbytes, ofBytes_eq_error_iff]
    exact .range hlength (by rwa [← Hex.number_of_decode hbytes])

/-- Every text spells a secret key or is refused. -/
lemma exists_ofText_or_refused (text : String) :
    (∃ key, ofText text = .ok key) ∨ ∃ fault, Refused text fault := by
  have hcore := isCore_trim text.toList
  obtain ⟨bytes, hbytes⟩ | ⟨cause, hrefused⟩ := Hex.exists_decode_or_refused (trim text.toList)
  · have hdigits := (Hex.exists_decode_iff bytes.length).mp ⟨bytes, rfl, hbytes⟩
    rw [ofText_of_decode hcore hbytes]
    -- What is wrong with the bytes is told of the digits, two for each byte and of one number.
    refine (exists_ofBytes_or_refused bytes).imp_right ?_
    rintro ⟨_, h | ⟨hlength, h⟩⟩
    · exact ⟨_, .length hcore hdigits.2 hdigits.1 h⟩
    · rw [hlength] at hdigits
      exact ⟨_, .range ⟨hcore, hdigits⟩ (by rwa [Hex.number_of_decode hbytes])⟩
  · exact .inr ⟨_, .digits hcore hrefused⟩

theorem ofText_eq_error_iff : ofText text = .error fault ↔ Refused text fault :=
  eq_error_iff_of_cases (exists_ofText_or_refused text) fun _ => Refused.ofText_eq

/-! ### Reading and writing -/

/-- A secret key is read from a text exactly if, blanks around it aside, it is made of 64 digits of
either case, without a mark, that write a number of the group other than zero. The key has that
number, it is written with the small forms of the digits, and what is read from this is the same
number with the same point and address. Every other text is refused: for its digits, for how many
bytes these spell, or for the number of 32 bytes. Bytes are read as the secret key of their number
if they are 32 and it is in range; any other length is told as such, and 32 bytes that write zero or
a number that is not below the group order are told as these. -/
theorem secretText_decides :
    (∀ text, (∃ key, ofText text = .ok key) ↔
      ∃ digits, HasDigits text digits ∧ 1 ≤ Hex.number digits ∧ Hex.number digits < order) ∧
    (∀ text digits, HasDigits text digits → 1 ≤ Hex.number digits → Hex.number digits < order →
      ∃ key again, ofText text = .ok key ∧ key.number = Hex.number digits ∧
        key.toText.toList = digits.map Char.toLower ∧ ofText key.toText = .ok again ∧
        again.number = key.number ∧ again.point = key.point ∧ again.address = key.address) ∧
    (∀ text fault, ofText text = .error fault ↔ Refused text fault) ∧
    (∀ text, (∃ fault, Refused text fault) ↔
      ¬ ∃ digits, HasDigits text digits ∧ 1 ≤ Hex.number digits ∧ Hex.number digits < order) ∧
    (∀ bytes key, ofBytes bytes = .ok key ↔
      bytes.length = 32 ∧ Bytes.number bytes = key.number) ∧
    (∀ bytes, bytes.length ≠ 32 → ofBytes bytes = .error (.secretLength bytes.length)) ∧
    ∀ bytes, bytes.length = 32 → Bytes.number bytes = 0 ∨ order ≤ Bytes.number bytes →
      ofBytes bytes = .error .secretRange := by
  refine ⟨fun _ => exists_ofText_iff, ?_, fun _ _ => ofText_eq_error_iff, fun text => ?_,
    fun _ _ => ofBytes_eq_ok_iff, fun _ h => ofBytes_eq_error_iff.mpr (.length h),
    fun _ hlength h => ofBytes_eq_error_iff.mpr (.range hlength h)⟩
  · intro text digits hdigits hpos hlt
    let key : SecretKey := ⟨Hex.number digits, hpos, hlt⟩
    have hread : ofText text = .ok key := ofText_eq_ok_iff.mpr ⟨digits, hdigits, rfl⟩
    exact ⟨key, key, hread, rfl, hdigits.toList_toText rfl, ofText_toText key, rfl, rfl, rfl⟩
  · simp only [← exists_ofText_iff, ← ofText_eq_error_iff]
    cases ofText text <;> simp

/-- The largest number in range, in capitals with blanks around them, is read as a secret key, and
written in small digits. Behind a mark it is refused for the letter of the mark. The group order
itself is refused for its range, in digits as in bytes, and no bytes at all for their number. -/
theorem secretText_decides_of_largest :
    let largest := "FFFFFFFFFFFFFFFFFFFFFFFFFFFFFFFEBAAEDCE6AF48A03BBFD25E8CD0364140"
    let excess := "fffffffffffffffffffffffffffffffebaaedce6af48a03bbfd25e8cd0364141"
    HasDigits ("\t" ++ largest ++ "\n") largest.toList ∧
      1 ≤ Hex.number largest.toList ∧ Hex.number largest.toList < order ∧
      (∃ key, ofText ("\t" ++ largest ++ "\n") = .ok key ∧ key.number = order - 1 ∧
        key.toText.toList = largest.toList.map Char.toLower) ∧
      ofText ("0x" ++ largest) = .error (.secretHex (.badDigit 0x78 1)) ∧
      ofText excess = .error .secretRange ∧
      (Bytes.ofNumber 32 order).length = 32 ∧ order ≤ Bytes.number (Bytes.ofNumber 32 order) ∧
      ofBytes (Bytes.ofNumber 32 order) = .error .secretRange ∧
      ([] : List UInt8).length ≠ 32 ∧ ofBytes [] = .error (.secretLength 0) := by
  intro largest excess
  obtain ⟨-, hread, hrefused, -, -, hcount, hrange⟩ := secretText_decides
  have hcore : IsCore ("\t" ++ largest ++ "\n").toList largest.toList :=
    isCore_iff.mpr (by decide +kernel)
  have hspelled : Hex.decode largest.toList = .ok (Bytes.ofNumber 32 (order - 1)) := by
    decide +kernel
  have hlargest : HasDigits ("\t" ++ largest ++ "\n") largest.toList :=
    ⟨hcore, (Hex.exists_decode_iff 32).mp ⟨_, Bytes.length_ofNumber _ _, hspelled⟩⟩
  have hnumber : Hex.number largest.toList = order - 1 := by
    rw [Hex.number_of_decode hspelled, Bytes.number_ofNumber (by decide)]
  have hpos : 1 ≤ Hex.number largest.toList := by rw [hnumber]; decide
  have hlt : Hex.number largest.toList < order := by rw [hnumber]; decide
  obtain ⟨key, -, hkey, hsame, hwritten, -⟩ := hread _ _ hlargest hpos hlt
  have hmarked : IsCore ("0x" ++ largest).toList ("0x" ++ largest).toList :=
    isCore_iff.mpr (by decide +kernel)
  have hletter : Hex.Refused ("0x" ++ largest).toList (.badDigit 0x78 1) :=
    Hex.decode_eq_error_iff.mp (by decide +kernel)
  have hspelled' : Hex.decode excess.toList = .ok (Bytes.ofNumber 32 order) := by decide +kernel
  have hexcess : HasDigits excess excess.toList :=
    ⟨isCore_iff.mpr (by decide +kernel),
      (Hex.exists_decode_iff 32).mp ⟨_, Bytes.length_ofNumber _ _, hspelled'⟩⟩
  have hbytes : order ≤ Bytes.number (Bytes.ofNumber 32 order) := by
    rw [Bytes.number_ofNumber (by decide)]
  have horder : order ≤ Hex.number excess.toList := by rwa [Hex.number_of_decode hspelled']
  have hlength : (Bytes.ofNumber 32 order).length = 32 := Bytes.length_ofNumber _ _
  have hnone : ([] : List UInt8).length ≠ 32 := by decide
  exact ⟨hlargest, hpos, hlt, ⟨key, hkey, hsame.trans hnumber, hwritten⟩,
    (hrefused _ _).mpr (.digits hmarked hletter), (hrefused _ _).mpr (.range hexcess (.inr horder)),
    hlength, hbytes, hrange _ hlength (.inr hbytes), hnone, hcount _ hnone⟩

end SecretKey

end Admission
