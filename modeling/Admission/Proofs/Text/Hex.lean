import Admission.Bytes
import Admission.Text.Blank
import Admission.Text.Hex
import Admission.Proofs.Outcome
import Admission.Proofs.Text.Utf8

/-!
# Hexadecimal texts read back

Byte strings are read back from the digits they are written in (`decode_encode`). Reading takes
digits of either case, and nothing else: a text is read as the bytes whose digits it writes once its
capitals are made small (`decode_eq_ok_iff`). Where there is a character that is no digit, the first
one is blamed, whatever stands behind it (`decode_eq_error_iff`).
-/

namespace Admission.Text.Hex

/-! ## Written digits -/

/-- The digits of a byte are digits of its halves. -/
lemma exists_digit_of_mem_encode {c : Char} {bytes : List UInt8} (hc : c ∈ encode bytes) :
    ∃ value < 16, c = Nat.digitChar value := by
  rw [encode, List.mem_flatMap] at hc
  obtain ⟨byte, -, hbyte⟩ := hc
  have hlt := byte.toNat_lt
  rw [pair, List.mem_cons, List.mem_singleton] at hbyte
  rcases hbyte with rfl | rfl
  · exact ⟨byte.toNat / 16, by omega, rfl⟩
  · exact ⟨byte.toNat % 16, by omega, rfl⟩

/-- The sixteen digits are ASCII characters other than the comma. -/
lemma digitChar_plain : ∀ value < 16,
    (Nat.digitChar value).toNat < 128 ∧ Nat.digitChar value ≠ ',' := by decide

lemma ascii_of_mem_encode {c : Char} {bytes : List UInt8} (hc : c ∈ encode bytes) :
    c.toNat < 128 := by
  obtain ⟨value, hvalue, rfl⟩ := exists_digit_of_mem_encode hc
  exact (digitChar_plain value hvalue).1

/-- Two digits are written for each byte. -/
@[simp] lemma length_encode (bytes : List UInt8) : (encode bytes).length = 2 * bytes.length := by
  induction bytes with
  | nil => rfl
  | cons byte rest ih =>
    have hstep : encode (byte :: rest) = pair byte ++ encode rest := rfl
    rw [hstep, List.length_append, ih, List.length_cons]
    simp only [pair, List.length_cons, List.length_nil]
    omega

lemma byteLength_encode (bytes : List UInt8) : byteLength (encode bytes) = 2 * bytes.length := by
  rw [byteLength_of_ascii fun c hc => ascii_of_mem_encode hc, length_encode]

/-- Written bytes are read back. -/
theorem decode_encode (bytes : List UInt8) : decode (encode bytes) = .ok bytes := by
  rw [decode, byteLength_encode, if_neg (by omega), decodeFrom_encode]

/-- Different byte strings are written differently. -/
theorem encode_injective : Function.Injective encode := by
  intro a b h
  have hdecode : decode (encode a) = decode (encode b) := by rw [h]
  rw [decode_encode, decode_encode] at hdecode
  exact Except.ok.inj hdecode

/-! ## Digits of either case -/

lemma toNat_toLower (c : Char) :
    c.toLower.toNat = if 65 ≤ c.toNat ∧ c.toNat ≤ 90 then c.toNat + 32 else c.toNat := by
  have hcapital : (c.val ≥ 'A'.val ∧ c.val ≤ 'Z'.val) ↔ 65 ≤ c.toNat ∧ c.toNat ≤ 90 := by
    rw [ge_iff_le, UInt32.le_iff_toNat_le, UInt32.le_iff_toNat_le]
    rfl
  unfold Char.toLower
  by_cases h : 65 ≤ c.toNat ∧ c.toNat ≤ 90
  · rw [dif_pos (hcapital.mpr h), if_pos h]
    show (c.val + ('a'.val - 'A'.val)).toNat = c.val.toNat + 32
    rw [UInt32.toNat_add]
    exact Nat.mod_eq_of_lt (by show c.toNat + 32 < _; omega)
  · rw [dif_neg fun h' => h (hcapital.mp h'), if_neg h]

/-- The digits by their numbers: `0` is 48, `a` is 97. -/
lemma toNat_digitChar : ∀ value < 16,
    (Nat.digitChar value).toNat = if value < 10 then 48 + value else 87 + value := by decide

lemma digit?_eq (c : Char) :
    digit? c = if 48 ≤ c.toNat ∧ c.toNat ≤ 57 then some (c.toNat - 48)
      else if 97 ≤ c.toNat ∧ c.toNat ≤ 102 then some (c.toNat - 97 + 10)
      else if 65 ≤ c.toNat ∧ c.toNat ≤ 70 then some (c.toNat - 65 + 10)
      else none := by
  unfold digit?
  simp only [Char.le_def, UInt32.le_iff_toNat_le]
  rfl

/-- A digit of either case has the value that its small form writes. -/
lemma digit?_eq_some_iff {c : Char} {value : ℕ} :
    digit? c = some value ↔ value < 16 ∧ c.toLower = Nat.digitChar value := by
  have hlower := toNat_toLower c
  constructor
  · intro h
    have hvalue : value < 16 ∧ c.toLower.toNat = if value < 10 then 48 + value else 87 + value := by
      rw [digit?_eq] at h
      grind
    refine ⟨hvalue.1, Char.toNat_inj.mp ?_⟩
    rw [hvalue.2, toNat_digitChar value hvalue.1]
  · rintro ⟨hlt, hsame⟩
    rw [hsame, toNat_digitChar value hlt] at hlower
    rw [digit?_eq]
    grind

/-- A character whose small form is a digit is an ASCII character. -/
lemma ascii_of_toLower {c : Char} {value : ℕ} (hlt : value < 16)
    (h : c.toLower = Nat.digitChar value) : c.toNat < 128 := by
  have hlower := toNat_toLower c
  rw [h, toNat_digitChar value hlt] at hlower
  split at hlower <;> split at hlower <;> omega

/-- A hexadecimal digit of either case. -/
def IsDigit (c : Char) : Prop :=
  ('0' ≤ c ∧ c ≤ '9') ∨ ('a' ≤ c ∧ c ≤ 'f') ∨ ('A' ≤ c ∧ c ≤ 'F')

instance (c : Char) : Decidable (IsDigit c) :=
  inferInstanceAs (Decidable (_ ∨ _ ∨ _))

/-- The digits are the characters that have a value. -/
lemma exists_digit?_iff {c : Char} : (∃ value, digit? c = some value) ↔ IsDigit c := by
  unfold IsDigit digit?
  split_ifs <;> simp_all

lemma isDigit_iff {c : Char} : IsDigit c ↔ ∃ value < 16, c.toLower = Nat.digitChar value := by
  simp only [← exists_digit?_iff, digit?_eq_some_iff]

/-- The letter of a mark is no digit. -/
lemma x_notMem {text : List Char} (h : ∀ c ∈ text, IsDigit c) : 'x' ∉ text ∧ 'X' ∉ text :=
  ⟨fun hx => absurd (h 'x' hx) (by decide), fun hx => absurd (h 'X' hx) (by decide)⟩

/-- No digit is a blank. -/
lemma isBlank_of_isDigit {c : Char} (h : IsDigit c) : isBlank c = false := by
  have hc : (48 ≤ c.toNat ∧ c.toNat ≤ 57) ∨ (97 ≤ c.toNat ∧ c.toNat ≤ 102) ∨
      (65 ≤ c.toNat ∧ c.toNat ≤ 70) := by
    simp only [IsDigit, Char.le_def, UInt32.le_iff_toNat_le] at h
    exact h
  simp only [isBlank, Bool.or_eq_false_iff, Bool.and_eq_false_iff, decide_eq_false_iff_not,
    beq_eq_false_iff_ne]
  omega

/-- Digits take one byte each. -/
lemma byteLength_of_isDigit {text : List Char} (h : ∀ c ∈ text, IsDigit c) :
    byteLength text = text.length := by
  apply byteLength_of_ascii
  intro c hc
  obtain ⟨value, hvalue, hsame⟩ := isDigit_iff.mp (h c hc)
  exact ascii_of_toLower hvalue hsame

/-- Two digits are read as a byte before the bytes that follow. -/
lemma decodeFrom_cons_cons_eq_ok_iff {offset : ℕ} {high low : Char} {rest : List Char}
    {bytes : List UInt8} :
    decodeFrom offset (high :: low :: rest) = .ok bytes ↔
      ∃ h l tail, digit? high = some h ∧ digit? low = some l ∧
        decodeFrom (offset + 2) rest = .ok tail ∧ bytes = UInt8.ofNat (16 * h + l) :: tail := by
  rw [decodeFrom, digitAt, digitAt]
  cases digit? high with
  | none => simp [bind, Except.bind]
  | some h =>
    cases digit? low with
    | none => simp [bind, Except.bind]
    | some l =>
      cases decodeFrom (offset + 2) rest with
      | error fault => simp [bind, Except.bind]
      | ok tail => simp [bind, Except.bind, eq_comm (a := bytes)]

/-- The values of two digits fit a byte. -/
lemma toNat_ofNat_halves {h l : ℕ} (hh : h < 16) (hl : l < 16) :
    (UInt8.ofNat (16 * h + l)).toNat = 16 * h + l := by
  rw [UInt8.toNat_ofNat']
  omega

/-- The halves of a byte are read off it again. -/
lemma pair_ofNat {h l : ℕ} (hh : h < 16) (hl : l < 16) :
    pair (UInt8.ofNat (16 * h + l)) = [Nat.digitChar h, Nat.digitChar l] := by
  have hhigh : (16 * h + l) / 16 = h := by omega
  have hlow : (16 * h + l) % 16 = l := by omega
  rw [pair, toNat_ofNat_halves hh hl, hhigh, hlow]

/-- Digits are read, wherever the first of them stands, as the bytes that their small forms write.
-/
lemma decodeFrom_eq_ok_iff (offset : ℕ) {text : List Char} {bytes : List UInt8} :
    decodeFrom offset text = .ok bytes ↔ text.map Char.toLower = encode bytes := by
  induction text using List.twoStepInduction generalizing offset bytes with
  | nil =>
    cases bytes with
    | nil => exact iff_of_true rfl rfl
    | cons byte rest =>
      constructor
      · intro h
        cases h
      · intro h
        cases h
  | singleton last =>
    have hodd : [last].map Char.toLower ≠ encode bytes := by
      intro h
      have hlength := congrArg List.length h
      rw [length_encode, List.length_map, List.length_singleton] at hlength
      omega
    refine iff_of_false ?_ hodd
    rw [decodeFrom]
    intro h
    cases hdigit : digitAt offset last with
    | error fault =>
      rw [hdigit] at h
      cases h
    | ok value =>
      rw [hdigit] at h
      cases h
  | cons_cons high low rest ih _ =>
    rw [decodeFrom_cons_cons_eq_ok_iff, List.map_cons, List.map_cons]
    constructor
    · rintro ⟨h, l, tail, hhigh, hlow, htail, rfl⟩
      obtain ⟨hlt, hhigh⟩ := digit?_eq_some_iff.mp hhigh
      obtain ⟨llt, hlow⟩ := digit?_eq_some_iff.mp hlow
      rw [hhigh, hlow, (ih _).mp htail, encode, encode, List.flatMap_cons, pair_ofNat hlt llt]
      rfl
    · intro h
      cases bytes with
      | nil => cases h
      | cons byte tail =>
        have hlt := byte.toNat_lt
        injection h with hhigh h
        injection h with hlow htail
        refine ⟨byte.toNat / 16, byte.toNat % 16, tail, ?_, ?_, (ih _).mpr htail, ?_⟩
        · exact digit?_eq_some_iff.mpr ⟨by omega, hhigh⟩
        · exact digit?_eq_some_iff.mpr ⟨by omega, hlow⟩
        · rw [ofNat_halves]

/-- Characters whose small forms are written digits are digits. -/
lemma isDigit_of_map_toLower {text : List Char} {bytes : List UInt8}
    (h : text.map Char.toLower = encode bytes) : ∀ c ∈ text, IsDigit c := by
  intro c hc
  have hmem : c.toLower ∈ encode bytes := h ▸ List.mem_map_of_mem hc
  exact isDigit_iff.mpr (exists_digit_of_mem_encode hmem)

/-- Characters whose small forms are written digits take one byte each. -/
lemma byteLength_of_map_toLower {text : List Char} {bytes : List UInt8}
    (h : text.map Char.toLower = encode bytes) : byteLength text = 2 * bytes.length := by
  rw [byteLength_of_isDigit (isDigit_of_map_toLower h), ← length_encode, ← h, List.length_map]

/-- A text is read as the bytes that it writes once its capitals are made small. -/
theorem decode_eq_ok_iff {text : List Char} {bytes : List UInt8} :
    decode text = .ok bytes ↔ text.map Char.toLower = encode bytes := by
  unfold decode
  constructor
  · intro h
    split at h
    · cases h
    · exact (decodeFrom_eq_ok_iff 0).mp h
  · intro h
    rw [byteLength_of_map_toLower h, if_neg (by omega)]
    exact (decodeFrom_eq_ok_iff 0).mpr h

/-! ## Texts of digits -/

/-- Digits of either case, two for each byte, are what is written once the capitals are made
small. -/
lemma exists_map_toLower_eq_encode {text : List Char} (n : ℕ) :
    (∃ bytes, bytes.length = n ∧ text.map Char.toLower = encode bytes) ↔
      text.length = 2 * n ∧ ∀ c ∈ text, IsDigit c := by
  constructor
  · rintro ⟨bytes, rfl, h⟩
    exact ⟨by rw [← length_encode, ← h, List.length_map], isDigit_of_map_toLower h⟩
  · rintro ⟨hlength, hdigits⟩
    induction n generalizing text with
    | zero =>
      rw [Nat.mul_zero, List.length_eq_zero_iff] at hlength
      exact ⟨[], rfl, by rw [hlength]; rfl⟩
    | succ n ih =>
      -- The two digits that open the text write the first byte.
      obtain ⟨high, low, rest, rfl⟩ : ∃ high low rest, text = high :: low :: rest := by
        match text, hlength with
        | high :: low :: rest, _ => exact ⟨high, low, rest, rfl⟩
      rw [List.forall_mem_cons, List.forall_mem_cons] at hdigits
      obtain ⟨hhigh, hlow, hrest⟩ := hdigits
      obtain ⟨h, hh, hhigh⟩ := isDigit_iff.mp hhigh
      obtain ⟨l, hl, hlow⟩ := isDigit_iff.mp hlow
      have hshort : rest.length = 2 * n := by
        rw [List.length_cons, List.length_cons] at hlength
        omega
      obtain ⟨bytes, hbytes, hrest⟩ := ih hshort hrest
      refine ⟨UInt8.ofNat (16 * h + l) :: bytes, congrArg Nat.succ hbytes, ?_⟩
      have hencode : encode (UInt8.ofNat (16 * h + l) :: bytes)
          = pair (UInt8.ofNat (16 * h + l)) ++ encode bytes := rfl
      rw [hencode, pair_ofNat hh hl, List.map_cons, List.map_cons, hhigh, hlow, hrest]
      rfl

/-- Written digits are digits. -/
lemma isDigit_of_mem_encode (bytes : List UInt8) : ∀ c ∈ encode bytes, IsDigit c :=
  isDigit_of_map_toLower (decode_eq_ok_iff.mp (decode_encode bytes))

/-- The texts of so many bytes are those of twice as many digits. -/
lemma exists_decode_iff {text : List Char} (n : ℕ) :
    (∃ bytes, bytes.length = n ∧ decode text = .ok bytes) ↔
      text.length = 2 * n ∧ ∀ c ∈ text, IsDigit c := by
  simp only [decode_eq_ok_iff]
  exact exists_map_toLower_eq_encode n

/-! ## The number of digits -/

/-- The number that digits of either case write, the first leading. -/
def number (digits : List Char) : ℕ :=
  digits.foldl (fun n c => 16 * n + (digit? c).getD 0) 0

/-- Two digits count what their byte does, whatever was counted before them. -/
lemma foldl_of_decodeFrom {offset : ℕ} {text : List Char} {bytes : List UInt8}
    (hread : decodeFrom offset text = .ok bytes) (n : ℕ) :
    text.foldl (fun n c => 16 * n + (digit? c).getD 0) n
      = bytes.foldl (fun n byte => 256 * n + byte.toNat) n := by
  induction text using List.twoStepInduction generalizing offset bytes n with
  | nil =>
    cases hread
    rfl
  | singleton last =>
    rw [decodeFrom] at hread
    obtain ⟨value, -, hlast⟩ := bind_eq_ok_iff.mp hread
    cases hlast
  | cons_cons high low rest ih _ =>
    obtain ⟨h, l, tail, hhigh, hlow, htail, rfl⟩ := decodeFrom_cons_cons_eq_ok_iff.mp hread
    have hbyte := toNat_ofNat_halves (digit?_eq_some_iff.mp hhigh).1 (digit?_eq_some_iff.mp hlow).1
    have hcount : 16 * (16 * n + h) + l = 256 * n + (16 * h + l) := by omega
    rw [List.foldl_cons, List.foldl_cons, List.foldl_cons, hhigh, hlow, Option.getD_some,
      Option.getD_some, hbyte, hcount]
    exact ih htail _

/-- Digits write the number of the bytes that they spell. -/
theorem number_of_decode {text : List Char} {bytes : List UInt8} (h : decode text = .ok bytes) :
    number text = Bytes.number bytes :=
  foldl_of_decodeFrom ((decodeFrom_eq_ok_iff 0).mpr (decode_eq_ok_iff.mp h)) 0

/-! ## Texts that are refused -/

lemma digitAt_eq_error {c : Char} (h : ¬ IsDigit c) (offset : ℕ) :
    digitAt offset c = .error (.badDigit (firstByte c) offset) := by
  cases hdigit : digit? c with
  | none => rw [digitAt, hdigit]
  | some value => exact absurd (exists_digit?_iff.mp ⟨value, hdigit⟩) h

lemma exists_digitAt {c : Char} (h : IsDigit c) (offset : ℕ) :
    ∃ value, digitAt offset c = .ok value := by
  obtain ⟨value, hvalue⟩ := exists_digit?_iff.mpr h
  exact ⟨value, by rw [digitAt, hvalue]⟩

/-- The first character that is no digit ends the reading. -/
lemma decodeFrom_append_cons {before : List Char} {c : Char} (offset : ℕ)
    (hbefore : ∀ d ∈ before, IsDigit d) (hc : ¬ IsDigit c) (after : List Char) :
    decodeFrom offset (before ++ c :: after)
      = .error (.badDigit (firstByte c) (offset + before.length)) := by
  induction before using List.twoStepInduction generalizing offset with
  | nil =>
    -- Whether it is the last character or opens a pair, it is looked at first.
    cases after <;>
    · rw [List.nil_append, decodeFrom, digitAt_eq_error hc]
      rfl
  | singleton high =>
    obtain ⟨value, hhigh⟩ := exists_digitAt (hbefore high List.mem_cons_self) offset
    show decodeFrom offset (high :: c :: after) = _
    rw [decodeFrom, hhigh, digitAt_eq_error hc]
    rfl
  | cons_cons high low rest ih _ =>
    rw [List.forall_mem_cons, List.forall_mem_cons] at hbefore
    obtain ⟨hhigh, hlow, hrest⟩ := hbefore
    obtain ⟨h, hhigh⟩ := exists_digitAt hhigh offset
    obtain ⟨l, hlow⟩ := exists_digitAt hlow (offset + 1)
    have hplace : offset + 2 + rest.length = offset + (high :: low :: rest).length := by
      rw [List.length_cons, List.length_cons]
      omega
    show decodeFrom offset (high :: low :: (rest ++ c :: after)) = _
    rw [decodeFrom, hhigh, hlow, ih (offset + 2) hrest, hplace]
    rfl

/-- Why a text spells no bytes: the number of its own bytes is odd, or some character is no digit,
of which the first one is told with its place. -/
inductive Refused (text : List Char) : Fault → Prop
  | oddLength (h : byteLength text % 2 = 1) : Refused text .oddLength
  | badDigit {before after : List Char} {c : Char} (heven : byteLength text % 2 = 0)
      (htext : text = before ++ c :: after) (hbefore : ∀ d ∈ before, IsDigit d)
      (hc : ¬ IsDigit c) : Refused text (.badDigit (firstByte c) before.length)

lemma Refused.decode_eq {text : List Char} {fault : Fault} (h : Refused text fault) :
    decode text = .error fault := by
  unfold decode
  cases h with
  | oddLength h => rw [if_pos h]
  | badDigit heven htext hbefore hc =>
    rw [if_neg (by omega), htext, decodeFrom_append_cons 0 hbefore hc, Nat.zero_add]

/-- Every text spells bytes or is refused. -/
lemma exists_decode_or_refused (text : List Char) :
    (∃ bytes, decode text = .ok bytes) ∨ ∃ fault, Refused text fault := by
  rcases Nat.mod_two_eq_zero_or_one (byteLength text) with heven | hodd
  · cases hfound : text.find? fun c => !decide (IsDigit c) with
    | none =>
      left
      have hdigits : ∀ c ∈ text, IsDigit c := by simpa using hfound
      have hlength : text.length = 2 * (text.length / 2) := by
        rw [byteLength_of_isDigit hdigits] at heven
        omega
      obtain ⟨bytes, -, hbytes⟩ := (exists_map_toLower_eq_encode _).mpr ⟨hlength, hdigits⟩
      exact ⟨bytes, decode_eq_ok_iff.mpr hbytes⟩
    | some c =>
      right
      obtain ⟨hc, before, after, htext, hbefore⟩ := List.find?_eq_some_iff_append.mp hfound
      exact ⟨_, .badDigit heven htext (by simpa using hbefore) (by simpa using hc)⟩
  · exact .inr ⟨_, .oddLength hodd⟩

/-- A text is refused for what is wrong with it. -/
theorem decode_eq_error_iff {text : List Char} {fault : Fault} :
    decode text = .error fault ↔ Refused text fault :=
  eq_error_iff_of_cases (exists_decode_or_refused text) fun _ => Refused.decode_eq

end Admission.Text.Hex
