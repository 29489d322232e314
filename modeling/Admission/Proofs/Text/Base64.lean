import Admission.Proofs.Outcome
import Admission.Proofs.Text.Utf8
import Admission.Text.Base64
import Mathlib.Tactic

/-!
# Base64 texts read back

Every byte string is read back from its padded spelling (`decode_encode`), so no two byte strings
share one (`encode_injective`), and nothing but the padded spelling is read as a byte string
(`decode_eq_ok_iff`). Which texts are such spellings is told group by group (`exists_decode_iff`).
The proofs follow the groups: three bytes fill four symbols, and one or two bytes that are left over
fill the last group with padding.
-/

namespace Admission.Text.Base64

/-! ## Symbols -/

/-- A symbol is an ASCII character and no padding mark. -/
lemma symbol_plain : ∀ value < 64, (symbol value).toNat < 128 ∧ symbol value ≠ '=' := by decide

lemma symbol_ne_padding {value : ℕ} (h : value < 64) : symbol value ≠ '=' :=
  (symbol_plain value h).2

lemma valueAt_symbol (offset : ℕ) {value : ℕ} (h : value < 64) :
    valueAt offset (symbol value) = .ok value := by
  rw [valueAt, value?_symbol h]

/-! ## Groups -/

section Group

variable (a b c : UInt8)

/-- The bounds of the six-bit values that three bytes are cut into. -/
lemma cut_lt : a.toNat / 4 < 64 ∧ a.toNat % 4 * 16 + b.toNat / 16 < 64 ∧
    b.toNat % 16 * 4 + c.toNat / 64 < 64 ∧ c.toNat % 64 < 64 := by
  have ha := a.toNat_lt
  have hb := b.toNat_lt
  have hc := c.toNat_lt
  omega

/-- The first byte of a group: six bits and two. -/
lemma ofNat_first {y : ℕ} (h : y / 16 = a.toNat % 4) :
    UInt8.ofNat (a.toNat / 4 * 4 + y / 16) = a := by
  rw [h, Nat.div_add_mod', UInt8.ofNat_toNat]

/-- The second byte of a group: four bits and four. -/
lemma ofNat_second {y z : ℕ} (hy : y % 16 = b.toNat / 16) (hz : z / 4 = b.toNat % 16) :
    UInt8.ofNat (y % 16 * 16 + z / 4) = b := by
  rw [hy, hz, Nat.div_add_mod', UInt8.ofNat_toNat]

/-- The third byte of a group: two bits and six. -/
lemma ofNat_third {z : ℕ} (h : z % 4 = c.toNat / 64) :
    UInt8.ofNat (z % 4 * 64 + c.toNat % 64) = c := by
  rw [h, Nat.div_add_mod', UInt8.ofNat_toNat]

lemma decodeOne_symbols (offset : ℕ) :
    decodeOne offset (symbol (a.toNat / 4)) (symbol (a.toNat % 4 * 16)) = .ok [a] := by
  obtain ⟨h1, h2, -, -⟩ := cut_lt a 0 0
  rw [UInt8.toNat_zero, Nat.zero_div, Nat.add_zero] at h2
  simp only [decodeOne, valueAt_symbol _ h1, valueAt_symbol _ h2]
  change (if a.toNat % 4 * 16 % 16 = 0 then _ else _) = _
  rw [if_pos (by omega), ofNat_first a (by omega)]

lemma decodeTwo_symbols (offset : ℕ) :
    decodeTwo offset (symbol (a.toNat / 4)) (symbol (a.toNat % 4 * 16 + b.toNat / 16))
      (symbol (b.toNat % 16 * 4)) = .ok [a, b] := by
  have hb := b.toNat_lt
  obtain ⟨h1, h2, h3, -⟩ := cut_lt a b 0
  rw [UInt8.toNat_zero, Nat.zero_div, Nat.add_zero] at h3
  simp only [decodeTwo, valueAt_symbol _ h1, valueAt_symbol _ h2, valueAt_symbol _ h3]
  change (if b.toNat % 16 * 4 % 4 = 0 then _ else _) = _
  rw [if_pos (by omega), ofNat_first a (by omega), ofNat_second b (by omega) (by omega)]

lemma decodeThree_symbols (offset : ℕ) :
    decodeThree offset (symbol (a.toNat / 4)) (symbol (a.toNat % 4 * 16 + b.toNat / 16))
      (symbol (b.toNat % 16 * 4 + c.toNat / 64)) (symbol (c.toNat % 64)) = .ok [a, b, c] := by
  have hb := b.toNat_lt
  have hc := c.toNat_lt
  obtain ⟨h1, h2, h3, h4⟩ := cut_lt a b c
  simp only [decodeThree, valueAt_symbol _ h1, valueAt_symbol _ h2, valueAt_symbol _ h3,
    valueAt_symbol _ h4]
  change Except.ok _ = _
  rw [ofNat_first a (by omega), ofNat_second b (by omega) (by omega), ofNat_third c (by omega)]

end Group

/-! ## Whole texts -/

/-- Groups of symbols are read back, wherever the first of them stands. -/
theorem decodeFrom_encode (bytes : List UInt8) (offset : ℕ) :
    decodeFrom offset (encode bytes) = .ok bytes := by
  induction bytes using encode.induct generalizing offset with
  | case1 => rfl
  | case2 a =>
    rw [encode, decodeFrom, if_pos ⟨rfl, rfl, rfl⟩, decodeOne_symbols]
  | case3 a b =>
    have hlt := cut_lt a b 0
    rw [UInt8.toNat_zero, Nat.zero_div, Nat.add_zero] at hlt
    -- The third character is a symbol, so the group has one mark and not two.
    rw [encode, decodeFrom, if_neg fun h => symbol_ne_padding hlt.2.2.1 h.2.1,
      if_pos ⟨rfl, rfl⟩, decodeTwo_symbols]
  | case4 a b c rest ih =>
    obtain ⟨-, -, -, h4⟩ := cut_lt a b c
    rw [encode, decodeFrom, if_neg fun h => symbol_ne_padding h4 h.2.2,
      if_neg fun h => symbol_ne_padding h4 h.2, decodeThree_symbols, ih]
    rfl

/-- Every written character is an ASCII character. -/
lemma ascii_of_mem_encode {c : Char} {bytes : List UInt8} (hc : c ∈ encode bytes) :
    c.toNat < 128 := by
  induction bytes using encode.induct with
  | case1 => cases hc
  | case2 a =>
    obtain ⟨h1, h2, -, -⟩ := cut_lt a 0 0
    rw [UInt8.toNat_zero, Nat.zero_div, Nat.add_zero] at h2
    simp only [encode, List.mem_cons, List.not_mem_nil, or_false] at hc
    rcases hc with rfl | rfl | rfl | rfl
    · exact (symbol_plain _ h1).1
    · exact (symbol_plain _ h2).1
    · decide
    · decide
  | case3 a b =>
    obtain ⟨h1, h2, h3, -⟩ := cut_lt a b 0
    rw [UInt8.toNat_zero, Nat.zero_div, Nat.add_zero] at h3
    simp only [encode, List.mem_cons, List.not_mem_nil, or_false] at hc
    rcases hc with rfl | rfl | rfl | rfl
    · exact (symbol_plain _ h1).1
    · exact (symbol_plain _ h2).1
    · exact (symbol_plain _ h3).1
    · decide
  | case4 a b c rest ih =>
    obtain ⟨h1, h2, h3, h4⟩ := cut_lt a b c
    simp only [encode, List.mem_cons] at hc
    rcases hc with rfl | rfl | rfl | rfl | hc
    · exact (symbol_plain _ h1).1
    · exact (symbol_plain _ h2).1
    · exact (symbol_plain _ h3).1
    · exact (symbol_plain _ h4).1
    · exact ih hc

/-- A spelling fills its groups of four. -/
lemma length_encode_mod (bytes : List UInt8) : (encode bytes).length % 4 = 0 := by
  induction bytes using encode.induct with
  | case1 => rfl
  | case2 a => exact Nat.mod_self 4
  | case3 a b => exact Nat.mod_self 4
  | case4 a b c rest ih =>
    rw [encode]
    simp only [List.length_cons]
    omega

/-- Every byte string is read back from its spelling. -/
theorem decode_encode (bytes : List UInt8) : decode (encode bytes) = .ok bytes := by
  have hlength : byteLength (encode bytes) % 4 ≠ 1 := by
    rw [byteLength_of_ascii fun c hc => ascii_of_mem_encode hc, length_encode_mod]
    decide
  rw [decode, if_neg hlength, decodeFrom_encode]

/-! ## Read texts -/

/-- The symbols by their numbers: `A` is 65, `a` is 97, `0` is 48. -/
lemma toNat_symbol : ∀ value < 64, (symbol value).toNat =
    if value < 26 then 65 + value else if value < 52 then 71 + value
      else if value < 62 then value - 4 else if value = 62 then 43 else 47 := by decide

lemma value?_eq (c : Char) :
    value? c = if 65 ≤ c.toNat ∧ c.toNat ≤ 90 then some (c.toNat - 65)
      else if 97 ≤ c.toNat ∧ c.toNat ≤ 122 then some (c.toNat - 97 + 26)
      else if 48 ≤ c.toNat ∧ c.toNat ≤ 57 then some (c.toNat - 48 + 52)
      else if c.toNat = 43 then some 62
      else if c.toNat = 47 then some 63
      else none := by
  have hplus : c = '+' ↔ c.toNat = 43 := Char.toNat_inj.symm
  have hslash : c = '/' ↔ c.toNat = 47 := Char.toNat_inj.symm
  unfold value?
  simp only [hplus, hslash, Char.le_def, UInt32.le_iff_toNat_le]
  rfl

/-- A six-bit value is read from its symbol and from nothing else. -/
lemma value?_eq_some_iff {c : Char} {value : ℕ} :
    value? c = some value ↔ value < 64 ∧ c = symbol value := by
  constructor
  · intro h
    have hvalue : value < 64 ∧ c.toNat =
        if value < 26 then 65 + value else if value < 52 then 71 + value
          else if value < 62 then value - 4 else if value = 62 then 43 else 47 := by
      rw [value?_eq] at h
      grind
    refine ⟨hvalue.1, Char.toNat_inj.mp ?_⟩
    rw [hvalue.2, toNat_symbol value hvalue.1]
  · rintro ⟨hlt, rfl⟩
    exact value?_symbol hlt

lemma valueAt_eq_ok_iff {offset : ℕ} {c : Char} {value : ℕ} :
    valueAt offset c = .ok value ↔ value < 64 ∧ c = symbol value := by
  rw [← value?_eq_some_iff, valueAt]
  cases value? c <;> simp

/-- A number below 256 is that of its byte. -/
lemma toNat_ofNat_of_lt {n : ℕ} (h : n < 256) : (UInt8.ofNat n).toNat = n :=
  UInt8.toNat_ofNat_of_lt' h

/-- A group with two marks is the spelling of its byte: the bits that spell no byte are zero. -/
lemma eq_encode_of_decodeOne {offset : ℕ} {a b : Char} {bytes : List UInt8}
    (h : decodeOne offset a b = .ok bytes) : [a, b, '=', '='] = encode bytes := by
  simp only [decodeOne, bind_eq_ok_iff, valueAt_eq_ok_iff] at h
  obtain ⟨x, ⟨hx, rfl⟩, y, ⟨hy, rfl⟩, h⟩ := h
  split at h
  · injection h with hbytes
    have hfirst : (x * 4 + y / 16) / 4 = x := by omega
    have hrest : (x * 4 + y / 16) % 4 * 16 = y := by omega
    rw [← hbytes, encode, toNat_ofNat_of_lt (by omega), hfirst, hrest]
  · cases h

/-- A group with one mark is the spelling of its two bytes. -/
lemma eq_encode_of_decodeTwo {offset : ℕ} {a b c : Char} {bytes : List UInt8}
    (h : decodeTwo offset a b c = .ok bytes) : [a, b, c, '='] = encode bytes := by
  simp only [decodeTwo, bind_eq_ok_iff, valueAt_eq_ok_iff] at h
  obtain ⟨x, ⟨hx, rfl⟩, y, ⟨hy, rfl⟩, z, ⟨hz, rfl⟩, h⟩ := h
  split at h
  · injection h with hbytes
    have hfirst : (x * 4 + y / 16) / 4 = x := by omega
    have hsecond : (x * 4 + y / 16) % 4 * 16 + (y % 16 * 16 + z / 4) / 16 = y := by omega
    have hrest : (y % 16 * 16 + z / 4) % 16 * 4 = z := by omega
    rw [← hbytes, encode, toNat_ofNat_of_lt (by omega), toNat_ofNat_of_lt (by omega), hfirst,
      hsecond, hrest]
  · cases h

/-- A full group is the spelling of its three bytes, whatever bytes follow. -/
lemma cons_eq_encode_of_decodeThree {offset : ℕ} {a b c d : Char} {bytes : List UInt8}
    (h : decodeThree offset a b c d = .ok bytes) (rest : List UInt8) :
    a :: b :: c :: d :: encode rest = encode (bytes ++ rest) := by
  simp only [decodeThree, bind_eq_ok_iff, valueAt_eq_ok_iff] at h
  obtain ⟨x, ⟨hx, rfl⟩, y, ⟨hy, rfl⟩, z, ⟨hz, rfl⟩, w, ⟨hw, rfl⟩, h⟩ := h
  injection h with hbytes
  have hfirst : (x * 4 + y / 16) / 4 = x := by omega
  have hsecond : (x * 4 + y / 16) % 4 * 16 + (y % 16 * 16 + z / 4) / 16 = y := by omega
  have hthird : (y % 16 * 16 + z / 4) % 16 * 4 + (z % 4 * 64 + w) / 64 = z := by omega
  have hlast : (z % 4 * 64 + w) % 64 = w := by omega
  rw [← hbytes, List.cons_append, List.cons_append, List.cons_append, List.nil_append, encode,
    toNat_ofNat_of_lt (by omega), toNat_ofNat_of_lt (by omega), toNat_ofNat_of_lt (by omega),
    hfirst, hsecond, hthird, hlast]

/-- Groups that are read are the spelling of what is read, wherever the first of them stands. -/
lemma eq_encode_of_decodeFrom {offset : ℕ} {text : List Char} {bytes : List UInt8}
    (h : decodeFrom offset text = .ok bytes) : text = encode bytes := by
  induction offset, text using decodeFrom.induct generalizing bytes with
  | case1 offset =>
    injection h with hbytes
    rw [← hbytes]
    rfl
  | case2 offset a => simp [decodeFrom, bind_eq_ok_iff] at h
  | case3 offset a b => simp [decodeFrom, bind_eq_ok_iff] at h
  | case4 offset a b c => by_cases hc : c = '=' <;> simp [decodeFrom, bind_eq_ok_iff, hc] at h
  | case5 offset a b c d rest hmarks =>
    rw [decodeFrom, if_pos hmarks] at h
    obtain ⟨rfl, rfl, rfl⟩ := hmarks
    exact eq_encode_of_decodeOne h
  | case6 offset a b c d rest hmarks hmark =>
    rw [decodeFrom, if_neg hmarks, if_pos hmark] at h
    obtain ⟨rfl, rfl⟩ := hmark
    exact eq_encode_of_decodeTwo h
  | case7 offset a b c d rest hmarks hmark ih =>
    rw [decodeFrom, if_neg hmarks, if_neg hmark] at h
    simp only [bind_eq_ok_iff] at h
    obtain ⟨group, hgroup, more, hmore, h⟩ := h
    injection h with hbytes
    rw [← hbytes, ih hmore, cons_eq_encode_of_decodeThree hgroup]

/-- A text is read as the byte string whose spelling it is. -/
theorem decode_eq_ok_iff {text : List Char} {bytes : List UInt8} :
    decode text = .ok bytes ↔ text = encode bytes := by
  constructor
  · intro h
    unfold decode at h
    split at h
    · cases h
    · exact eq_encode_of_decodeFrom h
  · rintro rfl
    exact decode_encode bytes

/-- No two byte strings share a spelling. -/
theorem encode_injective : Function.Injective encode := by
  intro a b h
  have hdecode : decode (encode a) = decode (encode b) := by rw [h]
  rw [decode_encode, decode_encode] at hdecode
  exact Except.ok.inj hdecode

/-! ## Padded texts -/

/-- A padded text: groups of four symbols, of which the last one may be filled up with one or two
marks. The bits of the symbol before the marks that spell no byte are zero. -/
inductive IsText : List Char → Prop
  | nil : IsText []
  | one {x y : ℕ} (hx : x < 64) (hy : y < 64) (hspare : y % 16 = 0) :
      IsText [symbol x, symbol y, '=', '=']
  | two {x y z : ℕ} (hx : x < 64) (hy : y < 64) (hz : z < 64) (hspare : z % 4 = 0) :
      IsText [symbol x, symbol y, symbol z, '=']
  | group {x y z w : ℕ} {rest : List Char} (hx : x < 64) (hy : y < 64) (hz : z < 64) (hw : w < 64)
      (hrest : IsText rest) : IsText (symbol x :: symbol y :: symbol z :: symbol w :: rest)

/-- The spelling of bytes is a padded text. -/
lemma isText_encode (bytes : List UInt8) : IsText (encode bytes) := by
  induction bytes using encode.induct with
  | case1 => exact .nil
  | case2 a =>
    obtain ⟨h1, h2, -, -⟩ := cut_lt a 0 0
    rw [UInt8.toNat_zero, Nat.zero_div, Nat.add_zero] at h2
    exact .one h1 h2 (Nat.mul_mod_left _ 16)
  | case3 a b =>
    obtain ⟨h1, h2, h3, -⟩ := cut_lt a b 0
    rw [UInt8.toNat_zero, Nat.zero_div, Nat.add_zero] at h3
    exact .two h1 h2 h3 (Nat.mul_mod_left _ 4)
  | case4 a b c rest ih =>
    obtain ⟨h1, h2, h3, h4⟩ := cut_lt a b c
    exact .group h1 h2 h3 h4 ih

/-- A padded text is the spelling of bytes. -/
lemma IsText.exists_eq_encode {text : List Char} (h : IsText text) :
    ∃ bytes, text = encode bytes := by
  induction h with
  | nil => exact ⟨[], rfl⟩
  | @one x y hx hy hspare =>
    have hdecode : decodeOne 0 (symbol x) (symbol y) = .ok [UInt8.ofNat (x * 4 + y / 16)] := by
      rw [decodeOne, valueAt_symbol _ hx, valueAt_symbol _ hy]
      exact if_pos hspare
    exact ⟨_, eq_encode_of_decodeOne hdecode⟩
  | @two x y z hx hy hz hspare =>
    have hdecode : decodeTwo 0 (symbol x) (symbol y) (symbol z)
        = .ok [UInt8.ofNat (x * 4 + y / 16), UInt8.ofNat (y % 16 * 16 + z / 4)] := by
      rw [decodeTwo, valueAt_symbol _ hx, valueAt_symbol _ hy, valueAt_symbol _ hz]
      exact if_pos hspare
    exact ⟨_, eq_encode_of_decodeTwo hdecode⟩
  | @group x y z w rest hx hy hz hw hrest ih =>
    obtain ⟨more, rfl⟩ := ih
    have hdecode : decodeThree 0 (symbol x) (symbol y) (symbol z) (symbol w)
        = .ok [UInt8.ofNat (x * 4 + y / 16), UInt8.ofNat (y % 16 * 16 + z / 4),
          UInt8.ofNat (z % 4 * 64 + w)] := by
      rw [decodeThree, valueAt_symbol _ hx, valueAt_symbol _ hy, valueAt_symbol _ hz,
        valueAt_symbol _ hw]
      rfl
    exact ⟨_, cons_eq_encode_of_decodeThree hdecode more⟩

/-- A byte string is read from the padded texts, and from no others. -/
theorem exists_decode_iff {text : List Char} :
    (∃ bytes, decode text = .ok bytes) ↔ IsText text := by
  simp only [decode_eq_ok_iff]
  constructor
  · rintro ⟨bytes, rfl⟩
    exact isText_encode bytes
  · exact IsText.exists_eq_encode

/-! ## The numbers of groups -/

/-- A text spells bytes group by group: four symbols of six bits and three bytes write one number.
In a last group that lacks bytes, a mark stands for each of them, and the number of its symbols is
that of its bytes, with zeros for the bits that are left over. -/
inductive Spells : List Char → List UInt8 → Prop
  | nil : Spells [] []
  | one {x y : ℕ} {a : UInt8} (hx : x < 64) (hy : y < 64)
      (hnumber : x * 64 + y = a.toNat * 16) : Spells [symbol x, symbol y, '=', '='] [a]
  | two {x y z : ℕ} {a b : UInt8} (hx : x < 64) (hy : y < 64) (hz : z < 64)
      (hnumber : (x * 64 + y) * 64 + z = (a.toNat * 256 + b.toNat) * 4) :
      Spells [symbol x, symbol y, symbol z, '='] [a, b]
  | group {x y z w : ℕ} {a b c : UInt8} {text : List Char} {bytes : List UInt8} (hx : x < 64)
      (hy : y < 64) (hz : z < 64) (hw : w < 64)
      (hnumber : ((x * 64 + y) * 64 + z) * 64 + w = (a.toNat * 256 + b.toNat) * 256 + c.toNat)
      (hrest : Spells text bytes) :
      Spells (symbol x :: symbol y :: symbol z :: symbol w :: text) (a :: b :: c :: bytes)

/-- Bytes are cut into six-bit values without a change of the number. -/
lemma spells_encode (bytes : List UInt8) : Spells (encode bytes) bytes := by
  induction bytes using encode.induct with
  | case1 => exact .nil
  | case2 a =>
    obtain ⟨h1, h2, -, -⟩ := cut_lt a 0 0
    rw [UInt8.toNat_zero, Nat.zero_div, Nat.add_zero] at h2
    exact .one h1 h2 (by omega)
  | case3 a b =>
    obtain ⟨h1, h2, h3, -⟩ := cut_lt a b 0
    rw [UInt8.toNat_zero, Nat.zero_div, Nat.add_zero] at h3
    exact .two h1 h2 h3 (by omega)
  | case4 a b c rest ih =>
    obtain ⟨h1, h2, h3, h4⟩ := cut_lt a b c
    exact .group h1 h2 h3 h4 (by omega) ih

/-- The number of a group leaves no choice of its six-bit values. -/
lemma Spells.eq_encode {text : List Char} {bytes : List UInt8} (h : Spells text bytes) :
    text = encode bytes := by
  induction h with
  | nil => rfl
  | @one x y a hx hy hnumber =>
    have hfirst : a.toNat / 4 = x := by omega
    have hlast : a.toNat % 4 * 16 = y := by omega
    rw [encode, hfirst, hlast]
  | @two x y z a b hx hy hz hnumber =>
    have hb := b.toNat_lt
    have hfirst : a.toNat / 4 = x := by omega
    have hsecond : a.toNat % 4 * 16 + b.toNat / 16 = y := by omega
    have hlast : b.toNat % 16 * 4 = z := by omega
    rw [encode, hfirst, hsecond, hlast]
  | @group x y z w a b c text bytes hx hy hz hw hnumber hrest ih =>
    have hb := b.toNat_lt
    have hc := c.toNat_lt
    have hfirst : a.toNat / 4 = x := by omega
    have hsecond : a.toNat % 4 * 16 + b.toNat / 16 = y := by omega
    have hthird : b.toNat % 16 * 4 + c.toNat / 64 = z := by omega
    have hlast : c.toNat % 64 = w := by omega
    rw [encode, hfirst, hsecond, hthird, hlast, ih]

/-- What is read from a text is what it spells. -/
theorem decode_eq_ok_iff_spells {text : List Char} {bytes : List UInt8} :
    decode text = .ok bytes ↔ Spells text bytes := by
  rw [decode_eq_ok_iff]
  constructor
  · rintro rfl
    exact spells_encode bytes
  · exact Spells.eq_encode

end Admission.Text.Base64
