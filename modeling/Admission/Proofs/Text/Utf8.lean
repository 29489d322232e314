import Admission.Source
import Mathlib.Tactic

/-!
# Texts and their bytes

A text is told by its UTF-8 bytes (`utf8_injective`) and read back from them (`ofUtf8?_utf8`), also
where a file holds them (`Source.text_file`), and a text of ASCII characters has as many bytes as
characters (`byteLength_of_ascii`).
-/

namespace Admission.Text

/-- Joined encodings are the bytes that a string of the characters holds. -/
lemma toByteArray_utf8 (text : List Char) : (utf8 text).toByteArray = text.utf8Encode := by
  rw [utf8, List.utf8Encode]

/-- Different texts have different bytes. -/
theorem utf8_injective : Function.Injective utf8 := by
  intro a b h
  have hbytes : a.utf8Encode = b.utf8Encode := by
    rw [← toByteArray_utf8, ← toByteArray_utf8, h]
  rw [← String.toByteArray_ofList, ← String.toByteArray_ofList] at hbytes
  have hstring : String.ofList a = String.ofList b := String.toByteArray_inj.mp hbytes
  exact String.ofList_injective hstring

/-- A text is read back from its bytes. -/
theorem ofUtf8?_utf8 (text : String) : ofUtf8? (utf8 text.toList) = some text := by
  have hbytes : (utf8 text.toList).toByteArray = text.toByteArray := by
    rw [toByteArray_utf8, ← String.toByteArray_ofList, String.ofList_toList]
  rw [ofUtf8?, hbytes, String.fromUTF8?, dif_pos text.isValidUTF8]
  rfl

/-- An ASCII character takes one byte. -/
lemma length_utf8EncodeChar_of_ascii {c : Char} (h : c.toNat < 128) :
    (String.utf8EncodeChar c).length = 1 := by
  rw [String.length_utf8EncodeChar]
  have hval : c.val.toNat ≤ 127 := Nat.lt_succ_iff.mp h
  exact Char.utf8Size_eq_one_iff.mpr (UInt32.le_iff_toNat_le.mpr hval)

/-- A text of ASCII characters takes one byte for each. -/
theorem byteLength_of_ascii {text : List Char} (h : ∀ c ∈ text, c.toNat < 128) :
    byteLength text = text.length := by
  induction text with
  | nil => rfl
  | cons c rest ih =>
    have hc : (String.utf8EncodeChar c).length = 1 :=
      length_utf8EncodeChar_of_ascii (h c (List.mem_cons_self ..))
    have hrest : byteLength rest = rest.length :=
      ih fun d hd => h d (List.mem_cons_of_mem c hd)
    rw [byteLength] at hrest ⊢
    rw [utf8_cons, List.length_append, hc, hrest, List.length_cons]
    omega

end Admission.Text

namespace Admission.Source

/-- A file with the bytes of a text gives the text. -/
lemma text_file (content : String) : (file (Text.utf8 content.toList)).text = .ok content := by
  rw [text, Text.ofUtf8?_utf8]

end Admission.Source
