/-!
# Bytes of a text

A text is measured and hashed by its UTF-8 bytes: one for an ASCII character, up to four for the
others. Faults name a byte by its offset, so the same measure serves error positions.
-/

namespace Admission.Text

/-- The UTF-8 bytes of a text. -/
def utf8 (text : List Char) : List UInt8 :=
  text.flatMap String.utf8EncodeChar

/-- The number of UTF-8 bytes of a text. -/
def byteLength (text : List Char) : Nat :=
  (utf8 text).length

/-- The byte that a character's UTF-8 form starts with. -/
def firstByte (c : Char) : UInt8 :=
  (String.utf8EncodeChar c).headD 0

/-- The text that bytes spell in UTF-8, if they are well formed. -/
def ofUtf8? (bytes : List UInt8) : Option String :=
  String.fromUTF8? bytes.toByteArray

/-! ## One character at a time -/

@[simp] theorem utf8_nil : utf8 [] = [] := rfl

@[simp] theorem utf8_cons (c : Char) (text : List Char) :
    utf8 (c :: text) = String.utf8EncodeChar c ++ utf8 text := rfl

/-- The bytes of joined texts are the joined bytes. -/
@[simp] theorem utf8_append (a b : List Char) : utf8 (a ++ b) = utf8 a ++ utf8 b := by
  simp [utf8]

/-- Lengths in bytes add up. -/
@[simp] theorem byteLength_append (a b : List Char) :
    byteLength (a ++ b) = byteLength a + byteLength b := by
  simp [byteLength]

end Admission.Text
