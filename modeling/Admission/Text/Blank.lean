/-!
# Blank characters and trimming

A character is *blank* when it has the Unicode property White_Space. `trim` removes the blanks
around a text and keeps those inside it.
-/

namespace Admission.Text

/-- The Unicode property White_Space: the ASCII controls from tab to carriage return, the space,
the next-line and no-break characters, and the general-punctuation and ideographic spaces. -/
def isBlank (c : Char) : Bool :=
  let n := c.toNat
  (0x09 ≤ n && n ≤ 0x0D) || n == 0x20 || n == 0x85 || n == 0xA0 || n == 0x1680
    || (0x2000 ≤ n && n ≤ 0x200A) || n == 0x2028 || n == 0x2029 || n == 0x202F
    || n == 0x205F || n == 0x3000

/-- The text without the blanks that open it. -/
def trimStart (text : List Char) : List Char :=
  text.dropWhile isBlank

/-- The text without the blanks that close it. -/
def trimEnd (text : List Char) : List Char :=
  (text.reverse.dropWhile isBlank).reverse

/-- The text without the blanks around it. -/
def trim (text : List Char) : List Char :=
  trimEnd (trimStart text)

/-! ## What counts as blank -/

/-- Every blank that core's ASCII test knows is one here. -/
theorem isBlank_of_isWhitespace {c : Char} (h : c.isWhitespace = true) : isBlank c = true := by
  simp only [Char.isWhitespace, Bool.or_eq_true, decide_eq_true_eq] at h
  rcases h with ((rfl | rfl) | rfl) | rfl <;> rfl

/-- A text that opens with no blank is left alone by `trimStart`. -/
theorem trimStart_cons {c : Char} (h : isBlank c = false) (text : List Char) :
    trimStart (c :: text) = c :: text := by
  simp [trimStart, h]

end Admission.Text
