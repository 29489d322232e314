import Admission.Text.Printable

/-!
# Quoted text

Diagnostics show a text between quotes with everything escaped that a reader could not see or
tell apart: the quote and the backslash, the usual controls by letter, and all characters that do
not stand alone by their code point in braces.
-/

namespace Admission.Text.Quoted

/-- The code point of a character in lower-case hexadecimal, in braces after `u`. -/
def codePoint (c : Char) : List Char :=
  ['\\', 'u', '{'] ++ Nat.toDigits 16 c.toNat ++ ['}']

/-- A character as it stands between two marks of the given kind. -/
def escape (mark c : Char) : List Char :=
  if c = '\x00' then ['\\', '0']
  else if c = '\t' then ['\\', 't']
  else if c = '\r' then ['\\', 'r']
  else if c = '\n' then ['\\', 'n']
  else if c = '\\' ∨ c = mark then ['\\', c]
  else if standsAlone c then [c]
  else codePoint c

/-- A text between double quotes. -/
def text (s : String) : String :=
  String.ofList ('"' :: s.toList.flatMap (escape '"') ++ ['"'])

/-- A character between single quotes. -/
def character (c : Char) : String :=
  String.ofList ('\'' :: escape '\'' c ++ ['\''])

/-- A name of letters, digits and common marks needs no escape: its quoted form is the name
between quotes. -/
theorem text_eq_of_plain {s : String} (plain : ∀ c ∈ s.toList, escape '"' c = [c]) :
    text s = String.ofList ('"' :: s.toList ++ ['"']) := by
  have same : ∀ cs : List Char, (∀ c ∈ cs, escape '"' c = [c]) → cs.flatMap (escape '"') = cs := by
    intro cs h
    induction cs with
    | nil => rfl
    | cons c rest ih =>
      rw [List.flatMap_cons, h c (by simp), ih fun d hd => h d (by simp [hd])]
      rfl
  rw [text, same s.toList plain]

end Admission.Text.Quoted
