import Admission.Json.Number

/-!
# Writing JSON texts

Texts are written without blanks. In strings the quote, the backslash and the controls below
U+0020 are escaped, the usual ones by letter; everything else stands as it is.
-/

namespace Admission.Json

/-- A character as it stands in a string. -/
def escapeChar (c : Char) : List Char :=
  if c = '"' then ['\\', '"']
  else if c = '\\' then ['\\', '\\']
  else if c = '\x08' then ['\\', 'b']
  else if c = '\x0c' then ['\\', 'f']
  else if c = '\n' then ['\\', 'n']
  else if c = '\r' then ['\\', 'r']
  else if c = '\t' then ['\\', 't']
  else if c.toNat < 0x20 then
    ['\\', 'u', '0', '0', Nat.digitChar (c.toNat / 16), Nat.digitChar (c.toNat % 16)]
  else [c]

/-- A string. -/
def stringText (text : List Char) : List Char :=
  '"' :: text.flatMap escapeChar ++ ['"']

/-- A member with a value that is written already. -/
def memberText (name : String) (value : List Char) : List Char :=
  stringText name.toList ++ ':' :: value

/-- An object of members that are written already. -/
def objectText (members : List (List Char)) : List Char :=
  '{' :: List.intercalate [','] members ++ ['}']

end Admission.Json
