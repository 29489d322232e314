import Admission.Text.Hex

/-!
# Quoted texts of configurations

A text stands between double or single marks, one or three on either side. Between three marks it
may span lines, the first line break is dropped, and one or two marks may stand right before the
closing ones. Only between double marks a backslash escapes: a letter, a code point in hexadecimal
digits, or the end of a line with all blanks and line breaks that follow.
-/

namespace Admission.Toml

open Admission.Text

/-! ## Characters -/

/-- Whether a character is a blank within a line. -/
def isSpace (c : Char) : Bool :=
  c == ' ' || c == '\t'

/-- Whether a character may stand in a line: no control besides the tab. -/
def isPrintable (c : Char) : Bool :=
  c == '\t' || (0x20 ≤ c.toNat && c.toNat ≠ 0x7F)

/-- The character of a short escape. -/
def shortEscape? : Char → Option Char
  | 'b' => some '\x08'
  | 't' => some '\t'
  | 'n' => some '\n'
  | 'f' => some '\x0c'
  | 'r' => some '\r'
  | '"' => some '"'
  | '\\' => some '\\'
  | _ => none

/-- The character of a code point, if it has one. -/
def charOf? (code : Nat) : Option Char :=
  if code.isValidChar then some (Char.ofNat code) else none

/-- Whether a line break of two characters starts with this one. -/
def opensBreak (c : Char) (rest : List Char) : Bool :=
  c == '\r' && rest.head? == some '\n'

/-- What follows a line break; nothing if the text does not start with one. -/
def afterBreak? : List Char → Option (List Char)
  | '\n' :: rest => some rest
  | '\r' :: '\n' :: rest => some rest
  | _ => none

/-! ## Marks -/

/-- The marks around a text. -/
structure Marks where
  mark : Char
  /-- Whether there are three on either side. -/
  tripled : Bool
deriving DecidableEq, Repr

namespace Marks

/-- Whether a backslash escapes between the marks. -/
def escapes (m : Marks) : Bool :=
  m.mark == '"'

/-- The end of a text, given what follows one of its marks: the marks that still belong to the text
and what follows the closing ones. -/
def closing? (m : Marks) (rest : List Char) : Option (List Char × List Char) :=
  if m.tripled then
    let count := (rest.takeWhile (· == m.mark)).length
    let extra := min (count - 2) 2
    if count < 2 then none else some (List.replicate extra m.mark, rest.drop (extra + 2))
  else some ([], rest)

/-- Whether a character stands for itself between the marks. -/
def admits (m : Marks) (c : Char) : Bool :=
  isPrintable c || (m.tripled && c == '\n')

end Marks

/-! ## Reading -/

/-- Where a reader stands between the marks. -/
inductive Spot where
  /-- Between characters; after an escaped line end, blanks and line breaks are dropped. -/
  | plain (dropping : Bool)
  /-- After a backslash. -/
  | escape
  /-- Within a code point: digits still to come after this one, and the value of those before. -/
  | code (left value : Nat)
  /-- After a backslash and blanks: the line must end. -/
  | lineEnd
deriving DecidableEq, Repr

/-- A text with one more character before it. -/
def keep (c : Char) (read : Option (List Char × List Char)) : Option (List Char × List Char) :=
  read.map fun (text, rest) => (c :: text, rest)

/-- Reads a text after its opening marks, up to and with the closing ones. -/
def readQuoted (m : Marks) : Spot → List Char → Option (List Char × List Char)
  | _, [] => none
  | .plain dropping, c :: rest =>
    if dropping && (isSpace c || c == '\n' || opensBreak c rest) then
      readQuoted m (.plain true) rest
    else if c = m.mark then
      match m.closing? rest with
      | some closed => some closed
      | none => keep c (readQuoted m (.plain false) rest)
    else if m.escapes && c == '\\' then readQuoted m .escape rest
    else if m.tripled && opensBreak c rest then readQuoted m (.plain false) rest
    else if m.admits c then keep c (readQuoted m (.plain false) rest)
    else none
  | .escape, c :: rest =>
    match shortEscape? c with
    | some plain => keep plain (readQuoted m (.plain false) rest)
    | none =>
      if c = 'u' then readQuoted m (.code 3 0) rest
      else if c = 'U' then readQuoted m (.code 7 0) rest
      else if m.tripled && (isSpace c || opensBreak c rest) then readQuoted m .lineEnd rest
      else if m.tripled && c == '\n' then readQuoted m (.plain true) rest
      else none
  | .code left value, c :: rest =>
    match Hex.digit? c with
    | none => none
    | some digit => match left with
      | left + 1 => readQuoted m (.code left (16 * value + digit)) rest
      | 0 => match charOf? (16 * value + digit) with
        | some plain => keep plain (readQuoted m (.plain false) rest)
        | none => none
  | .lineEnd, c :: rest =>
    if isSpace c || opensBreak c rest then readQuoted m .lineEnd rest
    else if c = '\n' then readQuoted m (.plain true) rest
    else none

/-- Reads a text within one line, from its opening mark. -/
def readLineText : List Char → Option (List Char × List Char)
  | '"' :: rest => readQuoted ⟨'"', false⟩ (.plain false) rest
  | '\'' :: rest => readQuoted ⟨'\'', false⟩ (.plain false) rest
  | _ => none

/-- Reads a text after three opening marks. -/
def readTripled (mark : Char) (rest : List Char) : Option (List Char × List Char) :=
  readQuoted ⟨mark, true⟩ (.plain false) ((afterBreak? rest).getD rest)

/-- Reads a text from its opening marks. -/
def readText : List Char → Option (List Char × List Char)
  | '"' :: '"' :: '"' :: rest => readTripled '"' rest
  | '\'' :: '\'' :: '\'' :: rest => readTripled '\'' rest
  | text => readLineText text

end Admission.Toml
