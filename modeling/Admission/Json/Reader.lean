import Admission.Json.Tree
import Admission.Text.Hex

/-!
# Reading JSON texts

The grammar of JSON over lists of characters. Each reader gives what it read and the text that
follows, and no following text where the grammar breaks. Nesting is followed by a count that
starts above twice the length of the text: each step down takes a character every second time.
-/

namespace Admission.Json

open Admission.Text

/-! ## Blanks, strings and numerals -/

/-- Whether a character separates tokens. -/
def isSeparator (c : Char) : Bool :=
  c == ' ' || c == '\n' || c == '\t' || c == '\r'

/-- The text after the separators that open it. -/
def skipBlank (text : List Char) : List Char :=
  text.dropWhile isSeparator

/-- The unit that four hexadecimal digits write. -/
def unitOf? (a b c d : Char) : Option Nat :=
  match Hex.digit? a, Hex.digit? b, Hex.digit? c, Hex.digit? d with
  | some a, some b, some c, some d => some (((a * 16 + b) * 16 + c) * 16 + d)
  | _, _, _, _ => none

/-- The character of a short escape. -/
def escape? : Char → Option Char
  | '"' => some '"'
  | '\\' => some '\\'
  | '/' => some '/'
  | 'b' => some '\x08'
  | 'f' => some '\x0c'
  | 'n' => some '\n'
  | 'r' => some '\r'
  | 't' => some '\t'
  | _ => none

/-- Reads a string after its opening quote, up to and with the closing one. -/
def readString : List Char → Option (Written × List Char)
  | [] => none
  | '"' :: rest => some ([], rest)
  | '\\' :: 'u' :: a :: b :: c :: d :: rest =>
    match unitOf? a b c d with
    | none => none
    | some unit => (readString rest).map fun (written, after) => (.unit unit :: written, after)
  | '\\' :: c :: rest =>
    match escape? c with
    | none => none
    | some plain => (readString rest).map fun (written, after) => (.char plain :: written, after)
  | c :: rest =>
    if c.toNat < 0x20 ∨ c = '\\' then none
    else (readString rest).map fun (written, after) => (.char c :: written, after)

/-- The digits that open a text, and what follows them. -/
def splitDigits (text : List Char) : List Char × List Char :=
  (text.takeWhile Char.isDigit, text.dropWhile Char.isDigit)

/-- At least one digit. -/
def readDigits (text : List Char) : Option (List Char × List Char) :=
  if (splitDigits text).1 = [] then none else some (splitDigits text)

/-- The digits of a whole part: a zero stands alone. -/
def readWhole (text : List Char) : Option (List Char × List Char) :=
  match readDigits text with
  -- The grammar ends a whole part after a leading zero, and a digit can follow nothing.
  | some ('0' :: _ :: _, _) => none
  | result => result

/-- The digits after a point, if there is one. -/
def readFraction : List Char → Option (List Char × List Char)
  | '.' :: rest => readDigits rest
  | text => some ([], text)

/-- The sign of a power. -/
def readSign : List Char → Bool × List Char
  | '-' :: rest => (true, rest)
  | '+' :: rest => (false, rest)
  | text => (false, text)

/-- The digits of a power with its sign. -/
def readSigned (text : List Char) : Option (Option (Bool × List Char) × List Char) :=
  (readDigits (readSign text).2).map fun (digits, after) =>
    (some ((readSign text).1, digits), after)

/-- The power of ten, if there is one. -/
def readPower : List Char → Option (Option (Bool × List Char) × List Char)
  | 'e' :: rest => readSigned rest
  | 'E' :: rest => readSigned rest
  | text => some (none, text)

/-- Reads a numeral after its minus sign. -/
def readUnsigned (negative : Bool) (text : List Char) : Option (Numeral × List Char) := do
  let (whole, text) ← readWhole text
  let (fraction, text) ← readFraction text
  let (power, text) ← readPower text
  some (⟨negative, whole, fraction, power⟩, text)

/-- Reads a numeral. -/
def readNumeral : List Char → Option (Numeral × List Char)
  | '-' :: rest => readUnsigned true rest
  | text => readUnsigned false text

/-! ## Values -/

/-- A scalar that was read, or a break. -/
def scalar {α : Type} (tree : α → Tree) : Option (α × List Char) → Tree × Option (List Char)
  | some (value, rest) => (tree value, some rest)
  | none => (.broken, none)

mutual

/-- Reads a value. -/
def readValue : Nat → List Char → Tree × Option (List Char)
  | 0, _ => (.broken, none)
  | fuel + 1, text =>
    match skipBlank text with
    | 'n' :: 'u' :: 'l' :: 'l' :: rest => (.null, some rest)
    | 't' :: 'r' :: 'u' :: 'e' :: rest => (.boolean true, some rest)
    | 'f' :: 'a' :: 'l' :: 's' :: 'e' :: rest => (.boolean false, some rest)
    | '"' :: rest => scalar .string (readString rest)
    | '[' :: rest =>
      match skipBlank rest with
      | ']' :: after => (.array [] true, some after)
      | _ =>
        let (items, after) := readItems fuel rest
        (.array items after.isSome, after)
    | '{' :: rest =>
      match skipBlank rest with
      | '}' :: after => (.object [] true, some after)
      | _ =>
        let (members, after) := readMembers fuel rest
        (.object members after.isSome, after)
    | other => scalar .number (readNumeral other)

/-- Reads the items of an array up to and with the closing bracket. -/
def readItems : Nat → List Char → List Tree × Option (List Char)
  | 0, _ => ([], none)
  | fuel + 1, text =>
    match readValue fuel text with
    | (item, none) => ([item], none)
    | (item, some rest) =>
      match skipBlank rest with
      | ',' :: rest =>
        let (items, after) := readItems fuel rest
        (item :: items, after)
      | ']' :: after => ([item], some after)
      | _ => ([item], none)

/-- Reads the members of an object up to and with the closing brace. -/
def readMembers : Nat → List Char → List (Written × Tree) × Option (List Char)
  | 0, _ => ([], none)
  | fuel + 1, text =>
    match skipBlank text with
    | '"' :: rest =>
      match readString rest with
      | none => ([], none)
      | some (name, rest) =>
        match skipBlank rest with
        | ':' :: rest =>
          match readValue fuel rest with
          -- The member is kept: a reader may complain about it before the break.
          | (value, none) => ([(name, value)], none)
          | (value, some rest) =>
            match skipBlank rest with
            | ',' :: rest =>
              let (members, after) := readMembers fuel rest
              ((name, value) :: members, after)
            | '}' :: after => ([(name, value)], some after)
            | _ => ([(name, value)], none)
        -- The name alone may be a reason to complain, so it is kept without a value.
        | _ => ([(name, .broken)], none)
    | _ => ([], none)

end

/-- The tree that opens a text, and what follows it. -/
def readTree (text : List Char) : Tree × Option (List Char) :=
  readValue (2 * text.length + 2) text

/-- A whole text. -/
def Document.ofText (text : List Char) : Document :=
  match readTree text with
  | (root, some rest) => ⟨root, skipBlank rest = []⟩
  | (root, none) => ⟨root, false⟩

end Admission.Json
