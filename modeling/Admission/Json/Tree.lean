import Admission.Json.Fault

/-!
# Trees of JSON texts

A tree holds what a text says as far as it is well formed, with strings and numerals as they are
written. Where the grammar breaks, the tree ends: a value that cannot be read is `broken`, and an
array or object whose text breaks off after some of its parts is not `closed`. A reader that walks
the tree in order therefore meets its own complaints and the breaks of the text in the order of the
text.
-/

namespace Admission.Json

/-- A part of a written string. -/
inductive Piece where
  /-- A character, written as itself or by a short escape. -/
  | char (c : Char)
  /-- A 16-bit unit, written by four hexadecimal digits. -/
  | unit (value : Nat)
deriving DecidableEq, Repr

/-- A string as it is written. -/
abbrev Written := List Piece

/-- What a text says, as far as it is well formed. -/
inductive Tree where
  | broken
  | null
  | boolean (value : Bool)
  | number (numeral : Numeral)
  | string (written : Written)
  | array (items : List Tree) (closed : Bool)
  | object (members : List (Written × Tree)) (closed : Bool)

/-! ## Strings -/

/-- Whether a unit is the first half of a character. -/
def isHighSurrogate (unit : Nat) : Bool := 0xD800 ≤ unit && unit < 0xDC00

/-- Whether a unit is the second half of a character. -/
def isLowSurrogate (unit : Nat) : Bool := 0xDC00 ≤ unit && unit < 0xE000

/-- The character of two halves. -/
def joinSurrogates (high low : Nat) : Char :=
  Char.ofNat (0x10000 + (high - 0xD800) * 0x400 + (low - 0xDC00))

/-- The text that a string writes; none if half a character stands alone. -/
def textOf? : Written → Option (List Char)
  | [] => some []
  | .char c :: rest => (textOf? rest).map (c :: ·)
  | .unit high :: .unit low :: rest =>
    if isHighSurrogate high then
      if isLowSurrogate low then (textOf? rest).map (joinSurrogates high low :: ·) else none
    else if isLowSurrogate high then none
    else (textOf? (.unit low :: rest)).map (Char.ofNat high :: ·)
  | .unit unit :: rest =>
    if isHighSurrogate unit || isLowSurrogate unit then none
    else (textOf? rest).map (Char.ofNat unit :: ·)

/-! ## Asking a tree for a value -/

namespace Tree

/-- What stands in a tree; scalars are read in full, arrays and objects not at all. -/
def found : Tree → Except Fault Found
  | broken => .error .malformed
  | null => .ok .null
  | boolean value => .ok (.boolean value)
  | number numeral => match numeral.value? with
    | some value => .ok (.number value)
    | none => .error .malformed
  | string written => match textOf? written with
    | some text => .ok (.text (String.ofList text))
    | none => .error .malformed
  | array _ _ => .ok .array
  | object _ _ => .ok .object

/-- The fault of a tree that holds something else than expected. -/
def unexpected {α : Type} (t : Tree) (expected : String) : Except Fault α :=
  match t.found with
  | .ok what => .error (.mismatch (.kind what expected))
  | .error fault => .error fault

/-- The text of a string. -/
def asText (expected : String) : Tree → Except Fault String
  | string written => match textOf? written with
    | some text => .ok (String.ofList text)
    | none => .error .malformed
  | t => t.unexpected expected

/-- A whole number of 64 bits. -/
def asWord : Tree → Except Fault UInt64
  | number numeral => match numeral.value? with
    | none => .error .malformed
    | some (.whole value) =>
      if 0 ≤ value then .ok (UInt64.ofNat value.toNat)
      else .error (.mismatch (.range (.number (.whole value)) "u64"))
    | some value => .error (.mismatch (.kind (.number value) "u64"))
  | t => t.unexpected "u64"

/-- A binary number; whole numbers are rounded to the nearest. -/
def asBinary : Tree → Except Fault Number.Binary64
  | number numeral => match numeral.binary? with
    | some value => .ok value
    | none => .error .malformed
  | t => t.unexpected "f64"

/-- A value that may be absent; null stands for none. -/
def asOptional {α : Type} (read : Tree → Except Fault α) : Tree → Except Fault (Option α)
  | null => .ok none
  | t => (read t).map some

end Tree

/-! ## Whole texts -/

/-- A whole text: a tree, and whether nothing but blanks follows it. -/
structure Document where
  root : Tree
  ended : Bool

/-- Reads the tree, then insists on the end of the text. -/
def Document.read {α : Type} (d : Document) (read : Tree → Except Fault α) : Except Fault α := do
  let value ← read d.root
  if d.ended then .ok value else .error .malformed

end Admission.Json
