import Admission.Json.Number
import Admission.Text.Quoted

/-!
# Faults of JSON texts

A text is *malformed* when it breaks the grammar where a reader needs it. Any other fault is a
*mismatch*: the text is well formed so far, but does not hold what the reader asked for. Faults are
reported in the order of the text, so the first one met is the only one told.
-/

namespace Admission.Json

open Admission.Number

/-- What stands in a text where something else was asked for. -/
inductive Found where
  | null
  | boolean (value : Bool)
  | number (value : Number)
  | text (value : String)
  | array
  | object
deriving DecidableEq, Repr

/-- The words for what was found. -/
def Found.description : Found → String
  | .null => "null"
  | .boolean value => s!"boolean `{value}`"
  | .number (.whole value) => s!"integer `{value}`"
  | .number (.binary value) => s!"floating point `{numberLayout.text value}`"
  | .text value => s!"string {Text.Quoted.text value}"
  | .array => "sequence"
  | .object => "map"

/-- Why a well-formed text does not hold what was asked for. -/
inductive Mismatch where
  /-- Something of another kind stands there. -/
  | kind (found : Found) (expected : String)
  /-- Something of the right kind stands there, but its value is out of range. -/
  | range (found : Found) (expected : String)
  /-- A record lacks a member. -/
  | missing (member : String)
  /-- A record has a member twice. -/
  | repeated (member : String)
  /-- A name is none of the known ones. -/
  | unknownName (name : String) (known : List String)
  /-- A list of fields ends before a member that a record must have. -/
  | short (length : Nat) (expected : String)
  /-- The text that stands there is refused by the type it spells, in its own words. -/
  | refused (reason : String)
deriving DecidableEq, Repr

/-- The choice that a list of names leaves. -/
def choice : List String → String
  | [] => "there are no variants"
  | [a] => s!"expected `{a}`"
  | [a, b] => s!"expected `{a}` or `{b}`"
  | names => "expected one of " ++ ", ".intercalate (names.map fun name => s!"`{name}`")

/-- The words for a mismatch. -/
def Mismatch.message : Mismatch → String
  | .kind found expected => s!"invalid type: {found.description}, expected {expected}"
  | .range found expected => s!"invalid value: {found.description}, expected {expected}"
  | .missing member => s!"missing field `{member}`"
  | .repeated member => s!"duplicate field `{member}`"
  | .unknownName name known => s!"unknown variant `{name}`, {choice known}"
  | .short length expected => s!"invalid length {length}, expected {expected}"
  | .refused reason => reason

/-- Why a text could not be read. -/
inductive Fault where
  | malformed
  | mismatch (cause : Mismatch)
deriving DecidableEq, Repr

end Admission.Json
