import Admission.Toml.Reader

/-!
# Writing configuration texts

A text is written line by line. A name stands as it is if all of its characters may, and otherwise
between double marks, as texts do; there the mark, the backslash and what does not print are
escaped. `Draft.take` says what a line does.
-/

namespace Admission.Toml

open Admission.Text

/-! ## Names and values -/

/-- A character as it stands between double marks. What does not print is ASCII. -/
def escaped (c : Char) : List Char :=
  if c = '"' ∨ c = '\\' then ['\\', c]
  else if isPrintable c then [c]
  else ['\\', 'u', '0', '0'] ++ Hex.pair (UInt8.ofNat c.toNat)

/-- A text between double marks. -/
def quoted (text : List Char) : List Char :=
  '"' :: text.flatMap escaped ++ ['"']

/-- A name, between marks if it needs them. -/
def nameText (name : String) : List Char :=
  if name.toList ≠ [] ∧ name.toList.all isBare then name.toList else quoted name.toList

/-- A dotted key. -/
def Key.toText (key : Key) : List Char :=
  key.path.flatMap (fun group => nameText group ++ ['.']) ++ nameText key.name

/-- A value that stands in a line. -/
inductive Scalar where
  | text (value : String)
  | number (value : UInt32)
deriving DecidableEq, Repr

namespace Scalar

/-- The value as it is written. -/
def toText : Scalar → List Char
  | text value => quoted value.toList
  | number value => Digits.write value.toNat

/-- The value as it is read. -/
def toNode : Scalar → Node
  | text value => .text value
  | number value => .integer value.toNat

end Scalar

/-! ## Lines -/

/-- What stands in a line. -/
inductive Line where
  | blank
  /-- The header of a table. -/
  | table (key : Key)
  /-- The header of a further table among several. -/
  | item (key : Key)
  | entry (key : Key) (value : Scalar)
deriving DecidableEq, Repr

namespace Line

/-- The line of an entry whose name is the whole key. -/
def plain (entry : String × Scalar) : Line :=
  .entry ⟨[], entry.1⟩ entry.2

/-- The text of a line, without its end. -/
def toText : Line → List Char
  | blank => []
  | table key => '[' :: key.toText ++ [']']
  | item key => '[' :: '[' :: key.toText ++ [']', ']']
  | entry key value => key.toText ++ ' ' :: '=' :: ' ' :: value.toText

end Line

/-- The text of lines. -/
def linesText (lines : List Line) : List Char :=
  lines.flatMap fun line => line.toText ++ ['\n']

/-- What a line does to a text under way. -/
def Draft.take (d : Draft) : Line → Option Draft
  | .blank => some d
  | .table key => (d.root.beginTable key).map fun root => ⟨key.path ++ [key.name], root⟩
  | .item key => (d.root.beginItem key).map fun root => ⟨key.path ++ [key.name], root⟩
  | .entry key value => (d.root.putBelow d.header key value.toNode).map fun root =>
    { d with root := root }

end Admission.Toml
