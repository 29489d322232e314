import Admission.Json.Reader

/-!
# Names in JSON texts

One of a few known names is written as a string, or as an object with the name as its one member
and null as its value. The name is judged before what follows it.
-/

namespace Admission.Json

/-- Reads a known name after its opening quote. -/
def readKnown (known : List String) (text : List Char) : Except Fault (String × List Char) :=
  match readString text with
  | none => .error .malformed
  | some (written, rest) => match textOf? written with
    | none => .error .malformed
    | some name =>
      if String.ofList name ∈ known then .ok (String.ofList name, rest)
      else .error (.mismatch (.unknownName (String.ofList name) known))

/-- Insists on null. -/
def expectNull : Tree → Except Fault Unit
  | .null => .ok ()
  | t => t.unexpected "unit"

/-- The text after a given character, blanks before it aside. -/
def afterMark (mark : Char) (text : List Char) : Except Fault (List Char) :=
  match skipBlank text with
  | c :: rest => if c = mark then .ok rest else .error .malformed
  | [] => .error .malformed

/-- Insists that nothing but blanks is left. -/
def expectEnd (text : List Char) : Except Fault Unit :=
  if skipBlank text = [] then .ok () else .error .malformed

/-- The known name that a text holds. -/
def readName (known : List String) (text : List Char) : Except Fault String :=
  match skipBlank text with
  | '"' :: rest => do
    let (name, rest) ← readKnown known rest
    expectEnd rest
    .ok name
  | '{' :: rest => do
    -- The one member has a name like any other: nothing but a string can stand there.
    let (name, rest) ← readKnown known (← afterMark '"' rest)
    let (value, rest) := readTree (← afterMark ':' rest)
    expectNull value
    expectEnd (← afterMark '}' (rest.getD []))
    .ok name
  | _ => .error .malformed

end Admission.Json
