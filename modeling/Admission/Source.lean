import Admission.Text.Utf8

/-!
# Places of files

What a program finds where it looks for a file, and the text it takes from there.
-/

namespace Admission

/-- Why there is nothing at a place. -/
inductive Absence where
  | missing
  /-- The way to the place leads through something that is no directory. -/
  | blocked
  | nameTooLong
deriving DecidableEq, Repr

/-- The words for an absence. -/
def Absence.message : Absence → String
  | missing => "No such file or directory (os error 2)"
  | blocked => "Not a directory (os error 20)"
  | nameTooLong => "File name too long (os error 36)"

/-- What is found at the place of a file. -/
inductive Source where
  | absent (why : Absence)
  | directory
  | file (bytes : List UInt8)
deriving DecidableEq, Repr

namespace Source

/-- Why no text is found. -/
inductive Fault where
  | absent (why : Absence)
  | directory
  /-- The bytes are no UTF-8. -/
  | encoding
deriving DecidableEq, Repr

/-- The words for a fault. -/
def Fault.message : Fault → String
  | absent why => why.message
  | directory => "Is a directory (os error 21)"
  | encoding => "stream did not contain valid UTF-8"

/-- The text of a file. -/
def text : Source → Except Fault String
  | absent why => .error (.absent why)
  | directory => .error .directory
  | file bytes => match Text.ofUtf8? bytes with
    | some text => .ok text
    | none => .error .encoding

end Source

end Admission
