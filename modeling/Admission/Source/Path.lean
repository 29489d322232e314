import Admission.Source

/-!
# Paths

A path leads from a place to another, one name after the other. Each slash asks for a directory
before it, also where it closes the path; an empty name and `.` stay there, and `..` goes to the
directory around it. A path that opens with a slash starts at the outermost directory.
-/

namespace Admission

open Admission.Text

/-- What a name in a directory stands for. -/
inductive Entry where
  | file (bytes : List UInt8)
  | directory (entries : List (String × Entry))

/-- An entry with the directories around it, the nearest first. -/
structure Place where
  entry : Entry
  around : List Entry

namespace Place

/-! ## Single steps -/

/-- The greatest number of bytes of a name. -/
def nameLimit : Nat := 255

/-- The place around a place; the outermost directory has none but itself. -/
def outward (p : Place) : Place :=
  match p.around with
  | [] => p
  | outer :: around => ⟨outer, around⟩

/-- The place of a name seen from a place. -/
def step (p : Place) (name : List Char) : Except Absence Place :=
  match p.entry with
  | .file _ => .error .blocked
  | .directory entries =>
    if name = [] ∨ name = ['.'] then .ok p
    else if name = ['.', '.'] then .ok p.outward
    else if nameLimit < byteLength name then .error .nameTooLong
    else match entries.lookup (String.ofList name) with
      | some entry => .ok ⟨entry, p.entry :: p.around⟩
      | none => .error .missing

/-! ## Whole paths -/

/-- The first number of bytes that is too many for a path. -/
def pathLimit : Nat := 4096

/-- The names between the slashes of a path. -/
def namesOf : List Char → List (List Char)
  | [] => [[]]
  | c :: rest =>
    if c = '/' then [] :: namesOf rest
    else match namesOf rest with
      | [] => [[c]]
      | name :: names => (c :: name) :: names

/-- Where a path starts. -/
def start (p : Place) : List Char → Place
  | '/' :: _ => ⟨(p.around.getLast?).getD p.entry, []⟩
  | _ => p

/-- The place that names lead to, one after the other. -/
def follow (p : Place) (names : List (List Char)) : Except Absence Place :=
  names.foldlM step p

/-- The place that a path leads to. -/
def find (p : Place) (path : List Char) : Except Absence Place :=
  if path = [] then .error .missing
  else if pathLimit ≤ byteLength path then .error .nameTooLong
  else (p.start path).follow (namesOf path)

/-- What is found at the end of a path. -/
def source (p : Place) (path : String) : Source :=
  match p.find path.toList with
  | .error why => .absent why
  | .ok ⟨.file bytes, _⟩ => .file bytes
  | .ok ⟨.directory _, _⟩ => .directory

/-! ## Joined paths -/

/-- There is always a name, be it empty. -/
theorem namesOf_ne_nil (path : List Char) : namesOf path ≠ [] := by
  cases path with
  | nil => simp [namesOf]
  | cons c rest =>
    unfold namesOf
    split
    · simp
    · split <;> simp

/-- A slash separates the names before it from those after it. -/
theorem namesOf_append (a b : List Char) : namesOf (a ++ '/' :: b) = namesOf a ++ namesOf b := by
  induction a with
  | nil => simp [namesOf]
  | cons c rest ih =>
    by_cases slash : c = '/'
    · simp [namesOf, slash, ih]
    · obtain ⟨name, names, first⟩ := List.exists_cons_of_ne_nil (namesOf_ne_nil rest)
      simp [namesOf, slash, ih, first]

/-- Names are followed one list after the other. -/
theorem follow_append (p : Place) (a b : List (List Char)) :
    p.follow (a ++ b) = (p.follow a).bind fun q => q.follow b := by
  simp only [follow, List.foldlM_append]
  rfl

/-- Nothing lies behind a file. -/
theorem follow_file (bytes : List UInt8) (around : List Entry) (name : List Char)
    (names : List (List Char)) :
    follow ⟨.file bytes, around⟩ (name :: names) = .error .blocked := rfl

end Place

end Admission
