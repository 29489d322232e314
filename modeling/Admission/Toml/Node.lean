import Admission.Number.Binary64
import Admission.Toml.Moment

/-!
# Trees of configuration texts

A text builds one table of named values. Headers and dotted keys reach into tables that were named
before, within limits that depend on how a table came to be: a table is given once, by a header or
by a braced value, and only tables that were named in passing can still be filled. `Table.put`,
`Table.beginTable` and `Table.beginItem` are the steps of a text; each fails where the limits forbid
it.
-/

namespace Admission.Toml

/-! ## Nodes -/

/-- How a table came to be. -/
inductive Origin where
  /-- By a header of its own. -/
  | header
  /-- In passing, by the header of a table inside. -/
  | passed
  /-- In passing, by a dotted key. -/
  | dotted
  /-- As a value in braces. -/
  | braced
deriving DecidableEq, Repr

/-- A value of a configuration text. -/
inductive Node where
  | text (value : String)
  | integer (value : Int)
  | float (value : Number.Binary64)
  | boolean (value : Bool)
  | moment (value : Moment)
  | list (items : List Node)
  | table (origin : Origin) (entries : List (String × Node))
  /-- Tables under one header with doubled brackets; there is at least one. -/
  | tables (earlier : List (List (String × Node))) (last : List (String × Node))

/-- A dotted key: the names of the tables on the way, and a name in the last of them. -/
structure Key where
  path : List String
  name : String
deriving DecidableEq, Repr

/-- On whose behalf a path is followed. -/
inductive Way where
  | header
  | dottedKey
deriving DecidableEq, Repr

/-- How a table that is made on the way comes to be. -/
def Way.origin : Way → Origin
  | header => .passed
  | dottedKey => .dotted

/-- Whether a table may be passed through. -/
def Way.passes : Way → Origin → Bool
  | header, .braced => false
  | header, _ => true
  | dottedKey, .passed => true
  | dottedKey, .dotted => true
  | dottedKey, _ => false

/-- Values by name, in the order of their first mention; no name comes twice. -/
abbrev Table := List (String × Node)

namespace Table

/-- The value of a name. -/
def get? (t : Table) (name : String) : Option Node :=
  List.lookup name t

/-- The table with one entry changed or added. -/
def alter (name : String) (change : Option Node → Option Node) : Table → Option Table
  | [] => (change none).map fun node => [(name, node)]
  | (key, node) :: rest =>
    if key = name then (change (some node)).map fun node => (key, node) :: rest
    else (alter name change rest).map ((key, node) :: ·)

/-- Takes the place of nothing only. -/
def fresh (value : Node) : Option Node → Option Node
  | none => some value
  | some _ => none

/-- The table with a new entry. -/
def add (name : String) (value : Node) : Table → Option Table :=
  alter name (fresh value)

/-! ## Reaching inside -/

/-- Goes on inside a value on the way to another. A header may pass through every table that was not
given in braces, a dotted key only through those named in passing; of several tables under one
header the last is meant. A table that is not there yet is made. -/
def within (way : Way) (change : Table → Option Table) : Option Node → Option Node
  | none => (change []).map (.table way.origin)
  | some (.table origin entries) =>
    if way.passes origin then (change entries).map (.table origin) else none
  | some (.tables earlier last) => (change last).map (.tables earlier)
  | some _ => none

/-- Changes the table at the end of a path. -/
def reach (way : Way) (change : Table → Option Table) : List String → Table → Option Table
  | [], t => change t
  | name :: path, t => t.alter name (within way (reach way change path))

/-! ## The steps of a text -/

/-- Goes on inside the table that a dotted key ends in: it must be made by dotted keys. -/
def withinDotted (change : Table → Option Table) : Option Node → Option Node
  | none => (change []).map (.table .dotted)
  | some (.table .dotted entries) => (change entries).map (.table .dotted)
  | some _ => none

/-- Puts a value under a key, dotted or not. -/
def putAt (name : String) (value : Node) : List String → Table → Option Table
  | [], t => t.add name value
  | [group], t => t.alter group (withinDotted (add name value))
  | group :: path, t => t.alter group (within .dottedKey (putAt name value path))

/-- Puts a value under a key. -/
def put (key : Key) (value : Node) (t : Table) : Option Table :=
  t.putAt key.name value key.path

/-- Gives a table by its header: it is new, or was only passed by headers. -/
def given : Option Node → Option Node
  | none => some (.table .header [])
  | some (.table .passed entries) => some (.table .header entries)
  | some _ => none

/-- Begins the table of a header. -/
def beginTable (key : Key) (t : Table) : Option Table :=
  t.reach .header (alter key.name given) key.path

/-- Adds a table to those under one header. -/
def extended : Option Node → Option Node
  | none => some (.tables [] [])
  | some (.tables earlier last) => some (.tables (earlier ++ [last]) [])
  | some _ => none

/-- Begins a further table of a header with doubled brackets. -/
def beginItem (key : Key) (t : Table) : Option Table :=
  t.reach .header (alter key.name extended) key.path

/-- Puts a value under a key of the table that the last header began. -/
def putBelow (header : List String) (key : Key) (value : Node) (t : Table) : Option Table :=
  t.reach .header (put key value) header

/-! ## What a step changes -/

/-- A changed entry reads as what it was changed to, and other names as before. -/
theorem get?_alter {name : String} {change : Option Node → Option Node} {t u : Table}
    (done : t.alter name change = some u) (other : String) :
    u.get? other = if other = name then change (t.get? name) else t.get? other := by
  induction t generalizing u with
  | nil =>
    obtain ⟨node, made, rfl⟩ := Option.map_eq_some_iff.mp done
    by_cases same : other = name <;> simp [get?, List.lookup_cons, same, made]
    simp [beq_eq_false_iff_ne.mpr same]
  | cons entry rest ih =>
    obtain ⟨key, node⟩ := entry
    unfold alter at done
    split at done
    -- The entry stands first: it is the one that changes.
    · rename_i here
      subst here
      obtain ⟨changed, made, rfl⟩ := Option.map_eq_some_iff.mp done
      by_cases same : other = key <;> simp [get?, List.lookup_cons, same, made]
      simp [beq_eq_false_iff_ne.mpr same]
    -- It stands further on, if at all, and the first entry keeps its value.
    · rename_i elsewhere
      obtain ⟨after, made, rfl⟩ := Option.map_eq_some_iff.mp done
      have step := ih made
      simp only [get?] at step ⊢
      by_cases first : other = key
      · subst first
        simp [elsewhere]
      · have away : (name == key) = false := beq_eq_false_iff_ne.mpr fun e => elsewhere e.symm
        simp only [List.lookup_cons, beq_eq_false_iff_ne.mpr first, away]
        exact step

end Table

end Admission.Toml
