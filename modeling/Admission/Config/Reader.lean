import Admission.Config
import Admission.Source
import Admission.Toml.Reader

/-!
# Configurations from text

The text of a configuration builds a table, and its values are taken from there. A record is a table
with the record's names, or a list of its values in their fixed order; other names and further
values are passed over. What is absent has its standard value, except for the three values of a
client. Reading fails as a whole if any value that is taken has the wrong kind.
-/

namespace Admission.Config

open Admission.Toml

-- Powers are those of the core library, also where another instance is in sight.
attribute [local instance (high)] instPowNat

/-! ## Kinds of values -/

/-- The text of a value. -/
def textOf : Node → Option String
  | .text value => some value
  | _ => none

/-- The number of 32 bits of a value. -/
def wordOf : Node → Option UInt32
  | .integer value =>
    if 0 ≤ value ∧ value < 2 ^ (32 : Nat) then some (UInt32.ofNat value.toNat) else none
  | _ => none

/-- Whether a value holds nothing. -/
def isHollow : Node → Bool
  | .list items => items.isEmpty
  | .table _ entries => entries.isEmpty
  | _ => false

/-- The signing scheme of a value: its name, or a table with the name as its one entry and nothing
below it. -/
def schemeOf : Node → Option SigningScheme
  | .text name => SigningScheme.ofName? name
  | .table _ [(name, value)] => if isHollow value then SigningScheme.ofName? name else none
  | _ => none

/-- The values of a list or of tables under one header. -/
def itemsOf : Node → Option (List Node)
  | .list items => some items
  | .tables earlier last => some ((earlier ++ [last]).map (.table .header))
  | _ => none

/-! ## Records -/

/-- The name under which a moment appears where a table is asked for. -/
def momentName : String := "$__toml_private_datetime"

/-- The entries of a table. A moment appears as a table of its text. -/
def entriesOf : Node → Option Table
  | .table _ entries => some entries
  | .moment value => some [(momentName, .text (String.ofList value.toText))]
  | _ => none

/-- Finds the value of the name at a place of a record, if it is there. -/
abbrev Lookup := Nat → String → Option Node

/-- How the values of a record are found. -/
def lookupOf (node : Node) : Option Lookup :=
  match entriesOf node with
  | some entries => some fun _ name => entries.get? name
  | none => (itemsOf node).map fun items place _ => items[place]?

/-- Takes a value, which has a standard value if it is absent. -/
def takeOr {α : Type} (standard : α) (take : Node → Option α) : Option Node → Option α
  | none => some standard
  | some node => take node

/-- The settings of the node. -/
def nodeSettingsOf (node : Node) : Option NodeSettings := do
  let find ← lookupOf node
  let id ← takeOr NodeSettings.standard.id wordOf (find 0 "id")
  let logLevel ← takeOr NodeSettings.standard.logLevel textOf (find 1 "log_level")
  let scheme ← takeOr NodeSettings.standard.scheme schemeOf (find 2 "signing_scheme")
  some ⟨id, logLevel, scheme⟩

/-- A client; none of its values may be absent. -/
def clientEntryOf (node : Node) : Option ClientEntry := do
  let find ← lookupOf node
  let id ← (find 0 "id").bind wordOf
  let address ← (find 1 "address").bind textOf
  let publicKey ← (find 2 "public_key").bind textOf
  some ⟨id, address, publicKey⟩

/-- The clients of a list. -/
def clientEntriesOf (node : Node) : Option (List ClientEntry) := do
  let items ← itemsOf node
  items.mapM clientEntryOf

/-- Adds entries to functions. -/
def addFunctions (f : FunctionNames) : Table → Option FunctionNames
  | [] => some f
  | (signature, value) :: rest => match textOf value with
    | some name => addFunctions (f.insert signature name) rest
    | none => none

/-- The types of functions: a table of names only. -/
def functionNamesOf (node : Node) : Option FunctionNames := do
  let entries ← entriesOf node
  addFunctions .empty entries

/-- The functions of a contract. -/
def contractOf (node : Node) : Option FunctionNames := do
  let find ← lookupOf node
  takeOr .empty functionNamesOf (find 0 "functions")

/-- The configuration of a table. -/
def ofTable (t : Table) : Option Config := do
  let node ← takeOr .standard nodeSettingsOf (t.get? "node")
  let clients ← takeOr [] clientEntriesOf (t.get? "clients")
  let functions ← takeOr .empty contractOf (t.get? "contract")
  some ⟨node, clients, functions⟩

/-! ## Texts -/

/-- The configuration of a text; what its values say is not checked. -/
def ofText (text : String) : Except ConfigFault Config :=
  match (Table.ofText text).bind ofTable with
  | some config => .ok config
  | none => .error .unreadable

/-- The configuration at a place, as far as the text goes: the standard one if nothing is there. -/
def ofSource (source : Source) : Except Error Config :=
  match source.text with
  -- A node may run without a file, but not with one that cannot be read.
  | .error (.absent _) => .ok .standard
  | .error fault => .error (.io fault.message)
  | .ok text => match ofText text with
    | .ok config => .ok config
    | .error fault => .error (.config fault)

/-- The valid configuration at a place. -/
def load (source : Source) : Except Error Config :=
  match ofSource source with
  | .error error => .error error
  | .ok config => match config.validate with
    | .ok () => .ok config
    | .error fault => .error (.config fault)

end Admission.Config
