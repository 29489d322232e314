import Admission.Registry
import Admission.Transaction.Payload

/-!
# The ledger's context

What a ledger knows when a transaction arrives: the registered clients, the types of contract
functions, and the signatures it has already accepted. An engine that judges transactions sees it
through a `View` of three questions; recording a signature is the one step that changes it, and it
tells whether the signature was new.
-/

namespace Admission

/-! ## Function tables -/

/-- Types by function signature; the first entry of a signature counts. -/
abbrev FunctionTable := List (String × TransactionType)

namespace FunctionTable

/-- The functions of the token contract. -/
def standard : FunctionTable :=
  TransactionType.all.filterMap fun t => t.contractSignature?.map fun signature => (signature, t)

/-- The type of a function signature. -/
def type? (table : FunctionTable) (signature : String) : Option TransactionType :=
  table.lookup signature

/-- The table with a function's type set. -/
def set (table : FunctionTable) (signature : String) (type : TransactionType) : FunctionTable :=
  (signature, type) :: table

/-- Setting a function's type changes the answer for that function alone. -/
theorem type?_set (table : FunctionTable) (signature other : String) (type : TransactionType) :
    (table.set signature type).type? other
      = if other = signature then some type else table.type? other := by
  by_cases h : other = signature
  · simp [set, type?, h]
  · simp [set, type?, List.lookup_cons, h, beq_eq_false_iff_ne.mpr h]

/-- Each contract operation of the standard table has its own signature. -/
theorem type?_standard (t : TransactionType) (signature : String)
    (named : t.contractSignature? = some signature) : standard.type? signature = some t := by
  cases t <;> cases named <;> decide

end FunctionTable

/-! ## Accepted signatures -/

/-- The signatures accepted so far, by their Base64 texts, the latest first. -/
structure ReplaySet where
  texts : List String
  nodup : texts.Nodup

namespace ReplaySet

/-- The set before anything is accepted. -/
def empty : ReplaySet := ⟨[], by simp⟩

/-- Whether a signature was accepted. -/
def contains (s : ReplaySet) (text : String) : Bool :=
  decide (text ∈ s.texts)

/-- The number of accepted signatures. -/
def size (s : ReplaySet) : Nat :=
  s.texts.length

/-- The set with a signature. -/
def insert (s : ReplaySet) (text : String) : ReplaySet :=
  if h : text ∈ s.texts then s else ⟨text :: s.texts, List.nodup_cons.mpr ⟨h, s.nodup⟩⟩

/-- Exactly the inserted signature is added. -/
theorem contains_insert (s : ReplaySet) (text other : String) :
    (s.insert text).contains other = (other == text || s.contains other) := by
  by_cases h : text ∈ s.texts
  · by_cases e : other = text
    · subst e; simp [insert, contains, h]
    · simp [insert, contains, h, e]
  · by_cases e : other = text <;> simp [insert, contains, h, e]

end ReplaySet

/-! ## Ledgers -/

/-- The questions that the admission of a transaction asks a ledger. -/
structure View where
  /-- The key of the client at an address. -/
  key? : Address → Option VerificationKey
  /-- Whether a signature, given by its Base64 text, was accepted. -/
  isReplayed : String → Bool
  /-- The type of a contract function. -/
  type? : String → Option TransactionType

/-- The context of a ledger. -/
structure Ledger where
  registry : Registry
  functions : FunctionTable
  seen : ReplaySet

namespace Ledger

/-- The ledger without clients, with the functions of the token contract. -/
def empty : Ledger := ⟨.empty, .standard, .empty⟩

/-- The ledger as an engine sees it. -/
def view (l : Ledger) : View where
  key? address := (l.registry.find? address).map Client.key
  isReplayed := l.seen.contains
  type? := l.functions.type?

/-- The ledger with one more client, if its address is free. -/
def registerClient (l : Ledger) (c : Client) : Except ConfigFault Ledger :=
  (l.registry.register c).map fun registry => { l with registry := registry }

/-- The ledger with a function's type set. -/
def registerFunction (l : Ledger) (signature : String) (type : TransactionType) : Ledger :=
  { l with functions := l.functions.set signature type }

/-- Records a signature, and tells whether it was new. -/
def record (l : Ledger) (text : String) : Bool × Ledger :=
  (!l.seen.contains text, { l with seen := l.seen.insert text })

end Ledger

end Admission
