import Admission.Ledger
import Admission.Text.Blank

/-!
# Configurations

A configuration has settings of the node, the clients with their keys, and types for further
contract functions, by name. It is *valid* when the log level is not blank, the texts of clients
decode, no address comes twice, and all type names are known; a ledger is built from it in the same
order of checks.
-/

namespace Admission

/-! ## Settings -/

/-- The settings of the node itself. -/
structure NodeSettings where
  id : UInt32
  logLevel : String
  scheme : SigningScheme
deriving DecidableEq, Repr

/-- The settings of a node that says nothing else. -/
def NodeSettings.standard : NodeSettings := ⟨0, "info", .legacy⟩

/-- A client as it is configured, by texts. -/
structure ClientEntry where
  id : UInt32
  address : String
  publicKey : String
deriving DecidableEq, Repr

/-- Type names by function signature, in the order of the signatures. -/
structure FunctionNames where
  entries : List (String × String)
  sorted : (entries.map Prod.fst).Pairwise (· < ·)

namespace FunctionNames

/-- No functions. -/
def empty : FunctionNames := ⟨[], by simp⟩

/-- The entries with one more, in order; an entry of the same signature is replaced. -/
def insertEntry (entry : String × String) : List (String × String) → List (String × String)
  | [] => [entry]
  | first :: rest =>
    if entry.1 < first.1 then entry :: first :: rest
    else if entry.1 = first.1 then entry :: rest
    else first :: insertEntry entry rest

/-- An inserted entry brings its own signature and no other. -/
theorem mem_insertEntry {entry : String × String} {entries : List (String × String)} {key : String}
    (h : key ∈ (insertEntry entry entries).map Prod.fst) :
    key = entry.1 ∨ key ∈ entries.map Prod.fst := by
  induction entries with
  | nil => simpa [insertEntry] using h
  | cons first rest ih =>
    unfold insertEntry at h
    split at h
    · simpa using h
    · split at h
      · simp only [List.map_cons, List.mem_cons] at h ⊢
        rcases h with h | h
        · exact .inl h
        · exact .inr (.inr h)
      · simp only [List.map_cons, List.mem_cons] at h ⊢
        rcases h with h | h
        · exact .inr (.inl h)
        · rcases ih h with h | h
          · exact .inl h
          · exact .inr (.inr h)

/-- Insertion keeps the order. -/
theorem sorted_insertEntry (entry : String × String) {entries : List (String × String)}
    (sorted : (entries.map Prod.fst).Pairwise (· < ·)) :
    ((insertEntry entry entries).map Prod.fst).Pairwise (· < ·) := by
  induction entries with
  | nil => simp [insertEntry]
  | cons first rest ih =>
    simp only [List.map_cons, List.pairwise_cons] at sorted
    unfold insertEntry
    split
    · rename_i before
      simp only [List.map_cons, List.pairwise_cons, List.mem_cons]
      refine ⟨?_, sorted⟩
      rintro key (rfl | h)
      · exact before
      · exact String.lt_trans before (sorted.1 key h)
    · split
      · rename_i same
        simp only [List.map_cons, List.pairwise_cons]
        exact ⟨fun key h => same ▸ sorted.1 key h, sorted.2⟩
      -- The entry belongs further on, past a smaller signature.
      · rename_i notBefore other
        simp only [List.map_cons, List.pairwise_cons]
        refine ⟨fun key h => ?_, ih sorted.2⟩
        rcases mem_insertEntry h with rfl | h
        · have after : first.1 ≤ entry.1 := String.not_lt.mp notBefore
          rcases Decidable.em (first.1 < entry.1) with h | h
          · exact h
          · exact absurd (String.le_antisymm (String.not_lt.mp h) after) other
        · exact sorted.1 key h

/-- The functions with one more. -/
def insert (f : FunctionNames) (signature name : String) : FunctionNames :=
  ⟨insertEntry (signature, name) f.entries, sorted_insertEntry _ f.sorted⟩

end FunctionNames

/-- A configuration. -/
structure Config where
  node : NodeSettings
  clients : List ClientEntry
  functions : FunctionNames

/-- The configuration that says nothing. -/
def Config.standard : Config := ⟨.standard, [], .empty⟩

/-! ## Checking -/

namespace Config

/-- The address of a client whose texts both decode, or what is wrong with them. -/
def checkClient (c : ClientEntry) : Except ConfigFault Address :=
  match Address.ofText c.address with
  | .error fault => .error (.clientAddress c.id fault)
  | .ok address => match VerificationKey.ofText c.publicKey with
    | .error fault => .error (.clientKey c.id fault)
    | .ok _ => .ok address

/-- Checks clients in order, given the addresses of those before them. -/
def checkClients (taken : List Address) : List ClientEntry → Except ConfigFault Unit
  | [] => .ok ()
  | c :: rest => match checkClient c with
    | .error fault => .error fault
    | .ok address =>
      if address ∈ taken then .error (.repeatedAddress address)
      else checkClients (address :: taken) rest

/-- The type of a configured function. -/
def checkFunction (entry : String × String) : Except ConfigFault TransactionType :=
  match TransactionType.ofName entry.2 with
  | .ok type => .ok type
  | .error fault => .error (.function entry.1 fault)

/-- Checks functions in order. -/
def checkFunctions : List (String × String) → Except ConfigFault Unit
  | [] => .ok ()
  | entry :: rest => match checkFunction entry with
    | .error fault => .error fault
    | .ok _ => checkFunctions rest

/-- Checks what the grammar of the text does not. -/
def validate (c : Config) : Except ConfigFault Unit :=
  if Text.trim c.node.logLevel.toList = [] then .error .blankLogLevel
  else do
    checkClients [] c.clients
    checkFunctions c.functions.entries

end Config

/-! ## Ledgers from configurations -/

namespace Ledger

/-- The client of an entry. -/
def clientOf (c : ClientEntry) : Except DecodingFault Client :=
  match Address.ofText c.address with
  | .error fault => .error fault
  | .ok address => match VerificationKey.ofText c.publicKey with
    | .error fault => .error fault
    | .ok key => .ok ⟨c.id, address, key⟩

/-- The ledger with the clients of entries, in order. -/
def withClients (l : Ledger) : List ClientEntry → Except Error Ledger
  | [] => .ok l
  | c :: rest => match clientOf c with
    | .error fault => .error (.decoding fault)
    | .ok client => match l.registerClient client with
      | .error fault => .error (.config fault)
      | .ok l => l.withClients rest

/-- The ledger with the functions of entries, in order. -/
def withFunctions (l : Ledger) : List (String × String) → Except Error Ledger
  | [] => .ok l
  | entry :: rest => match Config.checkFunction entry with
    | .error fault => .error (.config fault)
    | .ok type => (l.registerFunction entry.1 type).withFunctions rest

/-- The ledger of a configuration. -/
def ofConfig (c : Config) : Except Error Ledger := do
  let l ← Ledger.empty.withClients c.clients
  l.withFunctions c.functions.entries

end Ledger

end Admission
