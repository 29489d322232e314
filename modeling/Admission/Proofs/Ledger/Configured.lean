import Mathlib.Data.List.Forall2
import Mathlib.Data.List.Nodup
import Admission.Config
import Admission.Proofs.Ledger.Verdict

/-!
# The ledger of a configuration

The clients of the ledger that a configuration has are those of its entries, in their order
(`Ledger.clients_ofConfig`), its functions are those of the entries before those of the token
contract (`Ledger.functions_ofConfig`), and nothing is recorded on it yet (`Ledger.seen_ofConfig`).
-/

namespace Admission

/-! ## Single clients -/

/-- A client is found at its address, and nobody else is. -/
lemma Registry.find?_eq_some_iff {r : Registry} {address : Address} {client : Client} :
    r.find? address = some client ↔ client ∈ r.clients ∧ client.address = address := by
  constructor
  · intro h
    exact ⟨List.mem_of_find?_eq_some h, Registry.address_of_find? h⟩
  · rintro ⟨hmem, rfl⟩
    obtain ⟨found, hfound⟩ : ∃ found, r.find? client.address = some found := by
      rw [← Option.isSome_iff_exists, Registry.isSome_find?]
      exact List.mem_map_of_mem hmem
    have hheld : found ∈ r.clients := List.mem_of_find?_eq_some hfound
    have haddress : found.address = client.address := Registry.address_of_find? hfound
    rw [hfound, List.inj_on_of_nodup_map r.nodup hheld hmem haddress]

/-- A client is registered behind the others, if its address is free. -/
lemma Registry.register_eq_ok_iff {r r' : Registry} {client : Client} :
    r.register client = .ok r' ↔
      client.address ∉ r.clients.map Client.address ∧ r'.clients = r.clients ++ [client] := by
  obtain ⟨clients, hnodup⟩ := r'
  unfold register
  split
  · rename_i htaken
    simp [htaken]
  · rename_i hfree
    simp [hfree, eq_comm (a := clients)]

namespace Ledger

variable {l l' : Ledger}

/-- The ledger knows the keys of its clients. -/
lemma key?_eq_some_iff {address : Address} {key : VerificationKey} :
    l.view.key? address = some key ↔
      ∃ client ∈ l.registry.clients, client.address = address ∧ client.key = key := by
  show (l.registry.find? address).map Client.key = some key ↔ _
  simp only [Option.map_eq_some_iff, Registry.find?_eq_some_iff, and_assoc]

lemma registerClient_eq_ok_iff {client : Client} :
    l.registerClient client = .ok l' ↔
      ∃ registry, l.registry.register client = .ok registry ∧
        l' = { l with registry := registry } := by
  rw [registerClient]
  cases l.registry.register client with
  | error fault => simp [Except.map]
  | ok registry => simp [Except.map, eq_comm (a := l')]

/-- An entry is for one client: its own number, and what its texts spell. -/
lemma clientOf_eq_ok_iff {entry : ClientEntry} {client : Client} :
    clientOf entry = .ok client ↔ client.id = entry.id ∧
      Address.ofText entry.address = .ok client.address ∧
      VerificationKey.ofText entry.publicKey = .ok client.key := by
  obtain ⟨id, address, key⟩ := client
  unfold clientOf
  cases Address.ofText entry.address with
  | error fault => simp
  | ok a => cases VerificationKey.ofText entry.publicKey <;> simp [eq_comm]

/-! ## Clients and functions in order -/

/-- The clients of entries stand behind those that are there, and nothing else changes. -/
lemma clients_withClients {entries : List ClientEntry} (h : l.withClients entries = .ok l') :
    ∃ clients, List.Forall₂ (fun entry client => clientOf entry = .ok client) entries clients ∧
      l'.registry.clients = l.registry.clients ++ clients ∧ l'.functions = l.functions ∧
      l'.seen = l.seen := by
  induction entries generalizing l with
  | nil =>
    injection h with h
    rw [← h]
    exact ⟨[], .nil, (List.append_nil _).symm, rfl, rfl⟩
  | cons entry rest ih =>
    rw [withClients] at h
    cases hclient : clientOf entry with
    | error fault =>
      rw [hclient] at h
      exact nomatch h
    | ok client =>
      rw [hclient] at h
      cases hnext : l.registerClient client with
      | error fault =>
        simp only [hnext] at h
        exact nomatch h
      | ok next =>
        simp only [hnext] at h
        obtain ⟨registry, hregistry, rfl⟩ := registerClient_eq_ok_iff.mp hnext
        obtain ⟨clients, hall, hclients, hfunctions, hseen⟩ := ih h
        rw [(Registry.register_eq_ok_iff.mp hregistry).2, List.append_assoc] at hclients
        exact ⟨client :: clients, .cons hclient hall, hclients, hfunctions, hseen⟩

/-- The functions of entries stand before those that are there, the last one first, and nothing else
changes. -/
lemma functions_withFunctions {entries : List (String × String)}
    (h : l.withFunctions entries = .ok l') :
    ∃ types, List.Forall₂ (fun entry type => Config.checkFunction entry = .ok type) entries types ∧
      l'.functions = ((entries.map Prod.fst).zip types).reverse ++ l.functions ∧
      l'.registry = l.registry ∧ l'.seen = l.seen := by
  induction entries generalizing l with
  | nil =>
    injection h with h
    rw [← h]
    exact ⟨[], .nil, rfl, rfl, rfl⟩
  | cons entry rest ih =>
    rw [withFunctions] at h
    cases hcheck : Config.checkFunction entry with
    | error fault =>
      rw [hcheck] at h
      exact nomatch h
    | ok type =>
      rw [hcheck] at h
      obtain ⟨types, hall, hfunctions, hregistry, hseen⟩ :=
        @ih (l.registerFunction entry.1 type) h
      refine ⟨type :: types, .cons hcheck hall, ?_, hregistry, hseen⟩
      rw [hfunctions, List.map_cons, List.zip_cons_cons, List.reverse_cons, List.append_assoc]
      rfl

/-! ## Configurations -/

variable {c : Config}

/-- Clients come first, then functions. -/
lemma ofConfig_eq_ok_iff :
    ofConfig c = .ok l ↔
      ∃ l', empty.withClients c.clients = .ok l' ∧
        l'.withFunctions c.functions.entries = .ok l := by
  rw [ofConfig]
  cases empty.withClients c.clients <;> simp [bind, Except.bind]

/-- The clients of the ledger are those of the entries. -/
theorem clients_ofConfig (h : ofConfig c = .ok l) :
    List.Forall₂ (fun entry client => clientOf entry = .ok client) c.clients
      l.registry.clients := by
  obtain ⟨l', hclients, hfunctions⟩ := ofConfig_eq_ok_iff.mp h
  obtain ⟨clients, hall, hl', -⟩ := clients_withClients hclients
  obtain ⟨-, -, -, hregistry, -⟩ := functions_withFunctions hfunctions
  rw [hregistry, hl']
  exact hall

/-- What the entries spell is what the clients of the ledger have. -/
lemma map_clients_ofConfig {α : Type} {spelled : ClientEntry → Except DecodingFault α}
    {field : Client → α} (h : ofConfig c = .ok l)
    (hfield : ∀ entry client, clientOf entry = .ok client → spelled entry = .ok (field client)) :
    c.clients.map spelled = (l.registry.clients.map field).map Except.ok := by
  rw [List.map_map, ← List.forall₂_eq_eq_eq, List.forall₂_map_left_iff, List.forall₂_map_right_iff]
  exact (clients_ofConfig h).imp hfield

/-- The functions of the ledger are those of the entries, then those of the token contract. -/
theorem functions_ofConfig (h : ofConfig c = .ok l) :
    ∃ types, List.Forall₂ (fun entry type => Config.checkFunction entry = .ok type)
        c.functions.entries types ∧
      l.functions = ((c.functions.entries.map Prod.fst).zip types).reverse ++ .standard := by
  obtain ⟨l', hclients, hfunctions⟩ := ofConfig_eq_ok_iff.mp h
  obtain ⟨-, -, -, hl', -⟩ := clients_withClients hclients
  obtain ⟨types, hall, hl, -⟩ := functions_withFunctions hfunctions
  rw [hl'] at hl
  exact ⟨types, hall, hl⟩

/-- Nothing is recorded yet. -/
theorem seen_ofConfig (h : ofConfig c = .ok l) : l.seen = .empty := by
  obtain ⟨l', hclients, hfunctions⟩ := ofConfig_eq_ok_iff.mp h
  obtain ⟨-, -, -, -, hseen⟩ := clients_withClients hclients
  obtain ⟨-, -, -, -, hseen'⟩ := functions_withFunctions hfunctions
  rw [hseen', hseen]
  rfl

/-! ## What is admissible there -/

/-- Where nothing is recorded, a client's transaction is admissible if the key manager takes its
signature and its arguments are those that its type asks for. -/
lemma validate_of_client (hseen : l.seen = .empty) {client : Client}
    (hclient : client ∈ l.registry.clients) {tx : Transaction} {type : TransactionType}
    {scheme : SigningScheme} {signature payload : List UInt8}
    (hsender : tx.sender = client.address) (hsignature : tx.signature = some signature)
    (hpayload : tx.payload scheme = .ok payload) (htype : l.view.Resolves tx.operation type)
    (hargs : tx.checkArguments type = .ok ()) {manager : KeyManager}
    (htakes : manager.verify payload signature client.key = .ok true) :
    (Validator.mk scheme).validate l.view manager tx = .ok type := by
  have hkey : l.view.key? tx.sender = some client.key :=
    key?_eq_some_iff.mpr ⟨client, hclient, hsender.symm, rfl⟩
  have hnew : l.view.isReplayed (String.ofList (Text.Base64.encode signature)) = false := by
    show l.seen.contains _ = false
    rw [hseen]
    rfl
  exact Validator.validate_eq_ok_iff.mpr ⟨client.key, signature, payload, hkey, hsignature, hnew,
    hpayload, htakes, Operation.resolve_eq_ok_iff.mpr htype, hargs⟩

end Ledger

end Admission
