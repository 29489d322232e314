import Admission.Proofs.Ledger.Configured
import Admission.Proofs.Address

/-!
# Checks and ledgers agree

Two passes go over a configuration. One checks it, and remembers the addresses that it has met; the
other one builds its ledger, and looks into the registry that it has so far. After the same entries
both know the same addresses (`Config.InStep`), so from one entry to the next they go on together,
or stop together for the same cause (`Config.client_step`). Hence a configuration whose log level is
not blank passes its checks exactly if it has a ledger, and otherwise both passes stop at one entry
for one cause, each with its own report of it (`Config.checks_or_fails`).
-/

namespace Admission

namespace FunctionNames

/-- The first functions, as many as asked for. -/
def take (f : FunctionNames) (n : ℕ) : FunctionNames :=
  ⟨f.entries.take n, by
    rw [List.map_take]
    exact f.sorted.sublist (List.take_sublist n _)⟩

end FunctionNames

namespace Config

/-! ## Where a pass stops, and why -/

/-- The place of an entry in a configuration, counted from zero. -/
inductive Place where
  | client (i : ℕ)
  | function (i : ℕ)

/-- The configuration with its first clients and its first functions only. -/
def cut (c : Config) (clients functions : ℕ) : Config :=
  { c with clients := c.clients.take clients, functions := c.functions.take functions }

/-- What stands before a place. -/
def before (c : Config) : Place → Config
  | .client i => c.cut i 0
  | .function i => c.cut c.clients.length i

/-- A configuration begins like another one, up to a place and with the entry that stands there;
what follows may be anything. -/
def GoesOn (c : Config) : Place → Config → Prop
  | .client i, c' => c'.node = c.node ∧ c.clients.take (i + 1) <+: c'.clients
  | .function i, c' => c'.node = c.node ∧ c'.clients = c.clients ∧
    c.functions.entries.take (i + 1) <+: c'.functions.entries

/-- A pass over configurations fails at an entry: it takes what stands before the entry, and refuses
all that goes on with the entry. -/
structure FailsAt {ε α : Type} (pass : Config → Except ε α) (c : Config) (place : Place)
    (fault : ε) : Prop where
  accepts : ∃ result, pass (c.before place) = .ok result
  refuses : ∀ c', c.GoesOn place c' → pass c' = .error fault

lemma FailsAt.reports {ε α : Type} {pass : Config → Except ε α} {c : Config} {place : Place}
    {fault : ε} (h : FailsAt pass c place fault) : pass c = .error fault := by
  cases place with
  | client i => exact h.refuses c ⟨rfl, List.take_prefix _ _⟩
  | function i => exact h.refuses c ⟨rfl, rfl, List.take_prefix _ _⟩

/-- Of two places, what stands before one of them goes on with the entry at the other one. -/
lemma goesOn_before (c : Config) {place place' : Place} (h : place ≠ place') :
    c.GoesOn place (c.before place') ∨ c.GoesOn place' (c.before place) := by
  have hall : ∀ i, (c.before (.function i)).clients = c.clients := fun _ => List.take_length
  cases place with
  | client i =>
    cases place' with
    | client j =>
      rcases Nat.lt_or_gt_of_ne fun hij => h (congrArg Place.client hij) with hlt | hlt
      · exact .inl ⟨rfl, List.take_prefix_take_left hlt⟩
      · exact .inr ⟨rfl, List.take_prefix_take_left hlt⟩
    | function j =>
      refine .inl ⟨rfl, ?_⟩
      rw [hall]
      exact List.take_prefix _ _
  | function i =>
    cases place' with
    | client j =>
      refine .inr ⟨rfl, ?_⟩
      rw [hall]
      exact List.take_prefix _ _
    | function j =>
      rcases Nat.lt_or_gt_of_ne fun hij => h (congrArg Place.function hij) with hlt | hlt
      · exact .inl ⟨rfl, hall j, List.take_prefix_take_left hlt⟩
      · exact .inr ⟨rfl, hall i, List.take_prefix_take_left hlt⟩

/-- A pass fails at one entry at most, with one fault. -/
theorem FailsAt.unique {ε α : Type} {pass : Config → Except ε α} {c : Config}
    {place place' : Place} {fault fault' : ε} (h : FailsAt pass c place fault)
    (h' : FailsAt pass c place' fault') : place = place' ∧ fault = fault' := by
  have hfault : fault = fault' := Except.error.inj (h.reports.symm.trans h'.reports)
  refine ⟨?_, hfault⟩
  by_contra hne
  obtain ⟨result, hresult⟩ := h.accepts
  obtain ⟨result', hresult'⟩ := h'.accepts
  rcases c.goesOn_before hne with hgoes | hgoes
  · exact nomatch hresult'.symm.trans (h.refuses _ hgoes)
  · exact nomatch hresult.symm.trans (h'.refuses _ hgoes)

/-- What is wrong with the entry of a client after other entries, and how it is reported by the
checks and in the building of a ledger. -/
inductive ClientFault (before : List ClientEntry) (entry : ClientEntry) :
    ConfigFault → Error → Prop
  | address {fault : DecodingFault} (haddress : Address.ofText entry.address = .error fault) :
    ClientFault before entry (.clientAddress entry.id fault) (.decoding fault)
  | key {address : Address} {fault : DecodingFault}
    (haddress : Address.ofText entry.address = .ok address)
    (hkey : VerificationKey.ofText entry.publicKey = .error fault) :
    ClientFault before entry (.clientKey entry.id fault) (.decoding fault)
  | repeated {address : Address} {key : VerificationKey} {other : ClientEntry}
    (haddress : Address.ofText entry.address = .ok address)
    (hkey : VerificationKey.ofText entry.publicKey = .ok key)
    (hother : other ∈ before) (hsame : Address.ofText other.address = .ok address) :
    ClientFault before entry (.repeatedAddress address) (.config (.repeatedAddress address))

/-- What is wrong at a place, and how it is reported by the checks and in the building of a ledger.
-/
inductive FaultAt (c : Config) : Place → ConfigFault → Error → Prop
  | client {i : ℕ} {entry : ClientEntry} {fault : ConfigFault} {error : Error}
    (hentry : c.clients[i]? = some entry)
    (hfault : ClientFault (c.clients.take i) entry fault error) :
    FaultAt c (.client i) fault error
  | typeName {i : ℕ} {entry : String × String} {fault : DecodingFault}
    (hentry : c.functions.entries[i]? = some entry)
    (hname : TransactionType.ofName entry.2 = .error fault) :
    FaultAt c (.function i) (.function entry.1 fault) (.config (.function entry.1 fault))

/-! ## Passes over entries -/

section Stops

variable {α β ε : Type} {pass next : List α → Except ε β} {entry : α} {entries : List α} {i : ℕ}
  {fault : ε}

/-- A pass over entries takes those before the `i`-th one, and stops there whatever follows. -/
structure StopsAt (pass : List α → Except ε β) (entries : List α) (i : ℕ) (fault : ε) : Prop where
  accepts : ∃ result, pass (entries.take i) = .ok result
  refuses : ∀ entries', entries.take (i + 1) <+: entries' → pass entries' = .error fault

/-- A pass that refuses an entry stops at it. -/
lemma stopsAt_zero (hnil : ∃ result, pass [] = .ok result)
    (hentry : ∀ rest, pass (entry :: rest) = .error fault) :
    StopsAt pass (entry :: entries) 0 fault := by
  refine ⟨hnil, ?_⟩
  rintro _ ⟨rest, rfl⟩
  exact hentry rest

/-- A pass that goes on behind an entry stops where it stops then. -/
lemma StopsAt.cons (h : StopsAt next entries i fault)
    (hentry : ∀ rest, pass (entry :: rest) = next rest) :
    StopsAt pass (entry :: entries) (i + 1) fault := by
  constructor
  · rw [List.take_succ_cons, hentry]
    exact h.accepts
  · rintro _ ⟨rest, rfl⟩
    rw [List.take_succ_cons, List.cons_append, hentry]
    exact h.refuses _ ⟨rest, rfl⟩

end Stops

/-! ## Clients -/

/-- After these entries the checks have met the addresses that they spell, and the ledger has their
clients. -/
structure InStep (entries : List ClientEntry) (taken : List Address) (l : Ledger) : Prop where
  mem_taken_iff : ∀ address, address ∈ taken ↔
    ∃ entry ∈ entries, Address.ofText entry.address = .ok address
  mem_registry_iff : ∀ address, address ∈ l.registry.clients.map Client.address ↔ address ∈ taken

variable {before : List ClientEntry} {taken : List Address} {l : Ledger}

/-- From one entry to the next, both passes go on, or both stop for one cause. -/
lemma client_step (h : InStep before taken l) (entry : ClientEntry) :
    (∃ address next, InStep (before ++ [entry]) (address :: taken) next ∧
      (∀ rest, checkClients taken (entry :: rest) = checkClients (address :: taken) rest) ∧
      ∀ rest, l.withClients (entry :: rest) = next.withClients rest) ∨
    ∃ fault error, ClientFault before entry fault error ∧
      (∀ rest, checkClients taken (entry :: rest) = .error fault) ∧
      ∀ rest, l.withClients (entry :: rest) = .error error := by
  cases haddress : Address.ofText entry.address with
  | error fault =>
    refine .inr ⟨_, _, .address haddress, ?_, ?_⟩
    · intro rest
      simp only [checkClients, checkClient, haddress]
    · intro rest
      simp only [Ledger.withClients, Ledger.clientOf, haddress]
  | ok address =>
    cases hkey : VerificationKey.ofText entry.publicKey with
    | error fault =>
      refine .inr ⟨_, _, .key haddress hkey, ?_, ?_⟩
      · intro rest
        simp only [checkClients, checkClient, haddress, hkey]
      · intro rest
        simp only [Ledger.withClients, Ledger.clientOf, haddress, hkey]
    | ok key =>
      have hregistered := h.mem_registry_iff address
      by_cases htaken : address ∈ taken
      · obtain ⟨other, hother, hsame⟩ := (h.mem_taken_iff address).mp htaken
        refine .inr ⟨_, _, .repeated haddress hkey hother hsame, ?_, ?_⟩
        · intro rest
          simp only [checkClients, checkClient, haddress, hkey, if_pos htaken]
        · intro rest
          have hrefused : l.registerClient ⟨entry.id, address, key⟩
              = .error (.repeatedAddress address) := by
            rw [Ledger.registerClient, Registry.register, dif_pos (hregistered.mpr htaken)]
            rfl
          simp only [Ledger.withClients, Ledger.clientOf, haddress, hkey, hrefused]
      · have hfree : address ∉ l.registry.clients.map Client.address :=
          fun hmem => htaken (hregistered.mp hmem)
        obtain ⟨registry, hregistry⟩ :
            ∃ registry, l.registry.register ⟨entry.id, address, key⟩ = .ok registry := by
          rw [Registry.register, dif_neg hfree]
          exact ⟨_, rfl⟩
        have hnext : l.registerClient ⟨entry.id, address, key⟩
            = .ok { l with registry := registry } :=
          Ledger.registerClient_eq_ok_iff.mpr ⟨registry, hregistry, rfl⟩
        have hclients := (Registry.register_eq_ok_iff.mp hregistry).2
        refine .inl ⟨address, { l with registry := registry }, ?_, ?_, ?_⟩
        · constructor
          · intro a
            rw [List.mem_cons, h.mem_taken_iff]
            simp only [List.mem_append, List.mem_singleton, or_and_right, exists_or,
              exists_eq_left, haddress, Except.ok.injEq]
            rw [or_comm, eq_comm]
          · intro a
            show a ∈ registry.clients.map Client.address ↔ _
            rw [hclients, List.map_append, List.mem_append, h.mem_registry_iff, List.map_singleton,
              List.mem_singleton, List.mem_cons, or_comm]
        · intro rest
          simp only [checkClients, checkClient, haddress, hkey, if_neg htaken]
        · intro rest
          simp only [Ledger.withClients, Ledger.clientOf, haddress, hkey, hnext]

/-- Both passes take all clients, or both stop at one of them for one cause. -/
lemma clients_in_step (h : InStep before taken l) (entries : List ClientEntry) :
    (checkClients taken entries = .ok () ∧ ∃ l', l.withClients entries = .ok l') ∨
    ∃ i entry fault error, entries[i]? = some entry ∧
      ClientFault (before ++ entries.take i) entry fault error ∧
      StopsAt (checkClients taken) entries i fault ∧ StopsAt l.withClients entries i error := by
  induction entries generalizing before taken l with
  | nil => exact .inl ⟨rfl, l, rfl⟩
  | cons first rest ih =>
    rcases client_step h first with ⟨address, next, hnext, hcheck, hbuild⟩ |
      ⟨fault, error, hfault, hcheck, hbuild⟩
    · rcases ih hnext with ⟨hok, l', hl'⟩ | ⟨i, entry, fault, error, hentry, hfault, hstop, hstop'⟩
      · exact .inl ⟨(hcheck rest).trans hok, l', (hbuild rest).trans hl'⟩
      · rw [List.append_assoc] at hfault
        exact .inr ⟨i + 1, entry, fault, error, hentry, hfault, hstop.cons hcheck,
          hstop'.cons hbuild⟩
    · refine .inr ⟨0, first, fault, error, rfl, ?_, ?_, ?_⟩
      · rwa [List.take_zero, List.append_nil]
      · exact stopsAt_zero ⟨(), rfl⟩ hcheck
      · exact stopsAt_zero ⟨l, rfl⟩ hbuild

/-! ## Functions -/

/-- Both passes take all functions, or both stop at one whose type name is unknown. -/
lemma functions_in_step (l : Ledger) (entries : List (String × String)) :
    (checkFunctions entries = .ok () ∧ ∃ l', l.withFunctions entries = .ok l') ∨
    ∃ i entry fault, entries[i]? = some entry ∧ TransactionType.ofName entry.2 = .error fault ∧
      StopsAt checkFunctions entries i (.function entry.1 fault) ∧
      StopsAt l.withFunctions entries i (.config (.function entry.1 fault)) := by
  induction entries generalizing l with
  | nil => exact .inl ⟨rfl, l, rfl⟩
  | cons first rest ih =>
    cases hname : TransactionType.ofName first.2 with
    | error fault =>
      refine .inr ⟨0, first, fault, rfl, hname, ?_, ?_⟩
      · apply stopsAt_zero ⟨(), rfl⟩
        intro rest
        simp only [checkFunctions, checkFunction, hname]
      · apply stopsAt_zero ⟨l, rfl⟩
        intro rest
        simp only [Ledger.withFunctions, checkFunction, hname]
    | ok type =>
      have hcheck : ∀ rest, checkFunctions (first :: rest) = checkFunctions rest := by
        intro rest
        simp only [checkFunctions, checkFunction, hname]
      have hbuild : ∀ rest, l.withFunctions (first :: rest)
          = (l.registerFunction first.1 type).withFunctions rest := by
        intro rest
        simp only [Ledger.withFunctions, checkFunction, hname]
      rcases ih (l.registerFunction first.1 type) with ⟨hok, l', hl'⟩ |
        ⟨i, entry, fault, hentry, hname, hstop, hstop'⟩
      · exact .inl ⟨(hcheck rest).trans hok, l', (hbuild rest).trans hl'⟩
      · exact .inr ⟨i + 1, entry, fault, hentry, hname, hstop.cons hcheck, hstop'.cons hbuild⟩

/-! ## Whole configurations -/

section Stages

variable {ε α β : Type} {pass : Config → Except ε α} {c : Config} {i : ℕ} {fault : ε}
  {clients : List ClientEntry → Except ε β} {functions : β → List (String × String) → Except ε α}

/-- A pass goes over the clients of a configuration, and then over its functions. -/
structure Staged (pass : Config → Except ε α) (c : Config) (clients : List ClientEntry → Except ε β)
    (functions : β → List (String × String) → Except ε α) : Prop where
  accepts_nil : ∀ result, ∃ result', functions result [] = .ok result'
  eq_bind : ∀ c' : Config, c'.node = c.node →
    pass c' = clients c'.clients >>= fun result => functions result c'.functions.entries

lemma Staged.failsAt_client (h : Staged pass c clients functions)
    (hstop : StopsAt clients c.clients i fault) : FailsAt pass c (.client i) fault := by
  constructor
  · obtain ⟨result, hresult⟩ := hstop.accepts
    rw [h.eq_bind (c.before (.client i)) rfl]
    show ∃ result', (clients (c.clients.take i) >>= fun result => functions result []) = .ok result'
    rw [hresult]
    exact h.accepts_nil result
  · rintro c' ⟨hnode, hclients⟩
    rw [h.eq_bind c' hnode, hstop.refuses _ hclients]
    rfl

lemma Staged.failsAt_function (h : Staged pass c clients functions) {result : β}
    (hclients : clients c.clients = .ok result)
    (hstop : StopsAt (functions result) c.functions.entries i fault) :
    FailsAt pass c (.function i) fault := by
  constructor
  · have hall : (c.before (.function i)).clients = c.clients := List.take_length
    rw [h.eq_bind (c.before (.function i)) rfl, hall, hclients]
    exact hstop.accepts
  · rintro c' ⟨hnode, hsame, hfunctions⟩
    rw [h.eq_bind c' hnode, hsame, hclients]
    exact hstop.refuses _ hfunctions

end Stages

variable {c : Config}

lemma staged_ofConfig (c : Config) :
    Staged Ledger.ofConfig c Ledger.empty.withClients Ledger.withFunctions :=
  ⟨fun l => ⟨l, rfl⟩, fun _ _ => rfl⟩

/-- Nothing with a blank log level passes the checks. -/
lemma level_of_validate (h : c.validate = .ok ()) : Text.trim c.node.logLevel.toList ≠ [] := by
  intro hblank
  rw [validate, if_pos hblank] at h
  cases h

lemma staged_validate (hlevel : Text.trim c.node.logLevel.toList ≠ []) :
    Staged validate c (checkClients []) fun _ => checkFunctions := by
  refine ⟨fun _ => ⟨(), rfl⟩, ?_⟩
  intro c' hnode
  rw [validate, hnode, if_neg hlevel]

/-- A configuration whose log level is not blank passes its checks and has a ledger, or both passes
fail at one of its entries, for one cause. -/
theorem checks_or_fails (hlevel : Text.trim c.node.logLevel.toList ≠ []) :
    (c.validate = .ok () ∧ ∃ l, Ledger.ofConfig c = .ok l) ∨
    ∃ place fault error, FaultAt c place fault error ∧ FailsAt validate c place fault ∧
      FailsAt Ledger.ofConfig c place error := by
  have hvalidate := staged_validate hlevel
  have hbuild := staged_ofConfig c
  have hstart : InStep [] [] Ledger.empty := by
    constructor
    · simp
    · intro address
      exact Iff.rfl
  rcases clients_in_step hstart c.clients with ⟨hok, l, hl⟩ |
    ⟨i, entry, fault, error, hentry, hfault, hstop, hstop'⟩
  · rcases functions_in_step l c.functions.entries with ⟨hok', l', hl'⟩ |
      ⟨i, entry, fault, hentry, hname, hstop, hstop'⟩
    · refine .inl ⟨?_, l', ?_⟩
      · rw [hvalidate.eq_bind c rfl, hok]
        exact hok'
      · rw [hbuild.eq_bind c rfl, hl]
        exact hl'
    · exact .inr ⟨.function i, _, _, .typeName hentry hname,
        hvalidate.failsAt_function hok hstop, hbuild.failsAt_function hl hstop'⟩
  · rw [List.nil_append] at hfault
    exact .inr ⟨.client i, fault, error, .client hentry hfault, hvalidate.failsAt_client hstop,
      hbuild.failsAt_client hstop'⟩

end Config

/-- A configuration that passes its checks has a ledger. -/
theorem Ledger.exists_ofConfig {c : Config} (h : c.validate = .ok ()) :
    ∃ l, Ledger.ofConfig c = .ok l := by
  rcases Config.checks_or_fails (Config.level_of_validate h) with ⟨-, hl⟩ | ⟨_, _, _, -, hchecks, -⟩
  · exact hl
  · exact nomatch h.symm.trans hchecks.reports

namespace Config

/-! ## Repeated addresses -/

variable {c : Config}

/-- The entries of a configuration that has a ledger spell different addresses. -/
lemma nodup_addresses {l : Ledger} (h : Ledger.ofConfig c = .ok l) :
    (c.clients.map fun entry => Address.ofText entry.address).Nodup := by
  have haddresses : (c.clients.map fun entry => Address.ofText entry.address)
      = (l.registry.clients.map Client.address).map Except.ok :=
    Ledger.map_clients_ofConfig h fun _ _ hclient => (Ledger.clientOf_eq_ok_iff.mp hclient).2.1
  rw [haddresses]
  exact l.registry.nodup.map fun _ _ => Except.ok.inj

variable {i j : ℕ} {first second : ClientEntry} {address : Address}

/-- Two entries that spell one address, in whatever way, leave no ledger. -/
lemma no_ledger_of_repeated (hij : i < j) (hfirst : c.clients[i]? = some first)
    (hsecond : c.clients[j]? = some second) (hspells : address.SpelledBy first.address)
    (hspells' : address.SpelledBy second.address) (l : Ledger) : Ledger.ofConfig c ≠ .ok l := by
  intro hl
  have hlt : j < c.clients.length := (List.getElem?_eq_some_iff.mp hsecond).1
  apply List.nodup_iff_getElem?_ne_getElem?.mp (nodup_addresses hl) i j hij
  · rwa [List.length_map]
  · rw [List.getElem?_map, List.getElem?_map, hfirst, hsecond, Option.map_some, Option.map_some,
      Address.ofText_eq_ok_iff.mpr hspells, Address.ofText_eq_ok_iff.mpr hspells']

/-- Behind entries that pass, an entry that spells one of their addresses is refused for that by
both passes. -/
lemma fails_of_repeated {key : VerificationKey} (hlevel : Text.trim c.node.logLevel.toList ≠ [])
    (hij : i < j) (hfirst : c.clients[i]? = some first) (hsecond : c.clients[j]? = some second)
    (hspells : address.SpelledBy first.address) (hspells' : address.SpelledBy second.address)
    (hkey : VerificationKey.ofText second.publicKey = .ok key)
    (hbefore : (c.before (.client j)).validate = .ok ()) :
    FailsAt validate c (.client j) (.repeatedAddress address) ∧
      FailsAt Ledger.ofConfig c (.client j) (.config (.repeatedAddress address)) := by
  rcases checks_or_fails hlevel with ⟨-, l, hl⟩ | ⟨place, fault, error, hfault, hchecks, hbuild⟩
  · exact absurd hl (no_ledger_of_repeated hij hfirst hsecond hspells hspells' l)
  · have hplace : place = .client j := by
      by_contra hne
      rcases c.goesOn_before hne with hgoes | hgoes
      · exact nomatch hbefore.symm.trans (hchecks.refuses _ hgoes)
      · -- What stands before a later place has both entries, and yet a ledger.
        obtain ⟨l, hl⟩ := hbuild.accepts
        obtain ⟨rest, hrest⟩ := hgoes.2
        have hlt : j < c.clients.length := (List.getElem?_eq_some_iff.mp hsecond).1
        have hheld : ∀ k < j + 1, (c.before place).clients[k]? = c.clients[k]? := by
          intro k hk
          rw [← hrest, List.getElem?_append_left (by rw [List.length_take]; omega),
            List.getElem?_take_of_lt hk]
        apply no_ledger_of_repeated hij _ _ hspells hspells' l hl
        · rw [hheld i (by omega), hfirst]
        · rw [hheld j (by omega), hsecond]
    subst hplace
    cases hfault with
    | client hentry hcause =>
      obtain rfl := Option.some.inj (hsecond.symm.trans hentry)
      have haddress := Address.ofText_eq_ok_iff.mpr hspells'
      cases hcause with
      | address hfault => exact nomatch haddress.symm.trans hfault
      | key _ hfault => exact nomatch hkey.symm.trans hfault
      | repeated hsame =>
        obtain rfl := Except.ok.inj (haddress.symm.trans hsame)
        exact ⟨hchecks, hbuild⟩

/-! ## Agreement -/

/-- A configuration passes its checks if and only if its log level is not blank and it has a ledger.
Where the level is not blank and both passes fail, they do so at one and the same entry and for the
same cause. Entries that spell one address in different ways are a repetition for both. -/
theorem validate_agrees (c : Config) :
    (c.validate = .ok () ↔
      Text.trim c.node.logLevel.toList ≠ [] ∧ ∃ l, Ledger.ofConfig c = .ok l) ∧
    (∀ fault error, Text.trim c.node.logLevel.toList ≠ [] → c.validate = .error fault →
      Ledger.ofConfig c = .error error → ∃! place, FaultAt c place fault error ∧
        FailsAt validate c place fault ∧ FailsAt Ledger.ofConfig c place error) ∧
    ∀ i j first second address, i < j → c.clients[i]? = some first → c.clients[j]? = some second →
      address.SpelledBy first.address → address.SpelledBy second.address →
      c.validate ≠ .ok () ∧ (∀ l, Ledger.ofConfig c ≠ .ok l) ∧
      ∀ key, VerificationKey.ofText second.publicKey = .ok key →
        (c.before (.client j)).validate = .ok () →
        FailsAt validate c (.client j) (.repeatedAddress address) ∧
          FailsAt Ledger.ofConfig c (.client j) (.config (.repeatedAddress address)) := by
  refine ⟨⟨?_, ?_⟩, ?_, ?_⟩
  · intro hvalid
    exact ⟨level_of_validate hvalid, Ledger.exists_ofConfig hvalid⟩
  · rintro ⟨hlevel, l, hl⟩
    rcases checks_or_fails hlevel with ⟨hvalid, -⟩ | ⟨_, _, _, -, -, hbuild⟩
    · exact hvalid
    · exact nomatch hl.symm.trans hbuild.reports
  · intro fault error hlevel hfault herror
    rcases checks_or_fails hlevel with ⟨hvalid, -⟩ | ⟨place, _, _, hcause, hchecks, hbuild⟩
    · exact nomatch hvalid.symm.trans hfault
    · obtain rfl := Except.error.inj (hfault.symm.trans hchecks.reports)
      obtain rfl := Except.error.inj (herror.symm.trans hbuild.reports)
      refine ⟨place, ⟨hcause, hchecks, hbuild⟩, ?_⟩
      rintro place' ⟨-, hchecks', -⟩
      exact (hchecks'.unique hchecks).1
  · intro i j first second address hij hfirst hsecond hspells hspells'
    have hnone := no_ledger_of_repeated hij hfirst hsecond hspells hspells'
    refine ⟨?_, hnone, ?_⟩
    · intro hvalid
      obtain ⟨l, hl⟩ := Ledger.exists_ofConfig hvalid
      exact hnone l hl
    · intro key hkey hbefore
      have hlevel : Text.trim (c.before (.client j)).node.logLevel.toList ≠ [] :=
        level_of_validate hbefore
      exact fails_of_repeated hlevel hij hfirst hsecond hspells hspells' hkey hbefore

/-- Two spellings of one address, with keys of their own. -/
theorem validate_agrees_of_spellings :
    let address : Address := ⟨List.replicate 19 0 ++ [171], rfl⟩
    let c : Config := ⟨.standard, [⟨1, "00000000000000000000000000000000000000ab", "02aa"⟩,
      ⟨2, "0X00000000000000000000000000000000000000AB", "0x03AA"⟩], .empty⟩
    c.validate = .error (.repeatedAddress address) ∧
      Ledger.ofConfig c = .error (.config (.repeatedAddress address)) ∧
      ∃! place, FaultAt c place (.repeatedAddress address) (.config (.repeatedAddress address)) ∧
        FailsAt validate c place (.repeatedAddress address) ∧
        FailsAt Ledger.ofConfig c place (.config (.repeatedAddress address)) := by
  intro address c
  obtain ⟨-, hfails, hrepeated⟩ := validate_agrees c
  have hspells : ∀ entry ∈ c.clients, address.SpelledBy entry.address := by
    simp only [← Address.ofText_eq_ok_iff]
    decide +kernel
  obtain ⟨-, -, hrefused⟩ := hrepeated 0 1 _ _ address (by decide) rfl rfl
    (hspells _ (by simp [c])) (hspells _ (by simp [c]))
  obtain ⟨hchecks, hbuild⟩ := hrefused ⟨[3, 170]⟩ (by decide +kernel) (by decide +kernel)
  exact ⟨hchecks.reports, hbuild.reports,
    hfails _ _ (by decide +kernel) hchecks.reports hbuild.reports⟩

end Config

end Admission
