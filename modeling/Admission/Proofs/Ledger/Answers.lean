import Admission.Proofs.Ledger.Agreement

/-!
# What a ledger answers

A ledger that is built from a configuration answers with the configuration: with the key of the
entry whose address is asked for, with the type that a function is configured with, and where it is
not configured, with the type whose own signature it is (`Ledger.Answers`). These answers say all
that an engine can see, so the order of the entries does not matter (`Ledger.Answers.view_eq`). Types
that are set afterwards change the answers for their functions alone, and the last one counts
(`Ledger.ofConfig_answers`).
-/

namespace Admission

/-- The functions of the token contract are those that types have for their own. -/
lemma FunctionTable.type?_standard_iff {signature : String} {type : TransactionType} :
    standard.type? signature = some type ↔ type.contractSignature? = some signature := by
  constructor
  · intro h
    rw [type?, List.lookup_eq_some_iff] at h
    obtain ⟨before, after, hstandard, -⟩ := h
    have hmem : (signature, type) ∈ standard := by
      rw [hstandard]
      exact List.mem_append_right _ (List.mem_cons_self ..)
    rw [standard, List.mem_filterMap] at hmem
    obtain ⟨own, -, hown⟩ := hmem
    obtain ⟨ownSignature, hsignature, heq⟩ := Option.map_eq_some_iff.mp hown
    obtain ⟨rfl, rfl⟩ := Prod.mk.inj heq
    exact hsignature
  · exact type?_standard type signature

namespace Ledger

variable {l l' : Ledger} {c c' : Config}

/-! ## Functions set one after the other -/

/-- The ledger after types are set for functions, in order. -/
def registerFunctions (l : Ledger) (calls : List (String × TransactionType)) : Ledger :=
  calls.foldl (fun l call => l.registerFunction call.1 call.2) l

variable {calls : List (String × TransactionType)} {signature : String}

/-- Functions that are set stand before those that are there, and nothing else changes. -/
lemma registerFunctions_eq (l : Ledger) (calls : List (String × TransactionType)) :
    l.registerFunctions calls = { l with functions := calls.reverse ++ l.functions } := by
  induction calls generalizing l with
  | nil => rfl
  | cons call rest ih =>
    show (l.registerFunction call.1 call.2).registerFunctions rest = _
    rw [ih, List.reverse_cons, List.append_assoc]
    rfl

/-- A function whose type is not set keeps its type. -/
lemma type?_registerFunctions_of_notMem (h : signature ∉ calls.map Prod.fst) :
    (l.registerFunctions calls).view.type? signature = l.view.type? signature := by
  induction calls generalizing l with
  | nil => rfl
  | cons call rest ih =>
    rw [List.map_cons, List.mem_cons, not_or] at h
    show ((l.registerFunction call.1 call.2).registerFunctions rest).view.type? signature = _
    rw [ih h.2]
    show (l.functions.set call.1 call.2).type? signature = l.functions.type? signature
    rw [FunctionTable.type?_set, if_neg h.1]

/-- A function has the type that is set last for it. -/
lemma type?_registerFunctions_of_last {before after : List (String × TransactionType)}
    {type : TransactionType} (h : signature ∉ after.map Prod.fst) :
    (l.registerFunctions (before ++ (signature, type) :: after)).view.type? signature
      = some type := by
  have hsplit : l.registerFunctions (before ++ (signature, type) :: after)
      = ((l.registerFunctions before).registerFunction signature type).registerFunctions after := by
    rw [registerFunctions, List.foldl_append]
    rfl
  rw [hsplit, type?_registerFunctions_of_notMem h]
  show ((l.registerFunctions before).functions.set signature type).type? signature = some type
  rw [FunctionTable.type?_set, if_pos rfl]

/-- What is set once only counts wherever it stands. -/
lemma type?_registerFunctions_of_mem {type : TransactionType}
    (hnodup : (calls.map Prod.fst).Nodup) (h : (signature, type) ∈ calls) :
    (l.registerFunctions calls).view.type? signature = some type := by
  obtain ⟨before, after, rfl⟩ := List.append_of_mem h
  apply type?_registerFunctions_of_last
  rw [List.map_append, List.map_cons, List.nodup_append, List.nodup_cons] at hnodup
  exact hnodup.2.1.1

/-! ## Functions of a configuration -/

/-- The type of each entry is among those that are set. -/
lemma exists_call {entries : List (String × String)} {types : List TransactionType}
    (hall : List.Forall₂ (fun entry type => Config.checkFunction entry = .ok type) entries types)
    {entry : String × String} (h : entry ∈ entries) :
    ∃ type, TransactionType.ofName entry.2 = .ok type ∧
      (entry.1, type) ∈ (entries.map Prod.fst).zip types := by
  induction hall with
  | nil => exact nomatch h
  | @cons first type rest types hcheck hall ih =>
    rw [List.map_cons, List.zip_cons_cons]
    obtain rfl | h := List.mem_cons.mp h
    · refine ⟨type, ?_, List.mem_cons_self ..⟩
      unfold Config.checkFunction at hcheck
      split at hcheck
      · rename_i heq
        rw [heq, Except.ok.inj hcheck]
      · exact nomatch hcheck
    · obtain ⟨found, hname, hmem⟩ := ih h
      exact ⟨found, hname, List.mem_cons_of_mem _ hmem⟩

/-- Building a ledger sets the types of the entries, on the standard functions. -/
lemma exists_calls (h : ofConfig c = .ok l) :
    ∃ calls : List (String × TransactionType),
      calls.map Prod.fst = c.functions.entries.map Prod.fst ∧
      (∀ entry ∈ c.functions.entries, ∃ type, TransactionType.ofName entry.2 = .ok type ∧
        (entry.1, type) ∈ calls) ∧
      l.view.type? = (empty.registerFunctions calls).view.type? := by
  obtain ⟨types, hall, hfunctions⟩ := functions_ofConfig h
  refine ⟨(c.functions.entries.map Prod.fst).zip types, ?_, fun _ => exists_call hall, ?_⟩
  · apply List.map_fst_zip
    rw [List.length_map, hall.length_eq]
  · show l.functions.type? = _
    rw [hfunctions, registerFunctions_eq]
    rfl

/-! ## Clients of a configuration -/

/-- The clients of the ledger, in the order of the entries. -/
lemma map_clientOf (h : ofConfig c = .ok l) :
    c.clients.map clientOf = l.registry.clients.map Except.ok := by
  have hmap : c.clients.map clientOf = (l.registry.clients.map id).map Except.ok :=
    map_clients_ofConfig h fun _ _ hclient => hclient
  rwa [List.map_id] at hmap

/-! ## The answers -/

/-- A ledger answers with a configuration: every entry's key is found at its address, which no other
entry has, and none at other addresses; functions have the types that they are configured with, and
the others those whose own signatures they are; nothing is recorded. -/
structure Answers (l : Ledger) (c : Config) : Prop where
  key : ∀ entry ∈ c.clients, ∃ address key, Address.ofText entry.address = .ok address ∧
    VerificationKey.ofText entry.publicKey = .ok key ∧ l.view.key? address = some key
  nodup : (c.clients.map fun entry => Address.ofText entry.address).Nodup
  stranger : ∀ address, (∀ entry ∈ c.clients, Address.ofText entry.address ≠ .ok address) →
    l.view.key? address = none
  size : l.registry.size = c.clients.length
  configured : ∀ entry ∈ c.functions.entries, ∃ type, TransactionType.ofName entry.2 = .ok type ∧
    l.view.type? entry.1 = some type
  standard : ∀ signature, signature ∉ c.functions.entries.map Prod.fst →
    ∀ type, l.view.type? signature = some type ↔ type.contractSignature? = some signature
  replayed : ∀ text, l.view.isReplayed text = false
  seen : l.seen.size = 0

lemma answers_of_ofConfig (h : ofConfig c = .ok l) : l.Answers c := by
  have hclients := map_clientOf h
  obtain ⟨calls, hkeys, hcalls, htype⟩ := exists_calls h
  have hseen := seen_ofConfig h
  constructor
  case key =>
    intro entry hentry
    have hmem : clientOf entry ∈ l.registry.clients.map Except.ok :=
      hclients ▸ List.mem_map_of_mem hentry
    obtain ⟨client, hclient, hspelled⟩ := List.mem_map.mp hmem
    obtain ⟨-, haddress, hkey⟩ := clientOf_eq_ok_iff.mp hspelled.symm
    exact ⟨client.address, client.key, haddress, hkey,
      key?_eq_some_iff.mpr ⟨client, hclient, rfl, rfl⟩⟩
  case nodup => exact Config.nodup_addresses h
  case stranger =>
    intro address hnone
    by_contra hfound
    obtain ⟨key, hkey⟩ := Option.ne_none_iff_exists'.mp hfound
    obtain ⟨client, hclient, rfl, -⟩ := key?_eq_some_iff.mp hkey
    have hmem : Except.ok client ∈ c.clients.map clientOf :=
      hclients ▸ List.mem_map_of_mem hclient
    obtain ⟨entry, hentry, hspelled⟩ := List.mem_map.mp hmem
    exact hnone entry hentry (clientOf_eq_ok_iff.mp hspelled).2.1
  case size =>
    have hlength := congrArg List.length hclients
    rw [List.length_map, List.length_map] at hlength
    exact hlength.symm
  case configured =>
    intro entry hentry
    obtain ⟨type, hname, hmem⟩ := hcalls entry hentry
    refine ⟨type, hname, ?_⟩
    rw [htype]
    apply type?_registerFunctions_of_mem _ hmem
    rw [hkeys]
    exact c.functions.sorted.imp fun hlt => (String.ne_of_lt hlt)
  case standard =>
    intro signature hsignature type
    rw [htype, type?_registerFunctions_of_notMem (by rwa [hkeys])]
    exact FunctionTable.type?_standard_iff
  case replayed =>
    intro text
    show l.seen.contains text = false
    rw [hseen]
    rfl
  case seen =>
    rw [hseen]
    rfl

section Order

variable (hclients : c'.clients.Perm c.clients) (hfunctions : c'.functions = c.functions)

include hclients hfunctions

/-- The answers say all that an engine sees, whatever the order of the entries. -/
lemma Answers.view_eq (h : l.Answers c) (h' : l'.Answers c') : l'.view = l.view := by
  have hkey : l'.view.key? = l.view.key? := by
    funext address
    by_cases hknown : ∃ entry ∈ c.clients, Address.ofText entry.address = .ok address
    · obtain ⟨entry, hentry, haddress⟩ := hknown
      obtain ⟨_, key, hsame, hkey, hfound⟩ := h.key entry hentry
      obtain ⟨_, key', hsame', hkey', hfound'⟩ := h'.key entry (hclients.mem_iff.mpr hentry)
      obtain rfl := Except.ok.inj (haddress.symm.trans hsame)
      obtain rfl := Except.ok.inj (haddress.symm.trans hsame')
      rw [hfound, hfound', Except.ok.inj (hkey.symm.trans hkey')]
    · have hnone : ∀ entry ∈ c.clients, Address.ofText entry.address ≠ .ok address :=
        fun entry hentry haddress => hknown ⟨entry, hentry, haddress⟩
      rw [h.stranger address hnone,
        h'.stranger address fun entry hentry => hnone entry (hclients.mem_iff.mp hentry)]
  have htype : l'.view.type? = l.view.type? := by
    funext signature
    by_cases hmem : signature ∈ c.functions.entries.map Prod.fst
    · obtain ⟨entry, hentry, rfl⟩ := List.mem_map.mp hmem
      obtain ⟨type, hname, hfound⟩ := h.configured entry hentry
      obtain ⟨type', hname', hfound'⟩ := h'.configured entry (hfunctions ▸ hentry)
      rw [hfound, hfound', Except.ok.inj (hname.symm.trans hname')]
    · apply Option.ext
      intro type
      rw [h.standard signature hmem type, h'.standard signature (hfunctions ▸ hmem) type]
  have hreplayed : l'.view.isReplayed = l.view.isReplayed := by
    funext text
    rw [h.replayed, h'.replayed]
  show View.mk l'.view.key? l'.view.isReplayed l'.view.type? = l.view
  rw [hkey, htype, hreplayed]

/-- Entries in another order have a ledger too. -/
lemma Answers.exists_ofConfig (h : l.Answers c) : ∃ l', ofConfig c' = .ok l' := by
  -- Only the checks look at the settings of the node.
  have hlevel : Text.trim NodeSettings.standard.logLevel.toList ≠ [] := by decide
  have hchecks := @Config.checks_or_fails ⟨.standard, c'.clients, c'.functions⟩ hlevel
  obtain ⟨-, l', hl'⟩ | ⟨place, fault, error, hfault, -⟩ := hchecks
  · exact ⟨l', hl'⟩
  · exfalso
    cases hfault with
    | @client i entry _ _ hentry hcause =>
      have hmem : entry ∈ c.clients := hclients.mem_iff.mp (List.mem_of_getElem? hentry)
      obtain ⟨address, key, haddress, hkey, -⟩ := h.key entry hmem
      cases hcause with
      | address hnone => exact nomatch haddress.symm.trans hnone
      | key _ hnone => exact nomatch hkey.symm.trans hnone
      | @repeated address' _ other haddress' _ hother hsame =>
        have hnodup : (c'.clients.map fun entry => Address.ofText entry.address).Nodup :=
          (hclients.map _).nodup_iff.mpr h.nodup
        have hrest : entry ∈ c'.clients.drop i := by
          apply List.mem_of_getElem? (i := 0)
          rw [List.getElem?_drop]
          exact hentry
        rw [← List.take_append_drop i c'.clients, List.map_append, List.nodup_append] at hnodup
        exact hnodup.2.2 _ (List.mem_map_of_mem hother) _ (List.mem_map_of_mem hrest)
          (hsame.trans haddress'.symm)
    | typeName hentry hname =>
      obtain ⟨type, htype, -⟩ := h.configured _ (hfunctions ▸ List.mem_of_getElem? hentry)
      exact nomatch htype.symm.trans hname

end Order

/-- A ledger that is built from a configuration answers with it. Entries in another order, at a node
with whatever settings, have a ledger with the same answers. After any types are set for functions,
a function has the last type that was set for it, or the one it had if none was; and the clients and
what is recorded stay as they are. -/
theorem ofConfig_answers (h : ofConfig c = .ok l) :
    l.Answers c ∧
    (∀ c' : Config, c'.clients.Perm c.clients → c'.functions = c.functions →
      ∃ l', ofConfig c' = .ok l' ∧ l'.view = l.view ∧ l'.registry.size = l.registry.size) ∧
    ∀ calls : List (String × TransactionType),
      (∀ before signature type after, calls = before ++ (signature, type) :: after →
        signature ∉ after.map Prod.fst →
        (l.registerFunctions calls).view.type? signature = some type) ∧
      (∀ signature, signature ∉ calls.map Prod.fst →
        (l.registerFunctions calls).view.type? signature = l.view.type? signature) ∧
      (l.registerFunctions calls).view.key? = l.view.key? ∧
      (l.registerFunctions calls).registry = l.registry ∧
      (l.registerFunctions calls).seen = l.seen := by
  have hanswers := answers_of_ofConfig h
  refine ⟨hanswers, ?_, ?_⟩
  · intro c' hclients hfunctions
    obtain ⟨l', hl'⟩ := hanswers.exists_ofConfig hclients hfunctions
    have hanswers' := answers_of_ofConfig hl'
    refine ⟨l', hl', hanswers.view_eq hclients hfunctions hanswers', ?_⟩
    rw [hanswers.size, hanswers'.size, hclients.length_eq]
  · intro calls
    refine ⟨?_, fun _ => type?_registerFunctions_of_notMem, ?_, ?_, ?_⟩
    · rintro before signature type after rfl
      exact type?_registerFunctions_of_last
    · rw [registerFunctions_eq]
      rfl
    · rw [registerFunctions_eq]
    · rw [registerFunctions_eq]

/-- A configuration with a type for a function of the token contract, and its clients in the other
order. -/
theorem ofConfig_answers_of_override :
    let first : ClientEntry := ⟨1, "00000000000000000000000000000000000000ab", "02aa"⟩
    let second : ClientEntry := ⟨2, "0x00000000000000000000000000000000000000cd", "03aa"⟩
    let functions : FunctionNames := FunctionNames.empty.insert "totalSupply()" "BALANCE_OF"
    ∃ l l', ofConfig ⟨.standard, [first, second], functions⟩ = .ok l ∧
      ofConfig ⟨.standard, [second, first], functions⟩ = .ok l' ∧ l'.view = l.view ∧
      l.view.key? ⟨List.replicate 19 0 ++ [205], rfl⟩ = some ⟨[3, 170]⟩ ∧
      l.view.type? "totalSupply()" = some .balanceOf ∧
      (l.registerFunctions [("pay", .transfer), ("pay", .approve)]).view.type? "pay"
        = some .approve := by
  intro first second functions
  obtain ⟨l, hl⟩ := @exists_ofConfig ⟨.standard, [first, second], functions⟩ (by decide +kernel)
  obtain ⟨hanswers, horder, hcalls⟩ := ofConfig_answers hl
  obtain ⟨l', hl', hview, -⟩ :=
    horder ⟨.standard, [second, first], functions⟩ (List.Perm.swap ..) rfl
  obtain ⟨hlast, -⟩ := hcalls [("pay", .transfer), ("pay", .approve)]
  obtain ⟨address, key, haddress, hkey, hfound⟩ := hanswers.key second (by simp)
  obtain ⟨type, hname, htype⟩ := hanswers.configured ("totalSupply()", "BALANCE_OF") (by decide)
  have haddress' : Address.ofText second.address = .ok ⟨List.replicate 19 0 ++ [205], rfl⟩ := by
    decide +kernel
  have hkey' : VerificationKey.ofText second.publicKey = .ok ⟨[3, 170]⟩ := by decide +kernel
  have hname' : TransactionType.ofName "BALANCE_OF" = .ok .balanceOf := by decide
  obtain rfl := Except.ok.inj (haddress'.symm.trans haddress)
  obtain rfl := Except.ok.inj (hkey'.symm.trans hkey)
  obtain rfl := Except.ok.inj (hname'.symm.trans hname)
  exact ⟨l, l', hl, hl', hview, hfound, htype, hlast [("pay", .transfer)] _ _ [] rfl nofun⟩

end Ledger

end Admission
