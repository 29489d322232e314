import Admission.Proofs.Ledger.Replay

/-!
# Registrations one after the other

Of the clients that ask for one address, a registry takes the first and refuses the others, whatever
their numbers and keys. A registration puts its client behind what is found already
(`Registry.find?_attempt`), so after any number of them the first client of each address is found
(`Registry.find?_registerAll`), and there are as many clients as addresses. Nothing else that a
ledger is asked for registers or replaces a client (`Ledger.registry_after`).
-/

namespace Admission

/-! ## Answers to registrations -/

namespace Registry

variable {r : Registry} {c : Client}

/-- The answer to a registration, and the registry after it. -/
def attempt (r : Registry) (c : Client) : Except ConfigFault Unit × Registry :=
  match r.register c with
  | .ok r => (.ok (), r)
  | .error fault => (.error fault, r)

/-- The answers to registrations that are carried out one after the other, and the registry after
them. -/
def registerAll (r : Registry) : List Client → List (Except ConfigFault Unit) × Registry
  | [] => ([], r)
  | c :: rest => ((r.attempt c).1 :: ((r.attempt c).2.registerAll rest).1,
      ((r.attempt c).2.registerAll rest).2)

/-- Registrations are carried on with the registry that the ones before them leave. -/
lemma registerAll_append (r : Registry) (before after : List Client) :
    r.registerAll (before ++ after)
      = ((r.registerAll before).1 ++ ((r.registerAll before).2.registerAll after).1,
          ((r.registerAll before).2.registerAll after).2) := by
  induction before generalizing r with
  | nil => rfl
  | cons first rest ih =>
    rw [List.cons_append, registerAll, ih]
    rfl

/-- Every registration is answered. -/
lemma length_registerAll (r : Registry) (calls : List Client) :
    (r.registerAll calls).1.length = calls.length := by
  induction calls generalizing r with
  | nil => rfl
  | cons c rest ih => exact congrArg Nat.succ (ih _)

/-! ## One registration -/

/-- A client is refused for an address that is taken, and nothing changes. -/
lemma attempt_of_mem (h : c.address ∈ r.clients.map Client.address) :
    r.attempt c = (.error (.repeatedAddress c.address), r) := by
  rw [attempt, register, dif_pos h]

/-- A client is taken at an address that is free. -/
lemma attempt_of_notMem (h : c.address ∉ r.clients.map Client.address) :
    ∃ r', r.register c = .ok r' ∧ r.attempt c = (.ok (), r') := by
  obtain ⟨r', hr'⟩ : ∃ r', r.register c = .ok r' := by
    rw [register, dif_neg h]
    exact ⟨_, rfl⟩
  exact ⟨r', hr', by rw [attempt, hr']⟩

/-- What is found is found after a registration too, and where nobody is found, the new client may
be. -/
theorem find?_attempt (r : Registry) (c : Client) (address : Address) :
    (r.attempt c).2.find? address = (r.find? address).or ([c].find? fun d => d.address = address) := by
  by_cases htaken : c.address ∈ r.clients.map Client.address
  · rw [attempt_of_mem htaken]
    by_cases hown : c.address = address
    · obtain ⟨holder, hholder⟩ := Option.isSome_iff_exists.mp ((r.isSome_find? c.address).mpr htaken)
      rw [← hown, hholder, Option.some_or]
    · rw [List.find?_singleton, if_neg (by simpa using hown), Option.or_none]
  · obtain ⟨r', hr', hattempt⟩ := attempt_of_notMem htaken
    rw [hattempt, find?_register hr']
    by_cases hown : c.address = address
    · have hnobody : r.find? address = none := by
        rw [← Option.not_isSome_iff_eq_none, isSome_find?, ← hown]
        exact htaken
      rw [if_pos hown, hnobody, List.find?_singleton, if_pos (by simpa using hown), Option.none_or]
    · rw [if_neg hown, List.find?_singleton, if_neg (by simpa using hown), Option.or_none]

/-! ## Registrations in a row -/

/-- What is found stays found, and where nobody was found, the first of the new clients is. -/
theorem find?_registerAll (r : Registry) (calls : List Client) (address : Address) :
    (r.registerAll calls).2.find? address
      = (r.find? address).or (calls.find? fun c => c.address = address) := by
  induction calls generalizing r with
  | nil => exact Option.or_none.symm
  | cons c rest ih =>
    rw [registerAll, ih, find?_attempt, Option.or_assoc, ← List.find?_append]
    rfl

/-- After registrations at the empty registry, the addresses that were asked for are taken. -/
lemma mem_addresses_registerAll_iff {calls : List Client} {address : Address} :
    address ∈ (empty.registerAll calls).2.clients.map Client.address ↔
      address ∈ calls.map Client.address := by
  have hnobody : empty.find? address = none := rfl
  rw [← isSome_find?, find?_registerAll, hnobody, Option.none_or, List.find?_isSome, List.mem_map]
  simp only [decide_eq_true_eq]

/-- There are as many clients as addresses that were asked for. -/
lemma size_registerAll (calls : List Client) :
    (empty.registerAll calls).2.size = (calls.map Client.address).toFinset.card := by
  have hsame : (calls.map Client.address).toFinset
      = ((empty.registerAll calls).2.clients.map Client.address).toFinset := by
    ext address
    rw [List.mem_toFinset, List.mem_toFinset, mem_addresses_registerAll_iff]
  rw [hsame, List.toFinset_card_of_nodup (empty.registerAll calls).2.nodup, List.length_map, size]

end Registry

/-! ## Ledgers -/

/-- The client that a request asks to register. -/
def Request.client? : Request → Option Client
  | .registerClient client => some client
  | _ => none

namespace Ledger

/-- A request changes the clients of a ledger as its registration does, if it is one. -/
lemma registry_perform (l : Ledger) (request : Request) :
    (l.perform request).2.registry = (l.registry.registerAll request.client?.toList).2 := by
  cases request with
  | registerClient client =>
    show _ = (l.registry.attempt client).2
    rw [perform, registerClient, Registry.attempt]
    cases l.registry.register client <;> rfl
  | registerFunction signature type => rfl
  | validate v manager tx => rfl
  | isValid v manager tx => rfl
  | submit v manager tx =>
    rw [perform]
    cases hverdict : v.validate l.view manager tx with
    | error reason => rw [submit_of_error hverdict]; rfl
    | ok type =>
      obtain ⟨text, -, -, hsubmit⟩ := submit_of_ok hverdict
      rw [hsubmit]
      rfl

/-- The clients of a ledger are those of the registrations among the requests. -/
theorem registry_after (l : Ledger) (requests : List Request) :
    (l.after requests).registry
      = (l.registry.registerAll (requests.filterMap Request.client?)).2 := by
  induction requests generalizing l with
  | nil => rfl
  | cons request rest ih =>
    show ((l.perform request).2.after rest).registry = _
    rw [ih, registry_perform, List.filterMap_cons]
    cases request.client? <;> rfl

end Ledger

/-! ## First come, first served -/

namespace Registry

/-- The answer to one of several registrations is that of the registry which the ones before it
leave. -/
lemma getElem?_registerAll (r : Registry) (before later : List Client) (c : Client) :
    (r.registerAll (before ++ c :: later)).1[before.length]?
      = some ((r.registerAll before).2.attempt c).1 := by
  rw [registerAll_append, List.getElem?_append_right (length_registerAll ..).le,
    length_registerAll, Nat.sub_self]
  rfl

/-- After registrations at the empty registry, the client at an address is the first one that asked
for it, every client is found at its own address and no other, and there are as many clients as
addresses. Each registration is answered: it succeeds exactly if nobody before it asked for its
address, and if it fails, for the address that is taken, the registry stays as it is. The clients of
a ledger are the same, whatever else it is asked for between the registrations. -/
theorem registerAll_holds_first (calls : List Client) :
    let r := (empty.registerAll calls).2
    (∀ address, r.find? address = calls.find? fun c => c.address = address) ∧
    (∀ address c, r.find? address = some c ↔ c ∈ r.clients ∧ c.address = address) ∧
    r.size = (calls.map Client.address).toFinset.card ∧
    (empty.registerAll calls).1.length = calls.length ∧
    (∀ before c later, calls = before ++ c :: later →
      let answer := (empty.registerAll calls).1[before.length]?
      (answer = some (.ok ()) ↔ c.address ∉ before.map Client.address) ∧
      ∀ fault, answer = some (.error fault) →
        (Error.config fault).kind = "ConfigError" ∧ fault = .repeatedAddress c.address ∧
        (empty.registerAll (before ++ [c])).2 = (empty.registerAll before).2) ∧
    ∀ requests, requests.filterMap Request.client? = calls →
      (Ledger.empty.after requests).registry = r := by
  intro r
  refine ⟨fun address => ?_, fun address c => find?_eq_some_iff, size_registerAll calls,
    length_registerAll empty calls, ?_, ?_⟩
  · exact find?_registerAll empty calls address
  · rintro before c later rfl
    dsimp only
    rw [getElem?_registerAll, ← mem_addresses_registerAll_iff]
    by_cases htaken : c.address ∈ (empty.registerAll before).2.clients.map Client.address
    · have hattempt := attempt_of_mem htaken
      rw [hattempt]
      refine ⟨iff_of_false nofun (not_not.mpr htaken), fun fault hfault => ?_⟩
      injection hfault with hfault
      injection hfault with hfault
      refine ⟨rfl, hfault.symm, ?_⟩
      rw [registerAll_append]
      show ((empty.registerAll before).2.attempt c).2 = _
      rw [hattempt]
    · obtain ⟨r', -, hattempt⟩ := attempt_of_notMem htaken
      rw [hattempt]
      exact ⟨iff_of_true rfl htaken, fun fault hfault => nomatch hfault⟩
  · rintro requests rfl
    exact Ledger.registry_after .empty requests

/-- Two clients, and then another number and key for the address of the first. -/
theorem registerAll_holds_first_of_rival :
    let first : Client := ⟨1, .zero, ⟨[2, 170]⟩⟩
    let second : Client := ⟨2, ⟨List.replicate 20 255, rfl⟩, ⟨[2, 170]⟩⟩
    let rival : Client := ⟨3, .zero, ⟨[3, 204]⟩⟩
    let run := empty.registerAll [first, second, rival]
    run.2.find? .zero = some first ∧ run.2.size = 2 ∧
      run.1[2]? = some (.error (.repeatedAddress .zero)) ∧
      run.2 = (empty.registerAll [first, second]).2 ∧
      (Ledger.empty.after [.registerClient first, .registerFunction "mint()" .transfer,
        .registerClient second, .registerClient rival]).registry = run.2 := by
  intro first second rival run
  obtain ⟨hfind, -, hsize, -, hanswers, hledger⟩ :=
    registerAll_holds_first [first, second, rival]
  obtain ⟨-, hrefused⟩ := hanswers [first, second] rival [] rfl
  have hanswer : run.1[2]? = some (.error (.repeatedAddress .zero)) := by decide
  have haddresses : ([first, second, rival].map Client.address).toFinset.card = 2 := by decide
  obtain ⟨-, -, hsame⟩ := hrefused _ hanswer
  exact ⟨hfind .zero, hsize.trans haddresses, hanswer, hsame, hledger _ rfl⟩

end Registry

end Admission
