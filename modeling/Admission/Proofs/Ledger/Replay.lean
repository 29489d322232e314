import Admission.Proofs.Ledger.Configured
import Admission.Proofs.Ledger.Gates

/-!
# Replays over whole runs

A run asks a ledger for any requests, one after the other, with validators and key managers of their
own. Each accepted admission adds the text of its signature to what the ledger has accepted, and no
other request adds anything (`Ledger.perform_of_accepted`, `Ledger.seen_perform`). So at every point
of a run the ledger remembers exactly the signatures that were accepted up to there
(`Ledger.remembers_after`), and turns down what it remembers. An accepted transaction was submitted,
its signature was verified, and from then on it is recorded (`Ledger.exists_of_mem_accepted`).
-/

namespace Admission

open Admission.Text

/-! ## Requests -/

/-- What a ledger can be asked for. -/
inductive Request where
  | registerClient (client : Client)
  | registerFunction (signature : String) (type : TransactionType)
  | validate (v : Validator) (manager : KeyManager) (tx : Transaction)
  | isValid (v : Validator) (manager : KeyManager) (tx : Transaction)
  | submit (v : Validator) (manager : KeyManager) (tx : Transaction)

/-- What a request is answered. -/
inductive Answer where
  | registration (result : Except ConfigFault Unit)
  | functionSet
  | verdict (result : Except Rejection TransactionType)
  | validity (result : Bool)

/-- The transaction that a request had accepted, if that is its answer. -/
def Request.accepted? : Request → Answer → Option Transaction
  | .submit _ _ tx, .verdict (.ok _) => some tx
  | _, _ => none

namespace Ledger

/-- The answer to a request, and the ledger after it. -/
def perform (l : Ledger) : Request → Answer × Ledger
  | .registerClient client => match l.registerClient client with
    | .ok l => (.registration (.ok ()), l)
    | .error fault => (.registration (.error fault), l)
  | .registerFunction signature type => (.functionSet, l.registerFunction signature type)
  | .validate v manager tx => (.verdict (v.validate l.view manager tx), l)
  | .isValid v manager tx => (.validity (v.isValid l.view manager tx), l)
  | .submit v manager tx => ((.verdict (l.submit v manager tx).1), (l.submit v manager tx).2)

/-- The ledger after requests. -/
def after (l : Ledger) (requests : List Request) : Ledger :=
  requests.foldl (fun l request => (l.perform request).2) l

/-- The transactions that requests had accepted, in order. -/
def accepted (l : Ledger) : List Request → List Transaction
  | [] => []
  | request :: rest =>
    (request.accepted? (l.perform request).1).toList ++ (l.perform request).2.accepted rest

/-! ## One request -/

variable {l : Ledger} {request : Request}

lemma seen_registerClient {l' : Ledger} {client : Client} (h : l.registerClient client = .ok l') :
    l'.seen = l.seen := by
  obtain ⟨registry, -, rfl⟩ := registerClient_eq_ok_iff.mp h
  rfl

/-- A request that had nothing accepted leaves what the ledger remembers as it was. -/
theorem seen_perform (h : request.accepted? (l.perform request).1 = none) :
    (l.perform request).2.seen = l.seen := by
  cases request with
  | registerClient client =>
    simp only [perform]
    cases hregistered : l.registerClient client with
    | error fault => rfl
    | ok l' => exact seen_registerClient hregistered
  | registerFunction signature type => rfl
  | validate v manager tx => rfl
  | isValid v manager tx => rfl
  | submit v manager tx =>
    rw [perform] at h ⊢
    cases hverdict : v.validate l.view manager tx with
    | error reason => rw [submit_of_error hverdict]
    | ok type =>
      rw [submit_fst, hverdict] at h
      exact nomatch h

/-- A request that had a transaction accepted adds its signature, which was not there before. -/
theorem perform_of_accepted {tx : Transaction}
    (h : request.accepted? (l.perform request).1 = some tx) :
    ∃ text, tx.signatureText? = some text ∧
      (l.perform request).2.seen.texts = text :: l.seen.texts := by
  cases request with
  | registerClient client => exact nomatch h
  | registerFunction signature type => exact nomatch h
  | validate v manager tx => exact nomatch h
  | isValid v manager tx => exact nomatch h
  | submit v manager tx' =>
    rw [perform] at h ⊢
    cases hverdict : v.validate l.view manager tx' with
    | error reason =>
      rw [submit_of_error hverdict] at h
      exact nomatch h
    | ok type =>
      obtain ⟨text, htext, hnew, hsubmit⟩ := submit_of_ok hverdict
      rw [submit_fst, hverdict] at h
      injection h with h
      rw [← h, hsubmit]
      exact ⟨text, htext, ReplaySet.texts_insert_of_not_contains hnew⟩

/-! ## Runs of requests -/

/-- The ledger remembers the signatures of these transactions, and nothing else, the latest first.
-/
def Holds (l : Ledger) (txs : List Transaction) : Prop :=
  txs.map Transaction.signatureText? = l.seen.texts.reverse.map some

/-- What a ledger holds after a request is what it held before, and what the request had accepted.
-/
lemma holds_perform {before : List Transaction} (h : l.Holds before) (request : Request) :
    (l.perform request).2.Holds (before ++ (request.accepted? (l.perform request).1).toList) := by
  rw [Holds] at h ⊢
  cases haccepted : request.accepted? (l.perform request).1 with
  | none => rw [seen_perform haccepted, Option.toList_none, List.append_nil, h]
  | some tx =>
    obtain ⟨text, htext, htexts⟩ := perform_of_accepted haccepted
    rw [htexts, Option.toList_some, List.map_append, List.map_singleton, h, htext,
      List.reverse_cons, List.map_append, List.map_singleton]

/-- The induction over a run: the requests that came before are held already. -/
lemma holds_after {before : List Transaction} (h : l.Holds before) (requests : List Request) :
    (l.after requests).Holds (before ++ l.accepted requests) := by
  induction requests generalizing l before with
  | nil => rwa [accepted, List.append_nil]
  | cons request rest ih =>
    rw [accepted, ← List.append_assoc]
    exact ih (holds_perform h request)

/-- The signatures that a ledger remembers are those of these transactions, each of one of them. -/
structure Remembers (l : Ledger) (txs : List Transaction) : Prop where
  contains_iff : ∀ text, l.seen.contains text = true ↔ ∃ tx ∈ txs, tx.signatureText? = some text
  size_eq : l.seen.size = txs.length
  nodup : (txs.map Transaction.signature).Nodup
  signed : ∀ tx ∈ txs, tx.isSigned = true

lemma Holds.remembers {txs : List Transaction} (h : l.Holds txs) : l.Remembers txs where
  contains_iff text := by
    have hmem : (∃ tx ∈ txs, tx.signatureText? = some text) ↔
        some text ∈ txs.map Transaction.signatureText? := by
      rw [List.mem_map]
    rw [hmem, h, List.mem_map_of_injective (Option.some_injective _), List.mem_reverse,
      ReplaySet.contains, decide_eq_true_eq]
  size_eq := by
    have hlength := congrArg List.length h
    rw [List.length_map, List.length_map, List.length_reverse] at hlength
    exact hlength.symm
  nodup := by
    -- Texts that differ are of signatures that differ.
    have htexts : (txs.map Transaction.signatureText?).Nodup := by
      rw [h]
      exact (List.nodup_reverse.mpr l.seen.nodup).map (Option.some_injective _)
    have hmap : txs.map Transaction.signatureText?
        = (txs.map Transaction.signature).map
            (Option.map fun bytes => String.ofList (Base64.encode bytes)) := by
      rw [List.map_map]
      rfl
    rw [hmap] at htexts
    exact htexts.of_map _
  signed tx htx := by
    have hmem : tx.signatureText? ∈ l.seen.texts.reverse.map some := by
      rw [← h]
      exact List.mem_map_of_mem htx
    obtain ⟨text, -, htext⟩ := List.mem_map.mp hmem
    exact Transaction.exists_signatureText?_iff.mp ⟨text, htext.symm⟩

/-- At every point of a run from a ledger that remembers nothing, the ledger remembers what was
accepted up to there. -/
theorem remembers_after (hempty : l.seen = .empty) (requests : List Request) :
    (l.after requests).Remembers (l.accepted requests) := by
  have hstart : l.Holds [] := by
    rw [Holds, hempty]
    rfl
  exact (holds_after hstart requests).remembers

/-! ## What is accepted stays recorded -/

variable {requests : List Request} {text : String}

/-- No request makes the ledger forget a signature. -/
lemma contains_perform (h : l.seen.contains text = true) (request : Request) :
    (l.perform request).2.seen.contains text = true := by
  cases haccepted : request.accepted? (l.perform request).1 with
  | none => rwa [seen_perform haccepted]
  | some tx =>
    obtain ⟨own, -, htexts⟩ := perform_of_accepted haccepted
    unfold ReplaySet.contains at h ⊢
    rw [htexts]
    exact decide_eq_true (List.mem_cons_of_mem own (of_decide_eq_true h))

/-- No run makes the ledger forget a signature. -/
lemma contains_after (h : l.seen.contains text = true) (requests : List Request) :
    (l.after requests).seen.contains text = true := by
  induction requests generalizing l with
  | nil => exact h
  | cons request rest ih => exact ih (contains_perform h request)

/-- A request that had a transaction accepted was its submission, and the transaction passed the
gates. -/
lemma submitted_of_accepted {tx : Transaction}
    (h : request.accepted? (l.perform request).1 = some tx) :
    ∃ v manager type, request = .submit v manager tx ∧
      v.validate l.view manager tx = .ok type := by
  cases request with
  | registerClient client => cases h
  | registerFunction signature type => cases h
  | validate v manager tx => cases h
  | isValid v manager tx => cases h
  | submit v manager tx' =>
    rw [perform] at h
    cases hverdict : v.validate l.view manager tx' with
    | error reason =>
      rw [submit_of_error hverdict] at h
      cases h
    | ok type =>
      rw [submit_fst, hverdict] at h
      injection h with h
      subst h
      exact ⟨v, manager, type, rfl, hverdict⟩

/-- A transaction that a run has accepted was submitted, its signature was verified, and it is
recorded at the end of the run. -/
lemma exists_of_mem_accepted {tx : Transaction} (h : tx ∈ l.accepted requests) :
    ∃ v manager payload bytes key, Request.submit v manager tx ∈ requests ∧
      tx.signature = some bytes ∧ manager.verify payload bytes key = .ok true ∧
      (l.after requests).seen.contains (String.ofList (Base64.encode bytes)) = true := by
  induction requests generalizing l with
  | nil => cases h
  | cons request rest ih =>
    rw [accepted, List.mem_append, Option.mem_toList] at h
    rcases h with hnow | hlater
    · obtain ⟨v, manager, type, rfl, hok⟩ := submitted_of_accepted hnow
      obtain ⟨key, bytes, payload, -, hbytes, -, -, hverify, -⟩ :=
        Validator.validate_eq_ok_iff.mp hok
      obtain ⟨own, hown, htexts⟩ := perform_of_accepted hnow
      have htext := Transaction.signatureText?_eq_some_iff.mpr hbytes
      rw [hown] at htext
      injection htext with htext
      have hrecorded : (l.perform (.submit v manager tx)).2.seen.contains
          (String.ofList (Base64.encode bytes)) = true := by
        unfold ReplaySet.contains
        rw [htexts, ← htext]
        exact decide_eq_true List.mem_cons_self
      exact ⟨v, manager, payload, bytes, key, List.mem_cons_self, hbytes, hverify,
        contains_after hrecorded rest⟩
    · obtain ⟨v, manager, payload, bytes, key, hmem, hsigned⟩ := ih hlater
      exact ⟨v, manager, payload, bytes, key, List.mem_cons_of_mem _ hmem, hsigned⟩

/-! ## The run as a whole -/

/-- At every point of a run that starts from the empty ledger, the ledger of a configuration, or any
other ledger that has accepted nothing: the ledger remembers exactly what was accepted up to there,
each signature once; a client's signed transaction is turned down as a replay exactly if its
signature was accepted; only an accepted admission changes what is remembered; and what passes the
gates is recorded, never turned down after all. -/
theorem replay_invariant :
    Ledger.empty.seen = .empty ∧
    (∀ config l, Ledger.ofConfig config = .ok l → l.seen = .empty) ∧
    ∀ (start : Ledger) (requests : List Request), start.seen = .empty →
      let l := start.after requests
      let txs := start.accepted requests
      l.Remembers txs ∧
      (∀ (v : Validator) (manager : KeyManager) (tx : Transaction) (bytes : List UInt8),
        tx.signature = some bytes → (l.registry.find? tx.sender).isSome = true →
          ((l.perform (.validate v manager tx)).1 = .verdict (.error .replayed) ↔
            ∃ other ∈ txs, other.signature = some bytes) ∧
          ((l.perform (.submit v manager tx)).1 = .verdict (.error .replayed) ↔
            ∃ other ∈ txs, other.signature = some bytes)) ∧
      (∀ request, request.accepted? (l.perform request).1 = none →
        (l.perform request).2.seen = l.seen) ∧
      ∀ (v : Validator) (manager : KeyManager) (tx : Transaction) (type : TransactionType),
        v.validate l.view manager tx = .ok type →
          ∃ text, tx.signatureText? = some text ∧ (l.record text).1 = true ∧
            l.submit v manager tx = (.ok type, (l.record text).2) := by
  refine ⟨rfl, fun config l h => seen_ofConfig h, ?_⟩
  intro start requests hempty l txs
  have hremembers : l.Remembers txs := remembers_after hempty requests
  refine ⟨hremembers, ?_, fun request h => seen_perform h, ?_⟩
  · intro v manager tx bytes hbytes hsender
    have htext := Transaction.signatureText?_eq_some_iff.mpr hbytes
    have hkey : (l.view.key? tx.sender).isSome = true := by
      show ((l.registry.find? tx.sender).map Client.key).isSome = true
      rwa [Option.isSome_map]
    have hreplayed : v.validate l.view manager tx = .error .replayed ↔
        ∃ other ∈ txs, other.signature = some bytes := by
      rw [Validator.validate_eq_replayed_iff, replays_view hkey htext, hremembers.contains_iff]
      simp only [Transaction.signatureText?_eq_some_iff]
    have hverdict : ∀ verdict : Except Rejection TransactionType,
        Answer.verdict verdict = .verdict (.error .replayed) ↔ verdict = .error .replayed := by
      intro verdict
      rw [Answer.verdict.injEq]
    refine ⟨(hverdict _).trans hreplayed, ?_⟩
    rw [perform, hverdict, submit_fst]
    exact hreplayed
  · intro v manager tx type hok
    obtain ⟨text, htext, hnew, hsubmit⟩ := submit_of_ok hok
    refine ⟨text, htext, ?_, hsubmit⟩
    rw [record, hnew, Bool.not_false]

/-- A client's query of its balance is accepted once; sent again under another number and for
another account, its signature is turned down. -/
theorem replay_invariant_balance :
    let tx : Transaction := { Transaction.native 1 .zero (some .zero) .nativeBalance none with
      signature := some [1, 2, 3] }
    let again : Transaction := { tx with id := 2, operation := .native .balanceOf }
    let manager : KeyManager := ⟨fun _ _ _ => .ok true⟩
    let requests : List Request :=
      [.registerClient ⟨1, .zero, ⟨[]⟩⟩, .submit ⟨.legacy⟩ manager tx]
    let l := Ledger.empty.after requests
    Ledger.empty.seen = .empty ∧ Ledger.empty.accepted requests = [tx] ∧
      again.signature = some [1, 2, 3] ∧ (l.registry.find? again.sender).isSome = true ∧
      (l.perform (.submit ⟨.legacy⟩ manager again)).1 = .verdict (.error .replayed) := by
  intro tx again manager requests l
  have haccepted : Ledger.empty.accepted requests = [tx] := by rfl
  have hsender : (l.registry.find? again.sender).isSome = true := by rfl
  obtain ⟨-, hreplayed, -⟩ := replay_invariant.2.2 .empty requests rfl
  obtain ⟨-, hsubmit⟩ := hreplayed ⟨.legacy⟩ manager again [1, 2, 3] rfl hsender
  refine ⟨rfl, haccepted, rfl, hsender, hsubmit.mpr ⟨tx, ?_, rfl⟩⟩
  rw [haccepted]
  exact List.mem_singleton_self tx

end Ledger

end Admission
