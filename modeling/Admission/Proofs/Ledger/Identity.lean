import Admission.Proofs.Ledger.Replay

/-!
# Transactions that are the same

A signed transaction has an identity, its number and its signature, and an unsigned one has none.
Two transactions are the same if they have one identity (`Transaction.same_iff`), so being the same
is symmetric and transitive, and only signed transactions are the same as themselves. The ledger
knows signatures by their texts, which tell them apart. So once a transaction is accepted, whatever
is the same as it comes no further than to the replay gate (`Ledger.perform_of_recorded`), for as
long as the ledger runs (`Ledger.same_never_again`).
-/

namespace Admission

/-! ## Identities -/

namespace Transaction

variable {a b c : Transaction}

/-- The number and the signature of a signed transaction. -/
def identity? (tx : Transaction) : Option (UInt64 × List UInt8) :=
  tx.signature.map (tx.id, ·)

lemma isSome_identity? (tx : Transaction) : tx.identity?.isSome = tx.isSigned := by
  rw [identity?, Option.isSome_map, isSigned]

/-- Transactions are the same if they have one identity. -/
theorem same_iff : a.same b = true ↔ ∃ i, a.identity? = some i ∧ b.identity? = some i := by
  unfold same identity?
  cases a.signature with
  | none => simp
  | some x =>
    cases b.signature with
    | none => simp
    | some y =>
      simp only [Option.map_some, Option.some.injEq, exists_eq_left', Prod.mk.injEq,
        Bool.and_eq_true, beq_iff_eq, eq_comm (a := b.id), eq_comm (a := y)]

/-- Transactions with one identity have the same number, and signatures with the same text. -/
theorem same_iff_signatureText? : a.same b = true ↔
    a.isSigned = true ∧ b.isSigned = true ∧ a.id = b.id ∧
      a.signatureText? = b.signatureText? := by
  rw [signatureText?_inj]
  unfold same isSigned
  cases a.signature with
  | none => simp
  | some x => cases b.signature <;> simp

lemma same_comm (a b : Transaction) : a.same b = b.same a := by
  rw [Bool.eq_iff_iff, same_iff, same_iff]
  simp only [and_comm]

lemma same_trans (hab : a.same b = true) (hbc : b.same c = true) : a.same c = true := by
  obtain ⟨i, ha, hb⟩ := same_iff.mp hab
  obtain ⟨j, hb', hc⟩ := same_iff.mp hbc
  obtain rfl : i = j := Option.some.inj (hb.symm.trans hb')
  exact same_iff.mpr ⟨i, ha, hc⟩

lemma same_self (tx : Transaction) : tx.same tx = tx.isSigned := by
  rw [Bool.eq_iff_iff, same_iff, ← isSome_identity?, Option.isSome_iff_exists]
  simp only [and_self]

end Transaction

/-! ## Recorded signatures -/

namespace Ledger

variable {l : Ledger} {tx : Transaction} {text : String}

/-- Why a transaction with a recorded signature is turned down: its sender is looked for first. -/
def repeatReason (l : Ledger) (tx : Transaction) : Rejection :=
  if (l.view.key? tx.sender).isSome then .replayed else .unknownSender tx.sender

/-- A transaction with a recorded signature does not come past the replay gate. -/
lemma validate_of_recorded (htext : tx.signatureText? = some text)
    (hrecorded : l.seen.contains text = true) (v : Validator) (manager : KeyManager) :
    v.validate l.view manager tx = .error (l.repeatReason tx) := by
  unfold repeatReason
  cases hkey : l.view.key? tx.sender with
  | none =>
    unfold Validator.validate
    rw [hkey]
    rfl
  | some key =>
    have hclient : (l.view.key? tx.sender).isSome = true := Option.isSome_of_eq_some hkey
    apply Validator.validate_eq_replayed_iff.mpr
    rw [replays_view hclient htext, hrecorded]

/-- No request has a transaction with a recorded signature accepted, and none of these changes the
ledger. -/
theorem perform_of_recorded (htext : tx.signatureText? = some text)
    (hrecorded : l.seen.contains text = true) (v : Validator) (manager : KeyManager) :
    l.perform (.validate v manager tx) = (.verdict (.error (l.repeatReason tx)), l) ∧
    l.perform (.isValid v manager tx) = (.validity false, l) ∧
    l.perform (.submit v manager tx) = (.verdict (.error (l.repeatReason tx)), l) := by
  have hverdict := validate_of_recorded htext hrecorded v manager
  refine ⟨?_, ?_, ?_⟩
  · rw [perform, hverdict]
  · rw [perform, Validator.isValid, hverdict]
    rfl
  · rw [perform, submit_of_error hverdict]

/-! ## Accepted once -/

/-- Transactions are the same if both are signed, under one number and with signatures of one text;
this is symmetric and transitive, and a transaction is the same as itself if it is signed. Once a
transaction was accepted in a run, a transaction that is the same as it, whatever else it says, is
valid at no later point of the run, and is turned down by every request: as a replay, or if its
sender is no client, for that. -/
theorem same_never_again :
    (∀ a b : Transaction, a.same b = true ↔ a.isSigned = true ∧ b.isSigned = true ∧ a.id = b.id ∧
      a.signatureText? = b.signatureText?) ∧
    (∀ a b : Transaction, a.same b = b.same a) ∧
    (∀ a b c : Transaction, a.same b = true → b.same c = true → a.same c = true) ∧
    (∀ tx : Transaction, tx.same tx = tx.isSigned) ∧
    ∀ (start : Ledger) (requests : List Request) (a b : Transaction),
      a ∈ start.accepted requests → a.same b = true →
      let l := start.after requests
      ∀ (v : Validator) (manager : KeyManager),
        l.perform (.validate v manager b) = (.verdict (.error (l.repeatReason b)), l) ∧
        l.perform (.isValid v manager b) = (.validity false, l) ∧
        l.perform (.submit v manager b) = (.verdict (.error (l.repeatReason b)), l) := by
  refine ⟨fun _ _ => Transaction.same_iff_signatureText?, Transaction.same_comm,
    fun _ _ _ => Transaction.same_trans, Transaction.same_self, ?_⟩
  intro start requests a b ha hsame l v manager
  obtain ⟨-, -, -, bytes, -, -, hbytes, -, hrecorded⟩ := exists_of_mem_accepted ha
  obtain ⟨-, -, -, htexts⟩ := Transaction.same_iff_signatureText?.mp hsame
  rw [Transaction.signatureText?_eq_some_iff.mpr hbytes] at htexts
  exact perform_of_recorded htexts.symm hrecorded v manager

/-- A client's query of its balance is accepted. Sent again by a stranger, or as another query, it
is turned down, also after another client is registered. -/
theorem same_never_again_balance :
    let tx : Transaction := { Transaction.native 1 .zero (some .zero) .nativeBalance none with
      signature := some [1, 2, 3] }
    let stranger : Transaction := { tx with sender := ⟨List.replicate 20 255, rfl⟩ }
    let other : Transaction := { tx with operation := .native .balanceOf }
    let manager : KeyManager := ⟨fun _ _ _ => .ok true⟩
    let requests : List Request :=
      [.registerClient ⟨1, .zero, ⟨[]⟩⟩, .submit ⟨.legacy⟩ manager tx,
        .registerClient ⟨2, ⟨List.replicate 20 1, rfl⟩, ⟨[]⟩⟩]
    let l := Ledger.empty.after requests
    Ledger.empty.accepted requests = [tx] ∧ tx.same other = true ∧ other.same stranger = true ∧
      tx.same stranger = true ∧
      l.perform (.submit ⟨.legacy⟩ manager other) = (.verdict (.error .replayed), l) ∧
      l.perform (.submit ⟨.legacy⟩ manager stranger)
        = (.verdict (.error (.unknownSender stranger.sender)), l) := by
  intro tx stranger other manager requests l
  have haccepted : Ledger.empty.accepted requests = [tx] := by rfl
  have hmem : tx ∈ Ledger.empty.accepted requests := by
    rw [haccepted]
    exact List.mem_singleton_self tx
  obtain ⟨-, -, htrans, -, hnever⟩ := same_never_again
  have hother : tx.same other = true := by decide
  have hstranger : other.same stranger = true := by decide
  have hsame := htrans tx other stranger hother hstranger
  exact ⟨haccepted, hother, hstranger, hsame,
    (hnever .empty requests tx other hmem hother ⟨.legacy⟩ manager).2.2,
    (hnever .empty requests tx stranger hmem hsame ⟨.legacy⟩ manager).2.2⟩

end Ledger

end Admission
