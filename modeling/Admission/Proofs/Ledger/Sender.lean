import Admission.Proofs.Ledger.Agreement

/-!
# Whose signature it is

A payload does not say who sent it. What ties a signature to its sender is the key that the ledger
holds for the sender's address: the signature has to fit that key. So it tells the sender from all
other clients if each of them has a key of its own, and only then: clients with one key can send
each other's transactions (`Config.provesSender_iff`).
-/

namespace Admission

/-- No signature of a payload fits two keys. -/
def KeyManager.Exclusive (manager : KeyManager) : Prop :=
  ∀ payload signature key key', manager.verify payload signature key = .ok true →
    manager.verify payload signature key' = .ok true → key = key'

namespace Ledger

/-- Where no signature fits two keys, admissible transactions that differ in the sender at most have
one sender. -/
def ProvesSender (l : Ledger) (scheme : SigningScheme) : Prop :=
  ∀ manager : KeyManager, manager.Exclusive → ∀ a b : Transaction,
    b = { a with sender := b.sender } → ∀ type type' : TransactionType,
    (Validator.mk scheme).validate l.view manager a = .ok type →
    (Validator.mk scheme).validate l.view manager b = .ok type' → a.sender = b.sender

variable {l : Ledger} {scheme : SigningScheme}

/-- Where each client has a key of its own, the key tells the sender. -/
lemma provesSender_of_nodup (hkeys : (l.registry.clients.map Client.key).Nodup) :
    l.ProvesSender scheme := by
  intro manager hexclusive a b hsame type type' ha hb
  obtain ⟨key, bytes, payload, hkey, hbytes, -, hpayload, hverify, -⟩ :=
    Validator.validate_eq_ok_iff.mp ha
  obtain ⟨key', bytes', payload', hkey', hbytes', -, hpayload', hverify', -⟩ :=
    Validator.validate_eq_ok_iff.mp hb
  -- Neither payload nor signature depends on the sender.
  have hbytes_eq : bytes = bytes' := by
    rw [hsame, hbytes] at hbytes'
    exact Option.some.inj hbytes'
  have hpayload_eq : payload = payload' := by
    have hsender : b.payload scheme = a.payload scheme := by
      rw [hsame]
      rfl
    rw [hsender, hpayload] at hpayload'
    exact Except.ok.inj hpayload'
  rw [← hbytes_eq, ← hpayload_eq] at hverify'
  obtain rfl : key = key' := hexclusive _ _ _ _ hverify hverify'
  obtain ⟨client, hmem, haddress, hclient⟩ := key?_eq_some_iff.mp hkey
  obtain ⟨client', hmem', haddress', hclient'⟩ := key?_eq_some_iff.mp hkey'
  have hone : client = client' :=
    List.inj_on_of_nodup_map hkeys hmem hmem' (hclient.trans hclient'.symm)
  rw [← haddress, ← haddress', hone]

/-- A question for the total supply, signed by no bytes. -/
def supplyQuery (sender : Address) : Transaction :=
  { Transaction.plain 0 sender (.native .totalSupply) with signature := some [] }

/-- The question is admissible for a client whose key the key manager takes. -/
lemma validate_supplyQuery (hseen : l.seen = .empty) {client : Client} {manager : KeyManager}
    (hmem : client ∈ l.registry.clients)
    (htakes : ∀ payload signature, manager.verify payload signature client.key = .ok true) :
    (Validator.mk scheme).validate l.view manager (supplyQuery client.address)
      = .ok .totalSupply := by
  have hselector : TransactionType.totalSupply.name ≠ "" := by decide
  obtain ⟨payload, hpayload⟩ :
      ∃ payload, (supplyQuery client.address).payload scheme = .ok payload :=
    Transaction.exists_payload_iff.mpr ⟨hselector, fun a ha => nomatch ha⟩
  exact validate_of_client hseen hmem rfl rfl hpayload (.inl rfl) rfl (htakes _ _)

/-- Clients with one key can send each other's transactions. -/
lemma nodup_of_provesSender (hseen : l.seen = .empty) (h : l.ProvesSender scheme) :
    (l.registry.clients.map Client.key).Nodup := by
  apply List.Nodup.map_on _ l.registry.nodup.of_map
  intro client hmem client' hmem' hkeys
  -- A key manager that takes any signature, for the key that the two have in common.
  let manager : KeyManager := ⟨fun _ _ key => .ok (decide (key = client.key))⟩
  have hexclusive : manager.Exclusive := by
    intro payload signature key key' hkey hkey'
    have h : key = client.key := of_decide_eq_true (Except.ok.inj hkey)
    have h' : key' = client.key := of_decide_eq_true (Except.ok.inj hkey')
    rw [h, h']
  have htakes : ∀ payload signature, manager.verify payload signature client.key = .ok true := by
    intro payload signature
    exact congrArg Except.ok (decide_eq_true rfl)
  have hclient := @validate_supplyQuery _ scheme hseen client manager hmem htakes
  have hclient' := @validate_supplyQuery _ scheme hseen client' manager hmem' (hkeys ▸ htakes)
  have haddress : client.address = client'.address :=
    h manager hexclusive _ (supplyQuery client'.address) rfl _ _ hclient hclient'
  exact List.inj_on_of_nodup_map l.registry.nodup hmem hmem' haddress

end Ledger

namespace Config

variable {c : Config}

/-- The keys that the entries of clients spell are those of the ledger's clients. -/
lemma nodup_keys_iff {l : Ledger} (h : Ledger.ofConfig c = .ok l) :
    (c.clients.map fun entry => VerificationKey.ofText entry.publicKey).Nodup ↔
      (l.registry.clients.map Client.key).Nodup := by
  have hkeys : (c.clients.map fun entry => VerificationKey.ofText entry.publicKey)
      = (l.registry.clients.map Client.key).map Except.ok :=
    Ledger.map_clients_ofConfig h fun _ _ hclient => (Ledger.clientOf_eq_ok_iff.mp hclient).2.2
  have hinjective : Function.Injective
      (Except.ok : VerificationKey → Except DecodingFault VerificationKey) :=
    fun _ _ => Except.ok.inj
  rw [hkeys, List.nodup_map_iff hinjective]

/-- On the ledger of a configuration, a signature proves the sender if and only if no two entries of
clients spell one key. -/
theorem provesSender_iff (c : Config) (h : c.validate = .ok ()) :
    ∃ l, Ledger.ofConfig c = .ok l ∧ ∀ scheme, l.ProvesSender scheme ↔
      (c.clients.map fun entry => VerificationKey.ofText entry.publicKey).Nodup := by
  obtain ⟨l, hl⟩ := Ledger.exists_ofConfig h
  refine ⟨l, hl, fun scheme => ?_⟩
  rw [nodup_keys_iff hl]
  exact ⟨Ledger.nodup_of_provesSender (Ledger.seen_ofConfig hl), Ledger.provesSender_of_nodup⟩

/-- Two clients with keys of their own. -/
theorem provesSender_iff_of_two :
    let c : Config := ⟨.standard, [⟨1, "0x0000000000000000000000000000000000000001", "02aa"⟩,
      ⟨2, "0x0000000000000000000000000000000000000002", "0x03AA"⟩], .empty⟩
    c.validate = .ok () ∧ ∃ l, Ledger.ofConfig c = .ok l ∧ ∀ scheme, l.ProvesSender scheme := by
  intro c
  have hvalid : c.validate = .ok () := by decide +kernel
  obtain ⟨l, hl, hsender⟩ := provesSender_iff c hvalid
  have hkeys : (c.clients.map fun entry => VerificationKey.ofText entry.publicKey).Nodup := by
    decide +kernel
  exact ⟨hvalid, l, hl, fun scheme => (hsender scheme).mpr hkeys⟩

/-- Two addresses that are held with one key: a signature of one client is good for the other. -/
theorem not_provesSender_of_sharedKey :
    let key := "0279be667ef9dcbbac55a06295ce870b07029bfcdb2dce28d959f2815b16f81798"
    let c : Config := ⟨.standard, [⟨1, "0x0000000000000000000000000000000000000001", key⟩,
      ⟨2, "0x0000000000000000000000000000000000000002", key⟩], .empty⟩
    c.validate = .ok () ∧
      ∃ l, Ledger.ofConfig c = .ok l ∧ ∀ scheme, ¬ l.ProvesSender scheme := by
  intro key c
  have hvalid : c.validate = .ok () := by decide +kernel
  obtain ⟨l, hl⟩ := Ledger.exists_ofConfig hvalid
  refine ⟨hvalid, l, hl, fun scheme hsender => ?_⟩
  have hkeys := Ledger.nodup_of_provesSender (Ledger.seen_ofConfig hl) hsender
  exact absurd ((nodup_keys_iff hl).mpr hkeys) (by decide +kernel)

end Config

end Admission
