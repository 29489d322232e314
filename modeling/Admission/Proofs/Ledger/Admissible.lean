import Admission.Proofs.Ledger.Verdict

/-!
# What is admissible, and what is turned down first

The rules of admission, told without the engine that applies them. A table says which arguments each
type takes, and eight gates say what is asked of a transaction, in order: a sender who is a client,
a signature, that it is new, a payload, that the signature is the sender's, a type, the addresses of
that type and its amount. An engine admits exactly what passes all gates, and gives the reason of
the first gate that is not passed (`Validator.validate_decides`).
-/

namespace Admission

/-! ## The argument table -/

/-- The kind of an amount that is carried. -/
def AmountNeed.carried : Option Amount → AmountNeed
  | .none => .absent
  | some (.token _) => .token
  | some (.native _) => .native

/-- A row of the argument table: types, and which arguments they take. -/
structure ArgumentRow where
  types : List TransactionType
  owner : Bool
  receiver : Bool
  amount : AmountNeed

/-- The arguments that the types take. -/
def argumentTable : List ArgumentRow := [
  ⟨[.addToBlacklist, .isBlacklisted, .removeFromBlacklist, .balanceOf], false, true, .absent⟩,
  ⟨[.nativeBalance], false, true, .absent⟩,
  ⟨[.approve, .transfer], false, true, .token⟩,
  ⟨[.nativeTransfer], false, true, .native⟩,
  ⟨[.allowance], true, true, .absent⟩,
  ⟨[.transferFrom], true, true, .token⟩,
  ⟨[.totalSupply], false, false, .absent⟩]

namespace Transaction

/-- An owner and a receiver are there as the table says for a type. -/
def AddressesFit (tx : Transaction) (type : TransactionType) : Prop :=
  ∃ row ∈ argumentTable, type ∈ row.types ∧ tx.owner.isSome = row.owner ∧
    tx.receiver.isSome = row.receiver

/-- The amount is of the kind that the table says for a type. -/
def AmountFits (tx : Transaction) (type : TransactionType) : Prop :=
  ∃ row ∈ argumentTable, type ∈ row.types ∧ AmountNeed.carried tx.amount = row.amount

variable {tx : Transaction} {type : TransactionType}

/-- The addresses of the table are those of a type's shape. -/
lemma addressesFit_iff : tx.AddressesFit type ↔ type.shape.addresses.met tx = true := by
  cases type <;>
    simp [AddressesFit, argumentTable, TransactionType.shape, AddressNeed.met, hasNoAddress,
      hasOneAddress, hasTwoAddresses]

/-- An amount meets a need exactly if it is of that kind. -/
lemma amountNeed_met_iff {need : AmountNeed} {amount : Option Amount} :
    need.met amount = true ↔ AmountNeed.carried amount = need := by
  rcases amount with _ | ⟨a⟩ | ⟨a⟩ <;> cases need <;> simp [AmountNeed.met, AmountNeed.carried]

/-- The amounts of the table are those of a type's shape. -/
lemma amountFits_iff : tx.AmountFits type ↔ type.shape.amount.met tx.amount = true := by
  rw [amountNeed_met_iff]
  cases type <;> simp [AmountFits, argumentTable, TransactionType.shape]

end Transaction

/-! ## Gates -/

/-- What is asked of a transaction. -/
inductive Gate where
  | sender
  | signature
  | replay
  | payload
  | authenticity
  | operation
  | addresses
  | amount
deriving DecidableEq

namespace Gate

/-- All gates, in order. -/
def all : List Gate :=
  [sender, signature, replay, payload, authenticity, operation, addresses, amount]

/-- The gates before a gate. -/
def before (g : Gate) : List Gate :=
  all.takeWhile (· ≠ g)

lemma mem_all (g : Gate) : g ∈ all := by
  cases g <;> decide

/-- Of two gates one is before the other. -/
lemma eq_or_mem_before (g g' : Gate) : g = g' ∨ g ∈ g'.before ∨ g' ∈ g.before := by
  have htable : ∀ g ∈ all, ∀ g' ∈ all, g = g' ∨ g ∈ g'.before ∨ g' ∈ g.before := by decide
  exact htable g g.mem_all g' g'.mem_all

section

variable (v : Validator) (view : View) (manager : KeyManager) (tx : Transaction)

/-- Whether a transaction passes a gate. -/
def Passed : Gate → Prop
  | sender => ∃ key, view.key? tx.sender = some key
  | signature => ∃ bytes, tx.signature = some bytes
  | replay => ∀ text, tx.signatureText? = some text → view.isReplayed text = false
  | payload => tx.HasPayload
  | authenticity => ∃ key bytes payload, view.key? tx.sender = some key ∧
      tx.signature = some bytes ∧ tx.payload v.scheme = .ok payload ∧
      manager.verify payload bytes key = .ok true
  | operation => ∃ type, view.Resolves tx.operation type
  | addresses => ∃ type, view.Resolves tx.operation type ∧ tx.AddressesFit type
  | amount => ∃ type, view.Resolves tx.operation type ∧ tx.AmountFits type

/-- Whether a transaction passes all gates before a gate. -/
def Reached (g : Gate) : Prop :=
  ∀ earlier ∈ g.before, earlier.Passed v view manager tx

/-- Whether a gate is the first that a transaction does not pass. -/
def FailsFirst (g : Gate) : Prop :=
  g.Reached v view manager tx ∧ ¬ g.Passed v view manager tx

/-- The reasons that a gate gives to those who do not pass it. -/
inductive Reports : Gate → Rejection → Prop
  | sender : Reports sender (.unknownSender tx.sender)
  | signature : Reports signature .unsigned
  | replay : Reports replay .replayed
  | selector (h : tx.operation.selector = "") :
      Reports payload (.unauthenticated (.noPayload .emptySelector))
  | tokens {a : TokenAmount} (hselector : tx.operation.selector ≠ "")
      (h : tx.tokenAmount? = some a) (hfinite : a.value.isFinite = false) :
      Reports payload (.unauthenticated (.noPayload (.unwritable a.value)))
  | mismatch {key : VerificationKey} {bytes payload : List UInt8}
      (hkey : view.key? tx.sender = some key) (hbytes : tx.signature = some bytes)
      (hpayload : tx.payload v.scheme = .ok payload)
      (h : manager.verify payload bytes key = .ok false) :
      Reports authenticity (.unauthenticated .mismatch)
  | uncheckable {key : VerificationKey} {bytes payload : List UInt8} {fault : CryptoFault}
      (hkey : view.key? tx.sender = some key) (hbytes : tx.signature = some bytes)
      (hpayload : tx.payload v.scheme = .ok payload)
      (h : manager.verify payload bytes key = .error fault) :
      Reports authenticity (.unauthenticated (.uncheckable fault))
  | operation {signature : String} (h : tx.operation = .call signature) :
      Reports operation (.unknownOperation signature)
  | addresses {type : TransactionType} (h : view.Resolves tx.operation type) :
      Reports addresses (.malformedArguments type (.addresses type.shape.addresses))
  | amount {type : TransactionType} (h : view.Resolves tx.operation type) :
      Reports amount (.malformedArguments type (.amount type.shape.amount))

end

variable {v : Validator} {view : View} {manager : KeyManager} {tx : Transaction}

/-- Who passes a gate comes to the next one. -/
lemma reached_next {g next : Gate} (hnext : next.before = g.before ++ [g])
    (hreached : g.Reached v view manager tx) (hpassed : g.Passed v view manager tx) :
    next.Reached v view manager tx := by
  rw [Reached, hnext, List.forall_mem_append]
  exact ⟨hreached, List.forall_mem_singleton.mpr hpassed⟩

/-- At most one gate is the first that is not passed. -/
lemma failsFirst_unique {g g' : Gate} (h : g.FailsFirst v view manager tx)
    (h' : g'.FailsFirst v view manager tx) : g = g' := by
  rcases g.eq_or_mem_before g' with heq | hbefore | hbefore
  · exact heq
  · exact absurd (h'.1 g hbefore) h.2
  · exact absurd (h.1 g' hbefore) h'.2

/-- A gate gives one reason. -/
lemma reports_unique {g : Gate} {r r' : Rejection} (h : Reports v view manager tx g r)
    (h' : Reports v view manager tx g r') : r = r' := by
  cases h with
  | sender => cases h'; rfl
  | signature => cases h'; rfl
  | replay => cases h'; rfl
  | selector h =>
    cases h' with
    | selector h' => rfl
    | tokens hselector' h' hfinite' => exact absurd h hselector'
  | tokens hselector h hfinite => cases h' <;> simp_all
  | mismatch hkey hbytes hpayload h => cases h' <;> simp_all
  | uncheckable hkey hbytes hpayload h => cases h' <;> simp_all
  | operation h => cases h'; simp_all
  | addresses h =>
    cases h' with
    | addresses h' => rw [Operation.resolves_unique h h']
  | amount h =>
    cases h' with
    | amount h' => rw [Operation.resolves_unique h h']

end Gate

/-! ## The engine's verdict -/

namespace Validator

variable {v : Validator} {view : View} {manager : KeyManager} {tx : Transaction}

open Gate

/-- What is admitted has passed all gates. -/
lemma passed_of_validate {type : TransactionType} (h : v.validate view manager tx = .ok type) :
    (∀ g : Gate, g.Passed v view manager tx) ∧ view.Resolves tx.operation type := by
  obtain ⟨key, bytes, payload, hkey, hbytes, hnew, hpayload, hverify, hresolve, hargs⟩ :=
    validate_eq_ok_iff.mp h
  have htype : view.Resolves tx.operation type := Operation.resolve_eq_ok_iff.mp hresolve
  obtain ⟨haddresses, hamount⟩ := Transaction.checkArguments_eq_ok_iff.mp hargs
  refine ⟨?_, htype⟩
  intro g
  cases g with
  | sender => exact ⟨key, hkey⟩
  | signature => exact ⟨bytes, hbytes⟩
  | replay =>
    intro text htext
    rw [Transaction.signatureText?, hbytes] at htext
    injection htext with htext
    rwa [← htext]
  | payload => exact Transaction.exists_payload_iff.mp ⟨payload, hpayload⟩
  | authenticity => exact ⟨key, bytes, payload, hkey, hbytes, hpayload, hverify⟩
  | operation => exact ⟨type, htype⟩
  | addresses => exact ⟨type, htype, Transaction.addressesFit_iff.mpr haddresses⟩
  | amount => exact ⟨type, htype, Transaction.amountFits_iff.mpr hamount⟩

section

variable {key : VerificationKey} {bytes : List UInt8} {reason : Rejection}

/-- A signature that is not taken for the sender's fails the gate of the payload or that of
authenticity. -/
lemma failsFirst_of_authenticate (hreached : Gate.payload.Reached v view manager tx)
    (hkey : view.key? tx.sender = some key) (hbytes : tx.signature = some bytes)
    (h : v.authenticate manager key bytes tx = .error reason) :
    ∃ g : Gate, g.FailsFirst v view manager tx ∧ g.Reports v view manager tx reason := by
  rcases authenticate_eq_error_iff.mp h with ⟨fault, hpayload, rfl⟩ | ⟨payload, hpayload, hfault⟩
  · have hfails : ¬ tx.HasPayload := by
      rw [← @Transaction.exists_payload_iff v.scheme, hpayload]
      simp
    refine ⟨.payload, ⟨hreached, hfails⟩, ?_⟩
    rcases Transaction.payload_eq_error_iff.mp hpayload with
      ⟨hselector, rfl⟩ | ⟨hselector, a, ha, hfinite, rfl⟩
    · exact .selector hselector
    · exact .tokens hselector ha hfinite
  · have hnext : Gate.authenticity.Reached v view manager tx :=
      reached_next rfl hreached (Transaction.exists_payload_iff.mp ⟨payload, hpayload⟩)
    have hfails : ¬ Gate.authenticity.Passed v view manager tx := by
      rintro ⟨key', bytes', payload', hkey', hbytes', hpayload', hverify'⟩
      obtain rfl : key = key' := Option.some.inj (hkey.symm.trans hkey')
      obtain rfl : bytes = bytes' := Option.some.inj (hbytes.symm.trans hbytes')
      have hok := authenticate_eq_ok_iff.mpr ⟨payload', hpayload', hverify'⟩
      rw [h] at hok
      exact nomatch hok
    refine ⟨.authenticity, ⟨hnext, hfails⟩, ?_⟩
    rcases hfault with ⟨hverify, rfl⟩ | ⟨fault, hverify, rfl⟩
    · exact .mismatch hkey hbytes hpayload hverify
    · exact .uncheckable hkey hbytes hpayload hverify

/-- A sender's signature passes the gates of the payload and of authenticity. -/
lemma reached_operation (hreached : Gate.payload.Reached v view manager tx)
    (hkey : view.key? tx.sender = some key) (hbytes : tx.signature = some bytes)
    (h : v.authenticate manager key bytes tx = .ok ()) :
    Gate.operation.Reached v view manager tx := by
  obtain ⟨payload, hpayload, hverify⟩ := authenticate_eq_ok_iff.mp h
  have hnext : Gate.authenticity.Reached v view manager tx :=
    reached_next rfl hreached (Transaction.exists_payload_iff.mp ⟨payload, hpayload⟩)
  exact reached_next rfl hnext ⟨key, bytes, payload, hkey, hbytes, hpayload, hverify⟩

/-- An operation without a type fails the gate of the operation. -/
lemma failsFirst_of_resolve (hreached : Gate.operation.Reached v view manager tx)
    (h : tx.operation.resolve view = .error reason) :
    ∃ g : Gate, g.FailsFirst v view manager tx ∧ g.Reports v view manager tx reason := by
  have hfails : ¬ ∃ type, view.Resolves tx.operation type := by
    rintro ⟨type, htype⟩
    rw [Operation.resolve_eq_ok_iff.mpr htype] at h
    exact nomatch h
  obtain ⟨signature, hcall, -, rfl⟩ := Operation.resolve_eq_error_iff.mp h
  exact ⟨.operation, ⟨hreached, hfails⟩, .operation hcall⟩

/-- Arguments that do not fit the type fail the gate of the addresses or that of the amount. -/
lemma failsFirst_of_checkArguments {type : TransactionType}
    (hreached : Gate.operation.Reached v view manager tx)
    (htype : view.Resolves tx.operation type) (h : tx.checkArguments type = .error reason) :
    ∃ g : Gate, g.FailsFirst v view manager tx ∧ g.Reports v view manager tx reason := by
  have hnext : Gate.addresses.Reached v view manager tx := reached_next rfl hreached ⟨type, htype⟩
  rcases Transaction.checkArguments_eq_error_iff.mp h with
    ⟨haddresses, rfl⟩ | ⟨haddresses, hamount, rfl⟩
  · refine ⟨.addresses, ⟨hnext, ?_⟩, .addresses htype⟩
    rintro ⟨type', htype', hfit⟩
    rw [Operation.resolves_unique htype' htype, Transaction.addressesFit_iff, haddresses] at hfit
    exact nomatch hfit
  · have hlast : Gate.amount.Reached v view manager tx :=
      reached_next rfl hnext ⟨type, htype, Transaction.addressesFit_iff.mpr haddresses⟩
    refine ⟨.amount, ⟨hlast, ?_⟩, .amount htype⟩
    rintro ⟨type', htype', hfit⟩
    rw [Operation.resolves_unique htype' htype, Transaction.amountFits_iff, hamount] at hfit
    exact nomatch hfit

/-- What is turned down has a first gate that it does not pass, and is given that gate's reason. -/
lemma failsFirst_of_validate (h : v.validate view manager tx = .error reason) :
    ∃ g : Gate, g.FailsFirst v view manager tx ∧ g.Reports v view manager tx reason := by
  have hstart : Gate.sender.Reached v view manager tx := List.forall_mem_nil _
  cases hkey : view.key? tx.sender with
  | none =>
    have hreason : .unknownSender tx.sender = reason := by simpa [validate, hkey] using h
    exact ⟨.sender, ⟨hstart, by simp [Passed, hkey]⟩, hreason ▸ .sender⟩
  | some key =>
    have hsender : Gate.signature.Reached v view manager tx := reached_next rfl hstart ⟨key, hkey⟩
    cases hbytes : tx.signature with
    | none =>
      have hreason : .unsigned = reason := by simpa [validate, hkey, hbytes] using h
      exact ⟨.signature, ⟨hsender, by simp [Passed, hbytes]⟩, hreason ▸ .signature⟩
    | some bytes =>
      have hsigned : Gate.replay.Reached v view manager tx :=
        reached_next rfl hsender ⟨bytes, hbytes⟩
      have htext := Transaction.signatureText?_eq_some_iff.mpr hbytes
      cases hseen : view.isReplayed (String.ofList (Text.Base64.encode bytes)) with
      | true =>
        have hreason : .replayed = reason := by simpa [validate, hkey, hbytes, hseen] using h
        exact ⟨.replay, ⟨hsigned, by simp [Passed, htext, hseen]⟩, hreason ▸ .replay⟩
      | false =>
        have hnew : Gate.payload.Reached v view manager tx :=
          reached_next rfl hsigned (by simp [Passed, htext, hseen])
        -- What is left is the judgement of signature, operation and arguments.
        rcases (validate_eq_error_iff_of_new hkey hbytes hseen).mp h with
          hauth | ⟨hauth, hresolve | ⟨type, hresolve, hargs⟩⟩
        · exact failsFirst_of_authenticate hnew hkey hbytes hauth
        · exact failsFirst_of_resolve (reached_operation hnew hkey hbytes hauth) hresolve
        · exact failsFirst_of_checkArguments (reached_operation hnew hkey hbytes hauth)
            (Operation.resolve_eq_ok_iff.mp hresolve) hargs

end

/-- A transaction without a payload is turned down without a question to the key manager. -/
lemma validate_of_not_hasPayload (h : ¬ tx.HasPayload) :
    ∃ reason, (reason = .unknownSender tx.sender ∨ reason = .unsigned ∨ reason = .replayed ∨
      ∃ fault, reason = .unauthenticated (.noPayload fault)) ∧
      ∀ manager, v.validate view manager tx = .error reason := by
  obtain ⟨fault, hpayload⟩ : ∃ fault, tx.payload v.scheme = .error fault := by
    cases hpayload : tx.payload v.scheme with
    | error fault => exact ⟨fault, rfl⟩
    | ok payload => exact absurd (Transaction.exists_payload_iff.mp ⟨payload, hpayload⟩) h
  cases hkey : view.key? tx.sender with
  | none => exact ⟨_, .inl rfl, fun manager => by simp [validate, hkey]⟩
  | some key =>
    cases hbytes : tx.signature with
    | none => exact ⟨_, .inr (.inl rfl), fun manager => by simp [validate, hkey, hbytes]⟩
    | some bytes =>
      cases hseen : view.isReplayed (String.ofList (Text.Base64.encode bytes)) with
      | true =>
        exact ⟨_, .inr (.inr (.inl rfl)), fun manager => by simp [validate, hkey, hbytes, hseen]⟩
      | false =>
        refine ⟨_, .inr (.inr (.inr ⟨fault, rfl⟩)), fun manager => ?_⟩
        rw [validate_eq_error_iff_of_new hkey hbytes hseen]
        exact .inl (authenticate_eq_error_iff.mpr (.inl ⟨fault, hpayload, rfl⟩))

/-- A transaction is admitted exactly if it passes all gates, as what its operation says, and is
turned down exactly for the reason of the first gate that it does not pass. So one with an empty
selector or an amount of tokens that is not finite is turned down before the key manager is asked,
whatever function the empty selector may name. -/
theorem validate_decides (v : Validator) (view : View) (tx : Transaction) :
    (∀ manager type, v.validate view manager tx = .ok type ↔
      (∀ g : Gate, g.Passed v view manager tx) ∧ view.Resolves tx.operation type) ∧
    (∀ manager reason, v.validate view manager tx = .error reason ↔
      ∃ g : Gate, g.FailsFirst v view manager tx ∧ g.Reports v view manager tx reason) ∧
    ((tx.operation.selector = "" ∨ ∃ a, tx.tokenAmount? = some a ∧ a.value.isFinite = false) →
      ∃ reason, (reason = .unknownSender tx.sender ∨ reason = .unsigned ∨ reason = .replayed ∨
        ∃ fault, reason = .unauthenticated (.noPayload fault)) ∧
        ∀ manager, v.validate view manager tx = .error reason) := by
  refine ⟨fun manager type => ⟨passed_of_validate, ?_⟩,
    fun manager reason => ⟨failsFirst_of_validate, ?_⟩, ?_⟩
  · rintro ⟨hpassed, htype⟩
    cases hverdict : v.validate view manager tx with
    | error reason =>
      obtain ⟨g, hfails, -⟩ := failsFirst_of_validate hverdict
      exact absurd (hpassed g) hfails.2
    | ok found =>
      have hfound := (passed_of_validate hverdict).2
      rw [Operation.resolves_unique htype hfound]
  · rintro ⟨g, hfails, hreports⟩
    cases hverdict : v.validate view manager tx with
    | error found =>
      -- The gate that failed first is one, and it has one reason.
      obtain ⟨g', hfails', hreports'⟩ := failsFirst_of_validate hverdict
      obtain rfl := failsFirst_unique hfails hfails'
      rw [reports_unique hreports hreports']
    | ok type => exact absurd ((passed_of_validate hverdict).1 g) hfails.2
  · intro hmissing
    apply validate_of_not_hasPayload
    rintro ⟨hselector, hfinite⟩
    rcases hmissing with hempty | ⟨a, ha, hinfinite⟩
    · exact hselector hempty
    · rw [hfinite a ha] at hinfinite
      exact nomatch hinfinite

/-- A transaction with three faults: its call is of the function without a name, its amount is no
number, and it has an owner that the type of that function does not take. It is turned down for
want of a payload, although the key manager would take any signature. -/
theorem validate_decides_unnamed :
    let tx : Transaction := { Transaction.delegatedCall 1 .zero .zero .zero ""
      (some ⟨⟨UInt64.ofNat (2047 * 2 ^ 52)⟩⟩) with signature := some [] }
    let view : View := ⟨fun _ => some ⟨[]⟩, fun _ => false, fun _ => some .transfer⟩
    let manager : KeyManager := ⟨fun _ _ _ => .ok true⟩
    tx.operation.selector = "" ∧
      (Validator.mk .legacy).validate view manager tx
        = .error (.unauthenticated (.noPayload .emptySelector)) ∧
      ∃ reason, ∀ manager, (Validator.mk .legacy).validate view manager tx = .error reason := by
  intro tx view manager
  obtain ⟨-, hdecides, hpayload⟩ := validate_decides ⟨.legacy⟩ view tx
  have hselector : tx.operation.selector = "" := rfl
  have hfails : Gate.payload.FailsFirst ⟨.legacy⟩ view manager tx := by
    refine ⟨?_, fun hpassed => hpassed.1 hselector⟩
    intro earlier hbefore
    have hlist : earlier ∈ [Gate.sender, .signature, .replay] := hbefore
    simp only [List.mem_cons, List.not_mem_nil, or_false] at hlist
    rcases hlist with rfl | rfl | rfl
    · exact ⟨_, rfl⟩
    · exact ⟨_, rfl⟩
    · exact fun _ _ => rfl
  obtain ⟨reason, -, hreason⟩ := hpayload (.inl hselector)
  exact ⟨hselector, (hdecides manager _).mpr ⟨_, hfails, .selector hselector⟩, reason, hreason⟩

end Validator

end Admission
