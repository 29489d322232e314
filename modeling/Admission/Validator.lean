import Admission.Ledger

/-!
# Admission

A transaction passes six gates in order: its sender is a client, it is signed, its signature is new,
the signature fits the payload and the client's key, its operation has a type, and its arguments
are those that the type asks for. The first gate that it fails gives the reason of its rejection.
Admission then records the signature; of several transactions with one signature, the recording
lets only one through.
-/

namespace Admission

/-! ## Reasons -/

/-- Why a signature is not taken for the sender's. -/
inductive SignatureFault where
  /-- There is no payload that could have been signed. -/
  | noPayload (fault : EncodingFault)
  | mismatch
  /-- The key manager cannot make sense of the key or the signature. -/
  | uncheckable (fault : CryptoFault)
deriving DecidableEq, Repr

/-- Which argument is not as a type asks for. -/
inductive ArgumentFault where
  | addresses (need : AddressNeed)
  | amount (need : AmountNeed)
deriving DecidableEq, Repr

/-- Why a transaction is not admitted. -/
inductive Rejection where
  | unknownSender (sender : Address)
  | unsigned
  | replayed
  | unauthenticated (fault : SignatureFault)
  | unknownOperation (signature : String)
  | malformedArguments (type : TransactionType) (fault : ArgumentFault)
deriving DecidableEq

/-- The coarse kinds of rejections. -/
inductive RejectionKind where
  | unauthenticated
  | replayed
  | unknownOperation
  | malformedArguments
deriving DecidableEq, Repr

/-- The name of a kind. -/
def RejectionKind.name : RejectionKind → String
  | unauthenticated => "Unauthenticated"
  | replayed => "Replayed"
  | unknownOperation => "UnknownOperation"
  | malformedArguments => "MalformedArguments"

/-- The words for a signature that is not the sender's. -/
def SignatureFault.message : SignatureFault → String
  | .noPayload fault => s!"signing payload unavailable: {fault.report}"
  | .mismatch => "signature does not match sender key"
  | .uncheckable fault => fault.report

/-- The words for a wrong argument. -/
def ArgumentFault.message : ArgumentFault → String
  | .addresses .none => "expected no owner or receiver address"
  | .addresses .receiver => "expected a receiver address and no owner address"
  | .addresses .ownerAndReceiver => "expected both owner and receiver addresses"
  | .amount .absent => "unexpected amount"
  | .amount .token => "expected a token amount"
  | .amount .native => "expected a native amount"

namespace Rejection

/-- The words for a rejection. -/
def message : Rejection → String
  | unknownSender sender => s!"sender {sender.toText} is not a registered client"
  | unsigned => "transaction is not signed"
  | replayed => "signature was already submitted"
  | unauthenticated fault => s!"signature verification failed: {fault.message}"
  | unknownOperation signature => s!"unknown operation: {signature}"
  | malformedArguments type fault => s!"malformed arguments for {type.name}: {fault.message}"

/-- The coarse kind of a rejection. -/
def kind : Rejection → RejectionKind
  | unknownSender _ => .unauthenticated
  | unsigned => .unauthenticated
  | replayed => .replayed
  | unauthenticated _ => .unauthenticated
  | unknownOperation _ => .unknownOperation
  | malformedArguments _ _ => .malformedArguments

/-- The name of a rejection's gate. -/
def name : Rejection → String
  | unknownSender _ => "UnknownSender"
  | unsigned => "Unsigned"
  | replayed => "Replayed"
  | unauthenticated _ => "Unauthenticated"
  | unknownOperation _ => "UnknownOperation"
  | malformedArguments _ _ => "MalformedArguments"

end Rejection

/-! ## Arguments -/

/-- Whether a transaction's addresses are those that are asked for. -/
def AddressNeed.met (need : AddressNeed) (tx : Transaction) : Bool :=
  match need with
  | .none => tx.hasNoAddress
  | .receiver => tx.hasOneAddress
  | .ownerAndReceiver => tx.hasTwoAddresses

/-- Whether an amount is of the kind that is asked for. -/
def AmountNeed.met : AmountNeed → Option Amount → Bool
  | absent, .none => true
  | token, some (.token _) => true
  | native, some (.native _) => true
  | _, _ => false

/-- Checks a transaction's arguments for a type, its addresses before its amount. -/
def Transaction.checkArguments (tx : Transaction) (type : TransactionType) :
    Except Rejection Unit :=
  let shape := type.shape
  if !shape.addresses.met tx then
    .error (.malformedArguments type (.addresses shape.addresses))
  else if !shape.amount.met tx.amount then
    .error (.malformedArguments type (.amount shape.amount))
  else .ok ()

/-! ## Gates -/

/-- The type that an operation has on a ledger. -/
def Operation.resolve (view : View) : Operation → Except Rejection TransactionType
  | .native type => .ok type
  | .call signature => match view.type? signature with
    | some type => .ok type
    | none => .error (.unknownOperation signature)

/-- An engine that judges transactions under a signing scheme. -/
structure Validator where
  scheme : SigningScheme
deriving DecidableEq, Repr

namespace Validator

/-- Checks a transaction's signature against a key. -/
def authenticate (v : Validator) (manager : KeyManager) (key : VerificationKey)
    (signature : List UInt8) (tx : Transaction) : Except Rejection Unit :=
  match tx.payload v.scheme with
  | .error fault => .error (.unauthenticated (.noPayload fault))
  | .ok payload => match manager.verify payload signature key with
    | .ok true => .ok ()
    | .ok false => .error (.unauthenticated .mismatch)
    | .error fault => .error (.unauthenticated (.uncheckable fault))

/-- The type of an admissible transaction, or the first gate that it fails. -/
def validate (v : Validator) (view : View) (manager : KeyManager) (tx : Transaction) :
    Except Rejection TransactionType :=
  match view.key? tx.sender with
  | none => .error (.unknownSender tx.sender)
  | some key => match tx.signature with
    | none => .error .unsigned
    | some signature =>
      if view.isReplayed (String.ofList (Text.Base64.encode signature)) then .error .replayed
      else do
        -- Only what the sender has signed is looked at further.
        v.authenticate manager key signature tx
        let type ← tx.operation.resolve view
        tx.checkArguments type
        .ok type

/-- Whether a transaction is admissible. -/
def isValid (v : Validator) (view : View) (manager : KeyManager) (tx : Transaction) : Bool :=
  (v.validate view manager tx).isOk

end Validator

/-! ## Recording -/

/-- Carries out a verdict: a transaction that passed is recorded, and turned down after all if its
signature was recorded in the meantime. -/
def Ledger.settle (l : Ledger) (tx : Transaction) :
    Except Rejection TransactionType → Except Rejection TransactionType × Ledger
  | .error reason => (.error reason, l)
  | .ok type => match tx.signatureText? with
    | none => (.error .unsigned, l)
    | some text => match l.record text with
      -- Recording is the moment that decides between transactions with one signature.
      | (true, l) => (.ok type, l)
      | (false, l) => (.error .replayed, l)

/-- Judges a transaction on the ledger as it is, then carries the verdict out. -/
def Ledger.submit (l : Ledger) (v : Validator) (manager : KeyManager) (tx : Transaction) :
    Except Rejection TransactionType × Ledger :=
  l.settle tx (v.validate l.view manager tx)

end Admission
