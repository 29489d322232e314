import Admission.Address
import Admission.Amount.Native
import Admission.Amount.Token
import Admission.Operation

/-!
# Transactions

A transaction asks the ledger for one operation in a sender's name. It may carry an owner, a
receiver, an amount of one kind, and a signature. Two transactions are *the same* when both are
signed, with the same bytes and under the same number; an unsigned one is the same as none.
-/

namespace Admission

open Admission.Text

/-- An amount of tokens or of the base currency. -/
inductive Amount where
  | token (amount : TokenAmount)
  | native (amount : NativeAmount)
deriving DecidableEq, Repr

namespace Amount

/-- The amount of tokens. -/
def token? : Amount → Option TokenAmount
  | token amount => some amount
  | native _ => none

/-- The amount of the base currency. -/
def native? : Amount → Option NativeAmount
  | token _ => none
  | native amount => some amount

/-- The text of an amount in a diagnostic. -/
def shown : Amount → String
  | token amount => s!"Token({amount.shown})"
  | native amount => s!"Native({amount.shown})"

end Amount

/-- A request to the ledger. -/
structure Transaction where
  /-- The number that the submitter gave it. -/
  id : UInt64
  sender : Address
  operation : Operation
  owner : Option Address
  receiver : Option Address
  amount : Option Amount
  /-- The bytes of the signature, if it is signed. -/
  signature : Option (List UInt8)
deriving DecidableEq

namespace Transaction

/-! ## Making transactions -/

/-- An unsigned transaction without further arguments. -/
def plain (id : UInt64) (sender : Address) (operation : Operation) : Transaction :=
  ⟨id, sender, operation, none, none, none, none⟩

/-- A contract call of the sender with a receiver. -/
def call (id : UInt64) (sender : Address) (receiver : Option Address) (signature : String)
    (amount : Option TokenAmount) : Transaction :=
  { plain id sender (.call signature) with
    receiver := receiver
    amount := amount.map .token }

/-- A contract call of the sender in an owner's name. -/
def delegatedCall (id : UInt64) (sender owner receiver : Address) (signature : String)
    (amount : Option TokenAmount) : Transaction :=
  { call id sender (some receiver) signature amount with owner := some owner }

/-- A transaction that names its type. -/
def native (id : UInt64) (sender : Address) (receiver : Option Address) (type : TransactionType)
    (amount : Option NativeAmount) : Transaction :=
  { plain id sender (.native type) with
    receiver := receiver
    amount := amount.map .native }

/-! ## Looking at transactions -/

/-- Whether there is no address besides the sender's. -/
def hasNoAddress (tx : Transaction) : Bool :=
  tx.owner.isNone && tx.receiver.isNone

/-- Whether a receiver is the only address besides the sender's. -/
def hasOneAddress (tx : Transaction) : Bool :=
  tx.owner.isNone && tx.receiver.isSome

/-- Whether there are an owner and a receiver. -/
def hasTwoAddresses (tx : Transaction) : Bool :=
  tx.owner.isSome && tx.receiver.isSome

/-- The amount of tokens. -/
def tokenAmount? (tx : Transaction) : Option TokenAmount :=
  tx.amount.bind Amount.token?

/-- The amount of the base currency. -/
def nativeAmount? (tx : Transaction) : Option NativeAmount :=
  tx.amount.bind Amount.native?

/-- Whether there is a signature. -/
def isSigned (tx : Transaction) : Bool :=
  tx.signature.isSome

/-- The Base64 text of the signature, by which the ledger remembers it. -/
def signatureText? (tx : Transaction) : Option String :=
  tx.signature.map fun bytes => String.ofList (Base64.encode bytes)

/-- Whether two transactions are the same: signed alike under one number. -/
def same (a b : Transaction) : Bool :=
  match a.signature, b.signature with
  | some x, some y => a.id == b.id && x == y
  | _, _ => false

/-- The text of a transaction in a diagnostic; addresses and signature are left out. -/
def shown (tx : Transaction) : String :=
  let amount := match tx.amount with
    | some amount => s!"Some({amount.shown})"
    | none => "None"
  s!"Transaction \x7b id: {tx.id}, operation: {tx.operation.shown}, amount: {amount}, " ++
    s!"signed: {tx.isSigned}, .. \x7d"

end Transaction

end Admission
