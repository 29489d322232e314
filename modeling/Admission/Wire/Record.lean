import Admission.Transaction.Payload

/-!
# Records of transactions

Parties exchange a transaction as a record of nine fields. Addresses are texts, an operation is a
function signature or a type name, an amount is a number of tokens or a text in the display unit,
and a signature is Base64. Decoding judges the fields in a fixed order and reports the first fault.
-/

namespace Admission.Wire

open Admission.Text Admission.Number

/-- A transaction as it is exchanged. -/
structure Record where
  transactionId : UInt64
  functionSignature : Option String
  nativeOperation : Option String
  senderAddress : String
  receiverAddress : Option String
  ownerAddress : Option String
  amount : Option Binary64
  weiAmount : Option String
  signature : Option String
deriving DecidableEq, Repr

/-! ## Single fields -/

/-- Names the field that a fault lies in. -/
def inField {α : Type} (field : String) : Except DecodingFault α → Except DecodingFault α
  | .ok value => .ok value
  | .error fault => .error (.field field fault)

/-- Decodes a field that may be absent. -/
def decodeOptional {α β : Type} (decode : α → Except DecodingFault β) :
    Option α → Except DecodingFault (Option β)
  | none => .ok none
  | some value => (decode value).map some

/-- The address of a field. -/
def decodeAddress (field value : String) : Except DecodingFault Address :=
  inField field (Address.ofText value)

/-- The address of a field that may be absent. -/
def decodeOptionalAddress (field : String) (value : Option String) :
    Except DecodingFault (Option Address) :=
  decodeOptional (decodeAddress field) value

/-- The operation of a function signature or a type name; exactly one of them must be there. -/
def decodeOperation : Option String → Option String → Except DecodingFault Operation
  | some signature, none => .ok (.call signature)
  | none, some name => (inField "nativeOperation" (TransactionType.ofName name)).map .native
  | some _, some _ => .error .bothOperations
  | none, none => .error .noOperation

/-- The native amount of a text in the display unit. -/
def decodeNativeAmount (value : String) : Except DecodingFault NativeAmount :=
  inField "weiAmount" (NativeAmount.ofDisplay value)

/-- The amount of a number of tokens or a text in the display unit; at most one may be there. -/
def decodeAmount : Option Binary64 → Option String → Except DecodingFault (Option Amount)
  | none, none => .ok none
  | some tokens, none => .ok (some (.token ⟨tokens⟩))
  | none, some wei => (decodeNativeAmount wei).map fun amount => some (.native amount)
  | some _, some _ => .error .bothAmounts

/-- The bytes of a Base64 text. -/
def decodeSignature (value : String) : Except DecodingFault (List UInt8) :=
  match Base64.decode value.toList with
  | .ok bytes => .ok bytes
  | .error fault => .error (.signature fault)

/-- The Base64 text of bytes. -/
def encodeSignature (bytes : List UInt8) : String :=
  String.ofList (Base64.encode bytes)

/-! ## Whole records -/

/-- The transaction of a record. -/
def Record.decode (r : Record) : Except DecodingFault Transaction := do
  let sender ← decodeAddress "senderAddress" r.senderAddress
  let operation ← decodeOperation r.functionSignature r.nativeOperation
  let owner ← decodeOptionalAddress "ownerAddress" r.ownerAddress
  let receiver ← decodeOptionalAddress "receiverAddress" r.receiverAddress
  let amount ← decodeAmount r.amount r.weiAmount
  let signature ← decodeOptional decodeSignature r.signature
  .ok ⟨r.transactionId, sender, operation, owner, receiver, amount, signature⟩

/-- The number of tokens of a record. -/
def tokenField : Option Amount → Except EncodingFault (Option Binary64)
  | some (.token amount) => amount.toNumber.map some
  | _ => .ok none

/-- The record of a transaction; a token amount must be finite. -/
def Record.ofTransaction (tx : Transaction) : Except EncodingFault Record :=
  (tokenField tx.amount).map fun tokens =>
    { transactionId := tx.id
      functionSignature := tx.operation.call?
      nativeOperation := tx.operation.native?.map TransactionType.name
      senderAddress := tx.sender.toText
      receiverAddress := tx.receiver.map Address.toText
      ownerAddress := tx.owner.map Address.toText
      amount := tokens
      weiAmount := tx.nativeAmount?.map NativeAmount.toDisplay
      signature := tx.signature.map encodeSignature }

/-! ## Diagnostics -/

/-- A field that may be absent, in a diagnostic. -/
def shownOptional {α : Type} (render : α → String) : Option α → String
  | none => "None"
  | some value => s!"Some({render value})"

/-- The text of a record in a diagnostic. -/
def Record.shown (r : Record) : String :=
  let text := shownOptional Quoted.text
  "WireTransaction \x7b " ++ ", ".intercalate [
    s!"transaction_id: {r.transactionId}",
    s!"function_signature: {text r.functionSignature}",
    s!"native_operation: {text r.nativeOperation}",
    s!"sender_address: {Quoted.text r.senderAddress}",
    s!"receiver_address: {text r.receiverAddress}",
    s!"owner_address: {text r.ownerAddress}",
    s!"amount: {shownOptional Layout.diagnostic.text r.amount}",
    s!"wei_amount: {text r.weiAmount}",
    s!"signature: {text r.signature}"] ++ " \x7d"

end Admission.Wire
