import Admission.Json.Reader
import Admission.Json.Writer
import Admission.Wire.Record

/-!
# Records as JSON

A record is an object with its fields as members, or an array of their values in the fixed order.
Absent fields are left out in writing; in reading, null stands for absent, members with other names
are passed over, and a name may come only once. An array may end early where the fields that follow
may be absent.
-/

namespace Admission.Wire

open Admission.Json Admission.Number

/-! ## Fields -/

/-- The fields of a record. -/
inductive Field where
  | transactionId
  | functionSignature
  | nativeOperation
  | senderAddress
  | receiverAddress
  | ownerAddress
  | amount
  | weiAmount
  | signature
deriving DecidableEq, Repr

namespace Field

/-- All fields, in their fixed order. -/
def all : List Field :=
  [transactionId, functionSignature, nativeOperation, senderAddress, receiverAddress, ownerAddress,
    amount, weiAmount, signature]

/-- The name of a field. -/
def name : Field → String
  | transactionId => "transactionId"
  | functionSignature => "functionSignature"
  | nativeOperation => "nativeOperation"
  | senderAddress => "senderAddress"
  | receiverAddress => "receiverAddress"
  | ownerAddress => "ownerAddress"
  | amount => "amount"
  | weiAmount => "weiAmount"
  | signature => "signature"

/-- The field of a name. -/
def ofName? (name : String) : Option Field :=
  all.find? fun f => f.name == name

/-- The place of a field in the order. -/
def index (f : Field) : Nat :=
  all.idxOf f

/-- Whether a record must have the field. -/
def required : Field → Bool
  | transactionId => true
  | senderAddress => true
  | _ => false

/-- Each field is found by its name. -/
theorem ofName?_name (f : Field) : ofName? f.name = some f := by
  cases f <;> decide

end Field

/-! ## Records under way -/

/-- The fields of a record that have been read so far. A field that was read as null is there, but
has no value. -/
structure Draft where
  transactionId : Option UInt64
  functionSignature : Option (Option String)
  nativeOperation : Option (Option String)
  senderAddress : Option String
  receiverAddress : Option (Option String)
  ownerAddress : Option (Option String)
  amount : Option (Option Binary64)
  weiAmount : Option (Option String)
  signature : Option (Option String)

namespace Draft

/-- The draft before anything has been read. -/
def empty : Draft := ⟨none, none, none, none, none, none, none, none, none⟩

/-- Whether a field has been read. -/
def has (d : Draft) : Field → Bool
  | .transactionId => d.transactionId.isSome
  | .functionSignature => d.functionSignature.isSome
  | .nativeOperation => d.nativeOperation.isSome
  | .senderAddress => d.senderAddress.isSome
  | .receiverAddress => d.receiverAddress.isSome
  | .ownerAddress => d.ownerAddress.isSome
  | .amount => d.amount.isSome
  | .weiAmount => d.weiAmount.isSome
  | .signature => d.signature.isSome

/-- The text of a field that may be absent. -/
def optionalText (t : Tree) : Except Json.Fault (Option String) :=
  t.asOptional (Tree.asText "a string")

/-- Reads a field. -/
def read (d : Draft) (f : Field) (t : Tree) : Except Json.Fault Draft :=
  match f with
  | .transactionId => t.asWord.map fun v => { d with transactionId := some v }
  | .functionSignature => (optionalText t).map fun v => { d with functionSignature := some v }
  | .nativeOperation => (optionalText t).map fun v => { d with nativeOperation := some v }
  | .senderAddress => (t.asText "a string").map fun v => { d with senderAddress := some v }
  | .receiverAddress => (optionalText t).map fun v => { d with receiverAddress := some v }
  | .ownerAddress => (optionalText t).map fun v => { d with ownerAddress := some v }
  | .amount => (t.asOptional Tree.asBinary).map fun v => { d with amount := some v }
  | .weiAmount => (optionalText t).map fun v => { d with weiAmount := some v }
  | .signature => (optionalText t).map fun v => { d with signature := some v }

/-- The record of a draft, with the fault of the first required field that is missing. -/
def finish (d : Draft) (missing : Field → Mismatch) : Except Json.Fault Record :=
  match d.transactionId, d.senderAddress with
  | none, _ => .error (.mismatch (missing .transactionId))
  | some _, none => .error (.mismatch (missing .senderAddress))
  | some id, some sender =>
    .ok {
      transactionId := id
      functionSignature := d.functionSignature.join
      nativeOperation := d.nativeOperation.join
      senderAddress := sender
      receiverAddress := d.receiverAddress.join
      ownerAddress := d.ownerAddress.join
      amount := d.amount.join
      weiAmount := d.weiAmount.join
      signature := d.signature.join }

/-- Reads the members of an object, in the order of the text. -/
def readMembers (d : Draft) : List (Written × Tree) → Except Json.Fault Draft
  | [] => .ok d
  | (written, value) :: rest =>
    match textOf? written with
    | none => .error .malformed
    | some name => match Field.ofName? (String.ofList name) with
      | none => readMembers d rest
      | some field =>
        -- A name that comes again is refused whatever its value is, and before it is read.
        if d.has field then .error (.mismatch (.repeated field.name))
        else match d.read field value with
          | .ok d => readMembers d rest
          | .error fault => .error fault

/-- Reads the items of an array for the fields in order. Items past the last field are no part of a
record. -/
def readItems (d : Draft) : List Field → List Tree → Except Json.Fault Draft
  | _, [] => .ok d
  | [], _ :: _ => .error .malformed
  | field :: fields, value :: rest =>
    match d.read field value with
    | .ok d => readItems d fields rest
    | .error fault => .error fault

end Draft

/-! ## Reading -/

/-- What a record is called where something else stands. -/
def expectedRecord : String := "struct WireTransaction"

/-- The fault of an array that ends before a required field. -/
def shortOf (f : Field) : Mismatch :=
  .short f.index s!"{expectedRecord} with {Field.all.length} elements"

/-- The record of a tree. -/
def Record.ofTree : Tree → Except Json.Fault Record
  | .object members closed => do
    let draft ← Draft.empty.readMembers members
    if closed then draft.finish fun f => .missing f.name else .error .malformed
  | .array items closed => do
    let draft ← Draft.empty.readItems Field.all items
    if closed then draft.finish shortOf else .error .malformed
  | t => t.unexpected expectedRecord

/-- The record of a text. -/
def Record.ofText (text : String) : Except Json.Fault Record :=
  (Document.ofText text.toList).read Record.ofTree

/-! ## Writing -/

/-- A member for a field that may be absent. -/
def optionalMember {α : Type} (f : Field) (render : α → List Char) : Option α → List (List Char)
  | none => []
  | some value => [memberText f.name (render value)]

/-- The written members of a record. -/
def Record.members (r : Record) : List (List Char) :=
  let text := fun (s : String) => stringText s.toList
  memberText Field.transactionId.name (Text.Digits.write r.transactionId.toNat)
    :: optionalMember .functionSignature text r.functionSignature
    ++ optionalMember .nativeOperation text r.nativeOperation
    ++ memberText Field.senderAddress.name (text r.senderAddress)
    :: optionalMember .receiverAddress text r.receiverAddress
    ++ optionalMember .ownerAddress text r.ownerAddress
    ++ optionalMember .amount numberText r.amount
    ++ optionalMember .weiAmount text r.weiAmount
    ++ optionalMember .signature text r.signature

/-- The text of a record. -/
def Record.toText (r : Record) : String :=
  String.ofList (objectText r.members)

end Admission.Wire

/-! ## Transactions as JSON -/

namespace Admission.Transaction

/-- The JSON text of a transaction. -/
def toJson (tx : Transaction) : Except EncodingFault String :=
  (Wire.Record.ofTransaction tx).map Wire.Record.toText

/-- The transaction of a JSON text. -/
def ofJson (text : String) : Except DecodingFault Transaction :=
  match Wire.Record.ofText text with
  | .ok record => record.decode
  | .error fault => .error (.json fault)

end Admission.Transaction
