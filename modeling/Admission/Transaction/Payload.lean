import Admission.Error
import Admission.Key
import Admission.Transaction

/-!
# Signing payloads

What a sender signs is the transaction's number, selector, owner, receiver and amount, joined by
commas; what is absent is left out with its comma. The `legacy` scheme leaves native amounts out,
the other writes them in wei. A payload needs a selector and a finite token amount.
-/

namespace Admission

open Admission.Text Admission.Crypto

/-- Whether native amounts are signed. -/
inductive SigningScheme where
  | legacy
  | includeNativeAmount
deriving DecidableEq, Repr

namespace SigningScheme

/-- All schemes, in their fixed order. -/
def all : List SigningScheme := [legacy, includeNativeAmount]

/-- The name of a scheme in configurations and on the command line. -/
def name : SigningScheme → String
  | legacy => "legacy"
  | includeNativeAmount => "include-native-amount"

/-- The scheme of a name. -/
def ofName? (name : String) : Option SigningScheme :=
  all.find? fun s => s.name == name

/-- Each scheme is found by its name. -/
theorem ofName?_name (s : SigningScheme) : ofName? s.name = some s := by
  cases s <;> decide

end SigningScheme

namespace Transaction

/-- The field that an amount adds to a payload, if it adds one. -/
def amountField (scheme : SigningScheme) (tx : Transaction) :
    Except EncodingFault (List (List Char)) :=
  match tx.amount, scheme with
  | some (.token amount), _ => amount.canonical.map ([·])
  | some (.native amount), .includeNativeAmount => .ok [amount.weiText.toList]
  | _, _ => .ok []

/-- The fields of a payload, in order. -/
def payloadFields (scheme : SigningScheme) (tx : Transaction) :
    Except EncodingFault (List (List Char)) :=
  if tx.operation.selector = "" then .error .emptySelector
  else (tx.amountField scheme).map fun amount =>
    [Digits.write tx.id.toNat, tx.operation.selector.toList]
      ++ (tx.owner.toList ++ tx.receiver.toList).map (fun a => a.toText.toList) ++ amount

/-- The text that a sender signs. -/
def payloadText (scheme : SigningScheme) (tx : Transaction) : Except EncodingFault (List Char) :=
  (tx.payloadFields scheme).map fun fields => List.intercalate [','] fields

/-- The bytes that a sender signs. -/
def payload (scheme : SigningScheme) (tx : Transaction) : Except EncodingFault (List UInt8) :=
  (tx.payloadText scheme).map utf8

/-- The transaction with this signature. -/
def withSignature (tx : Transaction) (bytes : List UInt8) : Transaction :=
  { tx with signature := some bytes }

/-- The transaction signed with a secret key. -/
def sign (scheme : SigningScheme) (key : SecretKey) (tx : Transaction) :
    Except EncodingFault Transaction :=
  (tx.payload scheme).map fun payload => tx.withSignature (key.sign payload)

/-- Signs a transaction in its place. Payload and signature are there before anything is written. -/
def signHere (scheme : SigningScheme) (key : SecretKey) : EStateM Error Transaction Unit := do
  let tx ← get
  let payload ← ofExcept ((tx.payload scheme).mapError .encoding)
  let signature ← ofExcept ((key.signDigest (Sha256.digest payload)).mapError .crypto)
  set (tx.withSignature signature)

/-- A payload does not depend on the signature. -/
theorem payload_withSignature (scheme : SigningScheme) (tx : Transaction) (bytes : List UInt8) :
    (tx.withSignature bytes).payload scheme = tx.payload scheme := rfl

end Transaction

end Admission
