import Admission.Command
import Admission.Config.Reader
import Admission.Validator
import Admission.Wire.Json

/-!
# What commands report

A command prints to its output, may warn, and ends with a code: zero, one if it failed or its
transaction is not admitted, two if the arguments break the rules. Files are given as a function
from names, and key generation is given a fresh key, so that a report is a value.
-/

namespace Admission

/-- Why a command failed. -/
inductive Failure where
  | transactionFile (name : String) (fault : Source.Fault)
  | error (error : Error)
deriving DecidableEq

/-- Whether an error has no words of this library: it lies in the reading of a text. -/
def Error.isWordless : Error → Bool
  | .decoding (.json _) => true
  | .config .unreadable => true
  | _ => false

/-- The text of an error in a diagnostic. -/
def Error.shown (e : Error) : String :=
  if e.isWordless then e.kind else s!"{e.kind}({Text.Quoted.text e.cause})"

/-- The text of a failure. -/
def Failure.shown : Failure → String
  | .transactionFile name fault =>
    Text.Quoted.text s!"Cannot read transaction file {name}: {fault.message}"
  | .error e => e.shown

/-- What a command leaves behind. -/
structure Report where
  output : String
  warning : Option String
  failure : Option Failure
  code : Nat
deriving DecidableEq

namespace Report

/-- A command that printed a line. -/
def line (text : String) : Report := ⟨text ++ "\n", none, none, 0⟩

/-- A command that failed. -/
def failed (failure : Failure) : Report := ⟨"", none, some failure, 1⟩

/-- Arguments that ask for nothing. -/
def misused : Report := ⟨"", none, none, 2⟩

/-- The report of what may have failed. -/
def ofResult : Except Failure Report → Report
  | .ok report => report
  | .error failure => failed failure

end Report

namespace Command

/-- The files that a command can read, by name. -/
abbrev Files := String → Source

/-- Turns an error of the library into a failure. -/
def orFail {ε α : Type} (wrap : ε → Error) : Except ε α → Except Failure α
  | .ok value => .ok value
  | .error fault => .error (.error (wrap fault))

/-- The transaction of a file. -/
def readTransaction (files : Files) (name : String) : Except Failure Transaction :=
  match (files name).text with
  | .error fault => .error (.transactionFile name fault)
  | .ok text => orFail .decoding (Transaction.ofJson text)

/-- The lines about a new key. -/
def keyReport (key : SecretKey) : Report :=
  .line <| "\n".intercalate [
    s!"Secret key: {key.toText}",
    s!"Public key: {key.verificationKey.toText}",
    s!"Address:    {key.address.toText}"]

/-- The payload of a transaction. -/
def payloadReport (files : Files) (file : String) (scheme : SigningScheme) :
    Except Failure Report := do
  let tx ← readTransaction files file
  let text ← orFail .encoding (tx.payloadText scheme)
  .ok (.line (String.ofList text))

/-- The warning about a key that is not the sender's. -/
def senderWarning? (tx : Transaction) (key : SecretKey) : Option String :=
  if tx.sender = key.address then none
  else some s!"sender {tx.sender.toText} does not match key address {key.address.toText}"

/-- The signed transaction as a line. -/
def signedReport (key : SecretKey) (scheme : SigningScheme) (tx : Transaction) :
    Except Failure Report := do
  let signed ← orFail .encoding (tx.sign scheme key)
  let text ← orFail .encoding signed.toJson
  .ok (.line text)

/-- The signed transaction of a file. The secret is judged before the file. -/
def signReport (files : Files) (secret file : String) (scheme : SigningScheme) :
    Except Failure Report := do
  let key ← orFail .crypto (SecretKey.ofText secret)
  let tx ← readTransaction files file
  .ok { Report.ofResult (signedReport key scheme tx) with warning := senderWarning? tx key }

/-- The verdict on a transaction. -/
def verdictReport (tx : Transaction) : Except Rejection TransactionType → Report
  | .ok type => .line s!"ADMITTED transaction {tx.id} as {type.name}"
  | .error reason =>
    { Report.line s!"REJECTED transaction {tx.id} ({reason.kind.name}): {reason.message}" with
      code := 1 }

/-- The verdict on the transaction of a file, on the ledger of a configuration. -/
def verifyReport (files : Files) (config file : String) : Except Failure Report := do
  let config ← orFail id (Config.load (files config))
  let ledger ← orFail id (Ledger.ofConfig config)
  let tx ← readTransaction files file
  .ok (verdictReport tx
    ((Validator.mk config.node.scheme).validate ledger.view KeyManager.secp256k1 tx))

/-- Carries out a command. -/
def report (fresh : SecretKey) (files : Files) : Command → Report
  | keygen => keyReport fresh
  | payload file scheme => .ofResult (payloadReport files file scheme)
  | sign secret file scheme => .ofResult (signReport files secret file scheme)
  | verify config file => .ofResult (verifyReport files config file)

/-- Carries out what arguments ask for. -/
def reportOf (fresh : SecretKey) (files : Files) (arguments : List String) : Report :=
  match ofArguments? arguments with
  | some command => command.report fresh files
  | none => .misused

end Command

end Admission
