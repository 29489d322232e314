import Admission.Json.Name
import Admission.Main
import Admission.Proofs.Address
import Admission.Proofs.Amount.Display
import Admission.Proofs.Amount.Native
import Admission.Proofs.Amount.Token
import Admission.Proofs.Amount.Wei
import Admission.Proofs.Crypto.Ecdsa
import Admission.Proofs.Crypto.Group
import Admission.Proofs.Crypto.LowForm
import Admission.Proofs.Crypto.Modular
import Admission.Proofs.Crypto.Primes
import Admission.Proofs.Json.Numeral
import Admission.Proofs.Json.Object
import Admission.Proofs.Key
import Admission.Proofs.Key.Text
import Admission.Proofs.Ledger.Admissible
import Admission.Proofs.Ledger.Agreement
import Admission.Proofs.Ledger.Answers
import Admission.Proofs.Ledger.Batch
import Admission.Proofs.Ledger.Configured
import Admission.Proofs.Ledger.Delivery
import Admission.Proofs.Ledger.Order
import Admission.Proofs.Ledger.Race
import Admission.Proofs.Ledger.Reencoding
import Admission.Proofs.Ledger.Relabelling
import Admission.Proofs.Ledger.Replay
import Admission.Proofs.Ledger.Sender
import Admission.Proofs.Ledger.Verdict
import Admission.Proofs.Number.Characters
import Admission.Proofs.Number.Decade
import Admission.Proofs.Number.Rounding
import Admission.Proofs.Number.Shortest
import Admission.Proofs.Outcome
import Admission.Proofs.Text.Base64
import Admission.Proofs.Text.Hex
import Admission.Proofs.Transaction.Binding
import Admission.Proofs.Transaction.Fields
import Admission.Proofs.Wire.RoundTrip
import Admission.Proofs.Source.Path
import Admission.Proofs.Wire.Spelling
import Admission.Proofs.Wire.Canonical
import Admission.Proofs.Json.Grammar
import Admission.Proofs.Json.Compact
import Admission.Proofs.Wire.Layout
import Admission.Proofs.Command.Verify
import Admission.Proofs.Config.Text
import Admission.Proofs.Command.Sign
import Admission.Proofs.Wire.Acceptance
import Admission.Proofs.Ledger.Registration
import Admission.Proofs.Wire.Signature
import Admission.Proofs.Ledger.Authenticity
import Admission.Proofs.Transaction.Signing
import Admission.Proofs.Transaction.Protection
import Admission.Proofs.Ledger.Identity
