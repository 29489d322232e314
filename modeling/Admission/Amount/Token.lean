import Admission.Fault

/-!
# Token amounts

Contract calls carry a binary floating-point amount. Its *canonical* text goes into what is signed:
`10 ^ -3` up to `10 ^ 7` are written in place, other powers after a capital `E`, and there is always
a digit after the point. Amounts that are not finite have neither this text nor a JSON number.
-/

namespace Admission

open Admission.Number

/-- An amount of tokens. -/
structure TokenAmount where
  value : Binary64
deriving DecidableEq, Repr

namespace TokenAmount

/-- The layout of canonical texts; a tie between two shortest decimals goes up. -/
def canonicalLayout : Layout := ⟨-3, 7, 'E', false, true, .up⟩

/-- The canonical text of a finite amount. -/
def canonical (a : TokenAmount) : Except EncodingFault (List Char) :=
  if a.value.isFinite then .ok (canonicalLayout.finiteText a.value)
  else .error (.unwritable a.value)

/-- The JSON number of a finite amount. -/
def toNumber (a : TokenAmount) : Except EncodingFault Binary64 :=
  if a.value.isFinite then .ok a.value else .error (.noNumber a.value)

/-- The text of an amount in a diagnostic. -/
def shown (a : TokenAmount) : String :=
  s!"TokenAmount({Layout.diagnostic.text a.value})"

end TokenAmount

end Admission
