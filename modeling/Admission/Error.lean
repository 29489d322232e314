import Admission.Address

/-!
# Errors

What any part of the library reports to a caller, by the activity that failed. An error's words are
a heading for the activity and the words of the cause.
-/

namespace Admission

/-- What is wrong with a configuration. -/
inductive ConfigFault where
  /-- The text breaks the grammar, or a value has the wrong kind. -/
  | unreadable
  | blankLogLevel
  | clientAddress (id : UInt32) (fault : DecodingFault)
  | clientKey (id : UInt32) (fault : DecodingFault)
  | repeatedAddress (address : Address)
  | function (signature : String) (fault : DecodingFault)
deriving DecidableEq

/-- Why something could not be done. -/
inductive Error where
  | decoding (fault : DecodingFault)
  | encoding (fault : EncodingFault)
  | crypto (fault : CryptoFault)
  | config (fault : ConfigFault)
  | io (reason : String)
deriving DecidableEq

/-- A decoding fault under its heading. -/
def DecodingFault.report (fault : DecodingFault) : String :=
  s!"Decoding error: {fault.message}"

/-- An encoding fault under its heading. -/
def EncodingFault.report (fault : EncodingFault) : String :=
  s!"Encoding error: {fault.message}"

/-- A fault of a key or signature under its heading. -/
def CryptoFault.report (fault : CryptoFault) : String :=
  s!"Cryptographic error: {fault.message}"

/-- The words for a fault of a configuration. An unreadable text has no words beyond its kind. -/
def ConfigFault.message : ConfigFault → String
  | .unreadable => "unreadable configuration"
  | .blankLogLevel => "node.log_level must not be empty"
  | .clientAddress id fault => s!"Client {id} address: {fault.report}"
  | .clientKey id fault => s!"Client {id} public key: {fault.report}"
  | .repeatedAddress address => s!"Client address {address.toText} is registered twice"
  | .function signature fault => s!"Function '{signature}': {fault.report}"

namespace Error

/-- The words for the cause of an error. -/
def cause : Error → String
  | decoding fault => fault.message
  | encoding fault => fault.message
  | crypto fault => fault.message
  | config fault => fault.message
  | io reason => reason

/-- The words for an error. -/
def message : Error → String
  | decoding fault => fault.report
  | encoding fault => fault.report
  | crypto fault => fault.report
  | config fault => s!"Configuration error: {fault.message}"
  | io reason => s!"IO error: {reason}"

/-- The name of an error's kind. -/
def kind : Error → String
  | decoding _ => "DecodingError"
  | encoding _ => "EncodingError"
  | crypto _ => "CryptoError"
  | config _ => "ConfigError"
  | io _ => "IoError"

end Error

end Admission
