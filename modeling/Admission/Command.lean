import Admission.Transaction.Payload

/-!
# Commands

The program is asked for one of four things by its arguments: a verb and the options that the verb
takes. An option is given once, as `--name=value` or as `--name` and the value after it, which then
must not look like an option itself; a closing `--` says that no more options follow.
-/

namespace Admission

/-- What the program is asked to do. -/
inductive Command where
  /-- Make a pair of keys. -/
  | keygen
  /-- Print what the signature of a transaction covers. -/
  | payload (file : String) (scheme : SigningScheme)
  /-- Sign a transaction and print it. -/
  | sign (secret file : String) (scheme : SigningScheme)
  /-- Tell whether a transaction would be admitted. -/
  | verify (config file : String)
deriving DecidableEq, Repr

namespace Command

/-! ## Options -/

/-- The options of all verbs. -/
inductive Flag where
  | config
  | scheme
  | secretKey
  | tx
deriving DecidableEq, Repr

/-- The name of an option. -/
def Flag.name : Flag → String
  | config => "config"
  | scheme => "scheme"
  | secretKey => "secret-key"
  | tx => "tx"

/-- The values of options that have been given. -/
abbrev Settings := List (Flag × String)

/-- The settings with one more option; none if the option was given before. -/
def give (settings : Settings) (flag : Flag) (value : String) : Option Settings :=
  if (settings.lookup flag).isSome then none else some ((flag, value) :: settings)

/-- The option of a name among those that a verb takes. -/
def flag? (flags : List Flag) (name : String) : Option Flag :=
  flags.find? fun f => f.name == name

/-- The name and the value of an argument that is an option; the value may follow later. -/
def splitOption? : List Char → Option (String × Option String)
  | '-' :: '-' :: body =>
    let name := String.ofList (body.takeWhile (· != '='))
    match body.dropWhile (· != '=') with
    | [] => some (name, none)
    | _ :: value => some (name, some (String.ofList value))
  | _ => none

/-- Whether an argument cannot be the value of the option before it. -/
def looksLikeOption (argument : String) : Bool :=
  match argument.toList with
  | '-' :: _ :: _ => true
  | _ => false

/-- Takes options to the end of the arguments. -/
def readOptions (flags : List Flag) (settings : Settings) : List String → Option Settings
  | [] => some settings
  | ["--"] => some settings
  | argument :: rest =>
    match splitOption? argument.toList with
    | none => none
    | some (name, value?) => match flag? flags name with
      | none => none
      | some flag => match value?, rest with
        | some value, rest => (give settings flag value).bind fun settings =>
          readOptions flags settings rest
        | none, [] => none
        -- The value is the next argument, unless that is meant as an option.
        | none, value :: rest =>
          if looksLikeOption value then none
          else (give settings flag value).bind fun settings => readOptions flags settings rest

/-! ## Values of options -/

/-- The name of a file; it must not be empty. -/
def fileName? (name : String) : Option String :=
  if name = "" then none else some name

/-- The transaction's file, which must be given. -/
def transactionFile? (settings : Settings) : Option String :=
  (settings.lookup .tx).bind fileName?

/-- The configuration's file. -/
def configFile? (settings : Settings) : Option String :=
  fileName? ((settings.lookup .config).getD "config.toml")

/-- The signing scheme. -/
def scheme? (settings : Settings) : Option SigningScheme :=
  SigningScheme.ofName? ((settings.lookup .scheme).getD SigningScheme.legacy.name)

/-! ## Verbs -/

/-- The command of a verb with its options. -/
def ofVerb? (verb : String) (arguments : List String) : Option Command :=
  match verb with
  | "keygen" => do
    let _ ← readOptions [] [] arguments
    some .keygen
  | "payload" => do
    let settings ← readOptions [.tx, .scheme] [] arguments
    some (.payload (← transactionFile? settings) (← scheme? settings))
  | "sign" => do
    let settings ← readOptions [.secretKey, .tx, .scheme] [] arguments
    some (.sign (← settings.lookup .secretKey) (← transactionFile? settings) (← scheme? settings))
  | "verify" => do
    let settings ← readOptions [.config, .tx] [] arguments
    some (.verify (← configFile? settings) (← transactionFile? settings))
  | _ => none

/-- The command that arguments ask for, if they follow the rules. -/
def ofArguments? : List String → Option Command
  | [] => none
  | verb :: arguments => ofVerb? verb arguments

end Command

end Admission
