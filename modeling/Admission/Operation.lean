import Admission.Fault

/-!
# Operations

The ledger knows eleven transaction types. Each has a name, most are called through a function of
the token contract, and each asks for certain arguments: which addresses besides the sender's, and
which kind of amount. An operation names its type directly or gives the signature of a contract
function, which a table resolves to a type.
-/

namespace Admission

/-- What a transaction can ask the ledger to do. -/
inductive TransactionType where
  | addToBlacklist
  | isBlacklisted
  | removeFromBlacklist
  | balanceOf
  | nativeBalance
  | approve
  | transfer
  | nativeTransfer
  | allowance
  | transferFrom
  | totalSupply
deriving DecidableEq, Repr

/-- The addresses that a type asks for besides the sender's. -/
inductive AddressNeed where
  | none
  | receiver
  | ownerAndReceiver
deriving DecidableEq, Repr

/-- The kind of amount that a type asks for. -/
inductive AmountNeed where
  | absent
  | token
  | native
deriving DecidableEq, Repr

/-- The arguments that a type asks for. -/
structure Shape where
  addresses : AddressNeed
  amount : AmountNeed
deriving DecidableEq, Repr

namespace TransactionType

/-- All types, in their fixed order. -/
def all : List TransactionType :=
  [addToBlacklist, isBlacklisted, removeFromBlacklist, balanceOf, nativeBalance, approve, transfer,
    nativeTransfer, allowance, transferFrom, totalSupply]

/-- The name of a type, in records and payloads. -/
def name : TransactionType → String
  | addToBlacklist => "ADD_TO_BLACKLIST"
  | isBlacklisted => "IS_BLACKLISTED"
  | removeFromBlacklist => "REMOVE_FROM_BLACKLIST"
  | balanceOf => "BALANCE_OF"
  | nativeBalance => "NATIVE_BALANCE"
  | approve => "APPROVE"
  | transfer => "TRANSFER"
  | nativeTransfer => "NATIVE_TRANSFER"
  | allowance => "ALLOWANCE"
  | transferFrom => "TRANSFER_FROM"
  | totalSupply => "TOTAL_SUPPLY"

/-- The name of a type in a diagnostic. -/
def shown : TransactionType → String
  | addToBlacklist => "AddToBlacklist"
  | isBlacklisted => "IsBlacklisted"
  | removeFromBlacklist => "RemoveFromBlacklist"
  | balanceOf => "BalanceOf"
  | nativeBalance => "NativeBalance"
  | approve => "Approve"
  | transfer => "Transfer"
  | nativeTransfer => "NativeTransfer"
  | allowance => "Allowance"
  | transferFrom => "TransferFrom"
  | totalSupply => "TotalSupply"

/-- The signature of the contract function that carries out a type; the native types have none. -/
def contractSignature? : TransactionType → Option String
  | addToBlacklist => some "addToBlacklist(address)"
  | isBlacklisted => some "isBlacklisted(address)"
  | removeFromBlacklist => some "removeFromBlacklist(address)"
  | balanceOf => some "balanceOf(address)"
  | nativeBalance => none
  | approve => some "approve(address,uint256)"
  | transfer => some "transfer(address,uint256)"
  | nativeTransfer => none
  | allowance => some "allowance(address,address)"
  | transferFrom => some "transferFrom(address,address,uint256)"
  | totalSupply => some "totalSupply()"

/-- The arguments that a type asks for. -/
def shape : TransactionType → Shape
  | addToBlacklist => ⟨.receiver, .absent⟩
  | isBlacklisted => ⟨.receiver, .absent⟩
  | removeFromBlacklist => ⟨.receiver, .absent⟩
  | balanceOf => ⟨.receiver, .absent⟩
  | nativeBalance => ⟨.receiver, .absent⟩
  | approve => ⟨.receiver, .token⟩
  | transfer => ⟨.receiver, .token⟩
  | nativeTransfer => ⟨.receiver, .native⟩
  | allowance => ⟨.ownerAndReceiver, .absent⟩
  | transferFrom => ⟨.ownerAndReceiver, .token⟩
  | totalSupply => ⟨.none, .absent⟩

/-- The type of a name. -/
def ofName? (name : String) : Option TransactionType :=
  all.find? fun t => t.name == name

/-- The type of a name, or the fault that there is none. -/
def ofName (name : String) : Except DecodingFault TransactionType :=
  match ofName? name with
  | some t => .ok t
  | none => .error (.unknownType name)

/-- Every type is in the list. -/
theorem mem_all (t : TransactionType) : t ∈ all := by
  cases t <;> decide

/-- Each type is found by its name. -/
theorem ofName?_name (t : TransactionType) : ofName? t.name = some t := by
  cases t <;> decide

end TransactionType

/-- What a transaction invokes. -/
inductive Operation where
  /-- A function of the token contract, by its signature. -/
  | call (signature : String)
  /-- A type, named directly. -/
  | native (type : TransactionType)
deriving DecidableEq, Repr

namespace Operation

/-- The text that stands for the operation in a payload. -/
def selector : Operation → String
  | call signature => signature
  | native type => type.name

/-- The signature of a contract call. -/
def call? : Operation → Option String
  | call signature => some signature
  | native _ => none

/-- The type that is named directly. -/
def native? : Operation → Option TransactionType
  | call _ => none
  | native type => some type

/-- The text of an operation in a diagnostic. -/
def shown : Operation → String
  | call signature => s!"ContractCall({Text.Quoted.text signature})"
  | native type => s!"Native({type.shown})"

end Operation

end Admission
