import Keyring.Address
import Keyring.Cli.Numeral

/-!
# What can be given on the command line

Options are given by their names, the others by their order. Some may be given by a variable of the
environment instead, and some have a value unless they are given. Texts are refused that do not stand
for a value of their parameter.
-/

namespace Keyring.Cli

/-- What can be given on the command line. -/
inductive Parameter where
  | keystore
  | password
  | kdfIterations
  | address
  | message
  | raw
  | keyfile
  | privateKey
  | newPassword
  | recipient
  | value
  | nonce
  | gasLimit
  | gasPrice
  | chainId
  | data
deriving DecidableEq

/-- Why a command line is refused, or not carried out. -/
inductive Usage where
  /-- A text stands for no value of the parameter. -/
  | badValue (parameter : Parameter)
  /-- There is no value, or an empty one where that means nothing. -/
  | emptyValue (parameter : Parameter)
  | missing (parameters : List Parameter)
  /-- The parameter is given twice, or beside another one that excludes it. -/
  | conflict (parameter : Parameter)
  | unknownArgument (word : String)
  /-- A value is attached to what takes none. -/
  | unwantedValue (shown : String)
  | unknownCommand
  | missingCommand
  | help
  /-- Nothing at all is given. -/
  | helpForMissing
deriving DecidableEq

namespace Parameter

/-- The name of the parameter in words. -/
def words : Parameter → String
  | keystore => "keystore"
  | password => "password"
  | kdfIterations => "kdf-iterations"
  | address => "address"
  | message => "message"
  | raw => "raw"
  | keyfile => "keyfile"
  | privateKey => "private-key"
  | newPassword => "new-password"
  | recipient => "to"
  | value => "value"
  | nonce => "nonce"
  | gasLimit => "gas-limit"
  | gasPrice => "gas-price"
  | chainId => "chain-id"
  | data => "data"

/-- The parameter is given by its order. -/
def isPositional : Parameter → Bool
  | address | message => true
  | _ => false

/-- The parameter is given with a value. -/
def takesValue (p : Parameter) : Bool :=
  p ≠ raw

/-- What stands for the value where the parameter is shown. -/
def valueName (p : Parameter) : String :=
  String.ofList (p.words.toList.map fun c => if c = '-' then '_' else c.toUpper)

/-- How the parameter is shown. -/
def shown (p : Parameter) : String :=
  if p.isPositional then "<" ++ p.valueName ++ ">"
  else if p.takesValue then "--" ++ p.words ++ " <" ++ p.valueName ++ ">"
  else "--" ++ p.words

/-- The variable that gives the parameter if the command line does not. -/
def fromVariable? : Parameter → Option String
  | keystore => some "MEOW_KEYSTORE"
  | password => some "MEOW_PASSWORD"
  | privateKey => some "MEOW_PRIVATE_KEY"
  | newPassword => some "MEOW_NEW_PASSWORD"
  | _ => none

/-- The number of iterations that a text tells. -/
def readIterations (text : String) : Option UInt32 :=
  (signed? (2 ^ 32) text.toList).map UInt32.ofNat

/-- The number of sixty-four bits that a text tells. -/
def readWord (text : String) : Option UInt64 :=
  (unsigned? (2 ^ 64) text.toList).map UInt64.ofNat

/-- The price that a text tells. -/
def readPrice (text : String) : Option (BitVec 128) :=
  (unsigned? (2 ^ 128) text.toList).map (BitVec.ofNat 128)

/-- The amount that a text tells. -/
def readAmount (text : String) : Option (BitVec 256) :=
  (prefixed? (2 ^ 256) text.toList).map (BitVec.ofNat 256)

/-- The bytes that hexadecimal digits tell, with or without `0x` or `0X` before them. -/
def readData (text : String) : Option Bytes :=
  Hex.decode? (Address.dropHexMark text.toList)

/-- Refuses a text that stands for no value of the parameter. -/
def check (p : Parameter) (text : String) : Except Usage Unit :=
  let require (isValue : Bool) : Except Usage Unit :=
    if isValue then .ok () else .error (.badValue p)
  match p with
  | keystore | keyfile => if text = "" then .error (.emptyValue p) else .ok ()
  | password | message | raw | privateKey | newPassword => .ok ()
  | kdfIterations => require (readIterations text).isSome
  | address | recipient => require (Address.ofText? text).isSome
  | nonce | gasLimit | chainId => require (readWord text).isSome
  | gasPrice => require (readPrice text).isSome
  | value => require (readAmount text).isSome
  | data => require (readData text).isSome

end Parameter

end Keyring.Cli
