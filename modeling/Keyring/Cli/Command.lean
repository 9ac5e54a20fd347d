import Keyring.Cli.Parameter
import Keyring.Path
import Keyring.Transaction

/-!
# Commands

What the program can be told to do. A command has parameters of its own, some of which have to be
given, beside those of the program.
-/

namespace Keyring.Cli

/-- The names of the commands. -/
inductive CommandName where
  | new
  | list
  | importAccount
  | exportKey
  | update
  | delete
  | signMessage
  | signTransaction
deriving DecidableEq

namespace CommandName

/-- How a name is written. -/
def text : CommandName → String
  | new => "new"
  | list => "list"
  | importAccount => "import"
  | exportKey => "export"
  | update => "update"
  | delete => "delete"
  | signMessage => "sign-message"
  | signTransaction => "sign-tx"

/-- The names of all commands. -/
def all : List CommandName :=
  [new, list, importAccount, exportKey, update, delete, signMessage, signTransaction]

/-- The command by a name. -/
def ofText? (word : String) : Option CommandName :=
  all.find? fun name => name.text = word

/-- The parameters of a command beside those of the program. -/
def parameters : CommandName → List Parameter
  | new | list => []
  | importAccount => [.keyfile, .privateKey, .newPassword]
  | exportKey | delete => [.address]
  | update => [.address, .newPassword]
  | signMessage => [.address, .message, .raw]
  | signTransaction =>
    [.address, .recipient, .value, .nonce, .gasLimit, .gasPrice, .chainId, .data]

/-- The parameters that have to be given. -/
def required : CommandName → List Parameter
  | new | list | importAccount => []
  | exportKey | delete => [.address]
  | update => [.address, .newPassword]
  | signMessage => [.address, .message]
  | signTransaction => [.address, .recipient, .nonce, .gasPrice]

end CommandName

/-- Where an imported key comes from. -/
inductive KeySource where
  | file (path : Path)
  | secret (text : String)

/-- What the program is told to do. Reference: `Command`. -/
inductive Command where
  | new
  | list
  | importAccount (source : KeySource) (newPassword : Option String)
  | exportKey (address : Address)
  | update (address : Address) (newPassword : String)
  | delete (address : Address)
  | signMessage (address : Address) (message : String) (raw : Bool)
  | signTransaction (sender : Address) (tx : LegacyTransaction)

/-- What a command line says. Reference: `Cli`. -/
structure Invocation where
  keystore : Option Path
  password : Option String
  kdfIterations : UInt32
  command : Command

end Keyring.Cli
