import Keyring.Address
import Keyring.Disk.Error
import Keyring.Keyfile.Error
import Keyring.Path

/-!
# Why an operation on accounts fails

The causes and their wording. Failures of stored files are told with the path and what the system
says.
-/

namespace Keyring

/-- Why an operation on accounts fails. Reference: `AccountError`. -/
inductive AccountError where
  | io (path : Path) (source : IoError)
  | invalidCredentials (cause : Keyfile.Error)
  | accountNotFound (address : Address)
  | locked (address : Address)
  | unlockExpired (address : Address)
  | invalidPrivateKey
  /-- A digest of another length than thirty-two bytes is to be signed. -/
  | invalidMessage (length : Nat)
  | signing (reason : String)

namespace AccountError

/-- The wording for a keyfile that is not opened for the given reason. -/
def credentialsText (reason : String) : String :=
  "Invalid credentials: " ++ reason

/-- The wording of a cause. -/
def message : AccountError → String
  | io path source => "I/O error at " ++ path.display ++ ": " ++ source.text
  | invalidCredentials cause => credentialsText cause.message
  | accountNotFound address => "Account " ++ address.text ++ " not found"
  | locked address => "Password not specified for locked account " ++ address.text
  | unlockExpired address => "Unlock period expired for account " ++ address.text
  | invalidPrivateKey => "Invalid private key"
  | invalidMessage length =>
    "Message to sign without hashing must be 32 bytes, got " ++ toString length
  | signing reason => "Signing failed: " ++ reason

end AccountError

end Keyring
