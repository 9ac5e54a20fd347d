import Keyring.Address.Order
import Keyring.Keyfile.Codec
import Keyring.Storage.Directory

/-!
# The keystore

A keystore keeps one keyfile for each account. Where someone else put several for one account, they
count as one: the first is read, and all of them are removed together. A new password takes effect by
removing the keyfiles and then writing a new one. Random values are arguments.
-/

namespace Keyring

/-- A storage of keyfiles, and how much work it takes to open new ones. Reference: `KeyStore`. -/
structure Keystore (σ : Type) where
  storage : Storage σ
  iterations : UInt32

namespace Keystore

variable (keystore : Keystore σ)

/-- What is shown of a keystore. -/
def summary : String :=
  "KeyStore \x7b location: " ++ Text.quoteName keystore.storage.location.bytes ++ " \x7d"

/-- Writes the keyfile of a key pair. Reference: `persist` of `KeyStore`. -/
def persist (key : KeyPair) (password : String) (fresh : Seal) : Action σ Address := do
  let content := Keyfile.encode key password keystore.iterations fresh
  let _ ← keystore.storage.write key.address content
  return key.address

/-- The key pair in a keyfile. Reference: `decode_entry` of `KeyStore`. -/
def open? (entry : StoredKeyfile) (password : String) : Action σ KeyPair := do
  match Keyfile.decode (← keystore.storage.read entry) password with
  | .ok key => return key
  | .error cause => throw (.invalidCredentials cause)

/-- Keeps a key pair that is new. Reference: `create` of `KeyStore`. -/
def create (key : KeyPair) (password : String) (fresh : Seal) : Action σ Address := do
  let address ← keystore.persist key password fresh
  Action.note (.created address)
  return address

/-- There is a keyfile for the account. Reference: `exists` of `KeyStore`. -/
def isManaged (address : Address) : Action σ Bool :=
  return !(← keystore.storage.find address).isEmpty

/-- Writes the keyfile of an account, and tells whether the place for it was free. -/
def persistNew (key : KeyPair) (password : String) (fresh : Seal) : Action σ Bool :=
  tryCatch (do let _ ← keystore.persist key password fresh; return true) fun
    | .io _ ⟨.alreadyExists, _⟩ => return false
    | cause => throw cause

/-- Keeps a key pair, unless there is a keyfile for its account. Tells the account if it is kept. Reference:
`import` of `KeyStore`. -/
def importKey (key : KeyPair) (password : String) (fresh : Seal) : Action σ (Option Address) := do
  let address := key.address
  if ← keystore.isManaged address then
    Action.note (.alreadyManaged address)
    return none
  else if ← keystore.persistNew key password fresh then
    Action.note (.imported address)
    return some address
  else
    Action.note (.writtenMeanwhile address)
    return none

/-- Keeps the key pair of someone's keyfile under a password of its own. Reference: `import_keyfile_bytes` of
`KeyStore`. -/
def importKeyfile (content : Bytes) (password newPassword : String) (fresh : Seal) :
    Action σ (Option Address) := do
  match Keyfile.decode content password with
  | .ok key => keystore.importKey key newPassword fresh
  | .error cause => throw (.invalidCredentials cause)

/-- The accounts, in ascending order. Reference: `list` of `KeyStore`. -/
def list : Action σ (List Address) :=
  return Address.ascending ((← keystore.storage.entries).map (·.address))

/-- Removes keyfiles of an account; more than one is noted. -/
def removeAll (address : Address) (entries : List StoredKeyfile) : Action σ Unit := do
  if 1 < entries.length then Action.note (.duplicates address entries.length)
  entries.forM keystore.storage.remove

/-- Removes the keyfiles of an account. Tells whether there were any. Reference: `delete` of `KeyStore`. -/
def delete (address : Address) : Action σ Bool := do
  let entries ← keystore.storage.find address
  if entries.isEmpty then return false
  keystore.removeAll address entries
  Action.note (.deleted address)
  return true

/-- Keeps the account's key under a new password. Tells whether there is a keyfile for it. Reference: `update`
of `KeyStore`. -/
def update (address : Address) (password newPassword : String) (fresh : Seal) : Action σ Bool := do
  match ← keystore.storage.find address with
  | [] => return false
  | entry :: others =>
    let key ← keystore.open? entry password
    keystore.removeAll address (entry :: others)
    let _ ← keystore.persist key newPassword fresh
    Action.note (.updated address)
    return true

/-- The key pair that is kept for an account, if any is. Reference: `load` of `KeyStore`. -/
def load (address : Address) (password : String) : Action σ (Option KeyPair) := do
  match ← keystore.storage.find address with
  | [] => return none
  | entry :: _ => return some (← keystore.open? entry password)

end Keystore

/-- Opens the keystore of a directory. Reference: `open` of `KeyStore`. -/
def Keystore.ofPath (path : Path) (iterations : UInt32) : Action Disk (Keystore Disk) := do
  return ⟨(← Directory.ofPath path).storage, iterations⟩

end Keyring
