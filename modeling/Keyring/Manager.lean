import Keyring.Config
import Keyring.Keystore
import Keyring.Signing
import Keyring.Transaction
import Keyring.Unlock

/-!
# The account manager

A manager joins a keystore, the unlocked accounts and what makes signatures. A signature is made with
the key that is at hand while its account is unlocked, whatever password is given, and otherwise with
the key that the password opens, which is not kept at hand. Deleting an account locks it.
-/

namespace Keyring

/-- What a manager works with. Reference: `AccountManager`. -/
structure Manager (σ : Type) where
  keystore : Keystore σ
  signer : Signer

/-- What a manager's operations work on. -/
structure Session (σ : Type) where
  traced : Traced σ
  unlocked : UnlockRegistry

/-- An operation of a manager. -/
abbrev SessionAction (σ α : Type) := EStateM AccountError (Session σ) α

namespace SessionAction

/-- An operation on the files alone. -/
def onFiles (action : Action σ α) : SessionAction σ α := fun session =>
  match action session.traced with
  | .ok a traced => .ok a { session with traced := traced }
  | .error cause traced => .error cause { session with traced := traced }

/-- An operation on the unlocked accounts alone. -/
def onUnlocked (step : UnlockRegistry → α × UnlockRegistry) : SessionAction σ α := fun session =>
  let (a, unlocked) := step session.unlocked
  .ok a { session with unlocked := unlocked }

end SessionAction

namespace Manager

open SessionAction (onFiles onUnlocked)

variable (manager : Manager σ)

/-- The directory of the keyfiles. Reference: `directory` of `AccountManager`. -/
def directory : Path :=
  manager.keystore.storage.location

/-- What is shown of a manager. -/
def summary (unlocked : UnlockRegistry) : String :=
  "AccountManager \x7b keystore: " ++ manager.keystore.summary ++ ", unlocked: " ++ unlocked.summary
    ++ ", crypto: " ++ manager.signer.name ++ " \x7d"

/-! ## Keeping accounts -/

/-- Keeps a new key pair. Reference: `create` of `AccountManager`. -/
def create (key : KeyPair) (password : String) (fresh : Seal) : SessionAction σ Address :=
  onFiles (manager.keystore.create key password fresh)

/-- The accounts, in ascending order. Reference: `list` of `AccountManager`. -/
def list : SessionAction σ (List Address) :=
  onFiles manager.keystore.list

/-- There is a keyfile for the account. Reference: `exists` of `AccountManager`. -/
def isManaged (address : Address) : SessionAction σ Bool :=
  onFiles (manager.keystore.isManaged address)

/-- Removes an account's keyfiles and locks it. Tells whether there were any. Reference: `delete` of
`AccountManager`. -/
def delete (now : Instant) (address : Address) : SessionAction σ Bool := do
  if ← onFiles (manager.keystore.delete address) then
    let _ ← onUnlocked fun unlocked => unlocked.remove now address
    return true
  else return false

/-- Keeps an account's key under a new password. Tells whether there is a keyfile for it. Reference: `update`
of `AccountManager`. -/
def update (address : Address) (password newPassword : String) (fresh : Seal) :
    SessionAction σ Bool :=
  onFiles (manager.keystore.update address password newPassword fresh)

/-- The key pair of an account, if there is a keyfile for it. Reference: `export_key` of `AccountManager`. -/
def exportKey (address : Address) (password : String) : SessionAction σ (Option KeyPair) :=
  onFiles (manager.keystore.load address password)

/-- Keeps the key pair of someone's keyfile, unless there is a keyfile for its account. Reference:
`import_keyfile_bytes` of `AccountManager`. -/
def importKeyfile (content : Bytes) (password newPassword : String) (fresh : Seal) :
    SessionAction σ (Option Address) :=
  onFiles (manager.keystore.importKeyfile content password newPassword fresh)

/-- Keeps the key pair of someone's keyfile that is somewhere on a disk. Reference: `import_keyfile` of
`AccountManager`. -/
def importFile (disk : Disk) (path : Path) (password newPassword : String) (fresh : Seal) :
    SessionAction σ (Option Address) :=
  match disk.read path with
  | .ok content => manager.importKeyfile content password newPassword fresh
  | .error source => throw (.io path source)

/-- Keeps the key pair of a secret in hexadecimal, unless there is a keyfile for its account. Reference:
`import_private_key` of `AccountManager`. -/
def importSecret (secret password : String) (fresh : Seal) : SessionAction σ (Option Address) :=
  match KeyPair.ofText? secret with
  | some key => onFiles (manager.keystore.importKey key password fresh)
  | none => throw .invalidPrivateKey

/-! ## Unlocking -/

/-- Unlocks an account for a time, or until it is locked. Tells whether there is a keyfile for it. Reference:
`unlock` of `AccountManager`. -/
def unlock (now : Instant) (address : Address) (password : String) (timeout : Option Duration) :
    SessionAction σ Bool := do
  match ← onFiles (manager.keystore.load address password) with
  | none => return false
  | some key => onUnlocked fun unlocked => (true, unlocked.insert now address key timeout)

/-- Locks an account. Tells whether it was unlocked. Reference: `lock` of `AccountManager`. -/
def lock (now : Instant) (address : Address) : SessionAction σ Bool :=
  onUnlocked fun unlocked => unlocked.remove now address

/-- The account is unlocked. Reference: `is_unlocked` of `AccountManager`. -/
def isUnlocked (now : Instant) (address : Address) : SessionAction σ Bool :=
  onUnlocked fun unlocked => (unlocked.isUnlocked now address, unlocked)

/-- The unlocked accounts, in ascending order. Reference: `unlocked_accounts` of `AccountManager`. -/
def unlockedAccounts (now : Instant) : SessionAction σ (List Address) :=
  onUnlocked fun unlocked => (unlocked.unlockedAddresses now, unlocked)

/-- Drops the keys whose time is over. Tells how many there were. Reference: `purge_expired` of
`AccountManager`. -/
def purgeExpired (now : Instant) : SessionAction σ Nat :=
  onUnlocked fun unlocked => unlocked.purgeExpired now

/-! ## Signing -/

/-- The key pair to sign with: the one at hand, or the one that the password opens. An empty password counts
as none. Reference: `resolve_key` of `AccountManager`. -/
def resolveKey (now : Instant) (address : Address) (password : Option String) :
    SessionAction σ KeyPair := do
  match ← onUnlocked fun unlocked => unlocked.lookup now address, password.filter (· ≠ "") with
  | .unlocked key, _ => return key
  | .absent, none => throw (.locked address)
  | .expired, none => throw (.unlockExpired address)
  | _, some password =>
    onFiles (Action.note (.singleUse address))
    match ← onFiles (manager.keystore.load address password) with
    | some key => return key
    | none => throw (.accountNotFound address)

/-- The signature of a message. -/
def sign (now : Instant) (address : Address) (password : Option String) (message : Bytes)
    (hashFirst : Bool) : SessionAction σ Signature := do
  let key ← manager.resolveKey now address password
  match manager.signer.sign message key hashFirst with
  | .ok sig => return sig
  | .error cause => throw cause

/-- The signature of a message as `0x` and a hundred and thirty digits. Reference: `sign_message` of
`AccountManager`. -/
def signMessage (now : Instant) (address : Address) (password : Option String) (message : Bytes)
    (hashFirst : Bool) : SessionAction σ String :=
  return "0x" ++ Hex.text (← manager.sign now address password message hashFirst).toBytes

/-- The transaction with its signature. Reference: `sign_transaction` of `AccountManager`. -/
def signTransaction (now : Instant) (address : Address) (password : Option String)
    (tx : Transaction) : SessionAction σ Bytes :=
  return tx.signed (← manager.sign now address password tx.digest.toBytes false)

end Manager

/-- Opens the manager of a directory. Reference: `new` of `AccountManager`. -/
def Manager.ofConfig (config : Config) : Action Disk (Manager Disk) := do
  return ⟨← Keystore.ofPath config.keystoreDir config.kdfIterations, .ecdsa⟩

end Keyring
