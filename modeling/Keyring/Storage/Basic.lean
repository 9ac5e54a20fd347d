import Keyring.Account.Error
import Keyring.Account.Event

/-!
# Where keyfiles are kept

A storage keeps keyfiles by the addresses of their accounts. It may hold several for one address, and
it never writes over one. Its operations work on files of some kind and note events (`Action`); an
operation that fails has done what it did until then.
-/

namespace Keyring

/-- Files, and the events noted so far. -/
structure Traced (σ : Type) where
  files : σ
  events : List Event

/-- An operation on files. What it did before a failure stays done. -/
abbrev Action (σ α : Type) := EStateM AccountError (Traced σ) α

namespace Action

/-- Notes an event. -/
def note (event : Event) : Action σ Unit :=
  modify fun traced => { traced with events := traced.events ++ [event] }

/-- Looks at the files. A failure is told with the path. -/
def query (path : Path) (look : σ → Except IoError α) : Action σ α := do
  match look (← get).files with
  | .ok a => return a
  | .error source => throw (.io path source)

/-- Changes the files. A failure is told with the path. -/
def change (path : Path) (step : σ → Except IoError σ) : Action σ Unit := do
  match step (← get).files with
  | .ok files => modify fun traced => { traced with files := files }
  | .error source => throw (.io path source)

/-- Works on the files. A failure is told with the path. -/
def perform (path : Path) (step : EStateM IoError σ α) : Action σ α := fun traced =>
  match step traced.files with
  | .ok a files => .ok a { traced with files := files }
  | .error source files => .error (.io path source) { traced with files := files }

end Action

/-- A keyfile that is kept: the address that it is kept for, and where it is. Reference: `KeyfileEntry`. -/
structure StoredKeyfile where
  address : Address
  path : Path
deriving DecidableEq

/-- Where keyfiles are kept. Reference: `KeyfileIndex`. -/
structure Storage (σ : Type) where
  /-- What is shown as its place. -/
  location : Path
  /-- The keyfiles that are kept, in any order. -/
  entries : Action σ (List StoredKeyfile)
  /-- The content of a keyfile. -/
  read : StoredKeyfile → Action σ Bytes
  /-- Keeps a new keyfile for an address. -/
  write : Address → Bytes → Action σ StoredKeyfile
  /-- Removes a keyfile. -/
  remove : StoredKeyfile → Action σ Unit

/-- The keyfiles that are kept for an address. Reference: `find` of `KeyfileIndex`. -/
def Storage.find (storage : Storage σ) (address : Address) : Action σ (List StoredKeyfile) :=
  return (← storage.entries).filter fun entry => entry.address = address

end Keyring
