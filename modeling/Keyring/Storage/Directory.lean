import Keyring.Disk.Change
import Keyring.Keyfile.Name
import Keyring.Storage.Basic

/-!
# Keyfiles in a directory

The names in a directory tell the accounts, so that they are found without reading files. A directory
that is missing is made for its owner alone, and keyfiles are made for their owner alone. Names that
are no names of keyfiles are noted and left alone.
-/

namespace Keyring

/-- A directory of keyfiles. Reference: `DirectoryIndex`. -/
structure Directory where
  /-- The path of the directory, in normal form. -/
  path : Path

namespace Directory

/-- The mode of a directory that is made for its owner alone. -/
def privateMode : Nat := 0o700

/-- The mode of a keyfile. -/
def keyfileMode : Nat := 0o600

/-- Opens the directory of a path, and makes it if there is nothing. Reference: `open` of `DirectoryIndex`. -/
def ofPath (p : Path) : Action Disk Directory := do
  let path := p.normalize
  unless (← get).files.contains path do
    Action.perform path (Disk.ensureDirectory path)
    Action.change path fun disk => disk.setMode path privateMode
  return ⟨path⟩

/-- Where the keyfile of an address is kept. Reference: `keyfile_path` of `DirectoryIndex`. -/
def keyfilePath (directory : Directory) (address : Address) : Path :=
  directory.path.joinName (Utf8.encode (Keyfile.name address))

/-- The keyfile that a name in the directory tells. -/
def stored? (directory : Directory) (name : Name) : Option StoredKeyfile :=
  ((Utf8.decode? name).bind Keyfile.addressOfName?).map fun address =>
    ⟨address, directory.path.joinName name⟩

/-- The keyfiles in the directory. Other names are noted. Reference: `entries` of `DirectoryIndex`. -/
def entries (directory : Directory) : Action Disk (List StoredKeyfile) := do
  let names ← Action.query directory.path fun disk => disk.list directory.path
  (names.filter fun name => (directory.stored? name).isNone).forM fun name =>
    Action.note (.foreignFile name)
  return names.filterMap directory.stored?

/-- The content of a keyfile. Reference: `read` of `DirectoryIndex`. -/
def read (entry : StoredKeyfile) : Action Disk Bytes :=
  Action.query entry.path fun disk => disk.read entry.path

/-- Makes the keyfile of an address. Reference: `write` of `DirectoryIndex`. -/
def write (directory : Directory) (address : Address) (content : Bytes) :
    Action Disk StoredKeyfile := do
  let path := directory.keyfilePath address
  Action.change path fun disk => disk.create path keyfileMode content
  return ⟨address, path⟩

/-- Removes a keyfile. Reference: `remove` of `DirectoryIndex`. -/
def remove (entry : StoredKeyfile) : Action Disk Unit :=
  Action.change entry.path fun disk => disk.remove entry.path

/-- The directory as a storage of keyfiles. -/
def storage (directory : Directory) : Storage Disk where
  location := directory.path
  entries := directory.entries
  read := read
  write := directory.write
  remove := remove

end Directory

end Keyring
