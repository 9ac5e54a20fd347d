import Keyring.Keyfile.Name
import Keyring.Storage.Basic

/-!
# Keyfiles in memory

Keyfiles in a list, in the order in which they came. Two ways to write one path lead to the same keyfiles.
Failures can be asked for: each one meets the next call of its operation.
-/

namespace Keyring

/-- A keyfile in memory. -/
structure MemoryEntry where
  stored : StoredKeyfile
  content : Bytes

/-- The operations of a storage. -/
inductive StorageOperation where
  | entries
  | read
  | write
  | remove
deriving DecidableEq

/-- A failure that is asked for. -/
structure Fault where
  operation : StorageOperation
  kind : IoKind

/-- Keyfiles in memory, and the failures to come, the next one first. -/
structure Memory where
  keyfiles : List MemoryEntry
  faults : List Fault

namespace Memory

/-- Nothing is kept. -/
def empty : Memory := ⟨[], []⟩

/-- What is shown as the place of the keyfiles. -/
def location : Path := Path.ofText "mem"

/-- The keyfile by a name. -/
def path (name : Name) : Path :=
  location.joinName name

/-- Appends a keyfile. -/
def append (memory : Memory) (address : Address) (path : Path) (content : Bytes) : Memory :=
  { memory with keyfiles := memory.keyfiles ++ [⟨⟨address, path⟩, content⟩] }

/-- Asks for a failure after those that are asked for. -/
def addFault (memory : Memory) (fault : Fault) : Memory :=
  { memory with faults := memory.faults ++ [fault] }

/-- The keyfile at a path. -/
def find? (memory : Memory) (path : Path) : Option MemoryEntry :=
  memory.keyfiles.find? fun entry => entry.stored.path.isSame path

/-- The content of the keyfile at a path. -/
def read (memory : Memory) (path : Path) : Except IoError Bytes :=
  match memory.find? path with
  | some entry => .ok entry.content
  | none => .error ⟨.notFound, "gone"⟩

/-- Appends a keyfile, unless there is one at its path. -/
def write (memory : Memory) (address : Address) (path : Path) (content : Bytes) :
    Except IoError Memory :=
  match memory.find? path with
  | some _ => .error ⟨.alreadyExists, "exists"⟩
  | none => .ok (memory.append address path content)

/-- Drops the keyfiles at a path. -/
def remove (memory : Memory) (path : Path) : Memory :=
  { memory with keyfiles := memory.keyfiles.filter fun entry => !entry.stored.path.isSame path }

/-- Lets the next failure that is asked for an operation happen. -/
def meetFault (operation : StorageOperation) (path : Path) : Action Memory Unit := do
  let memory := (← get).files
  match memory.faults.find? fun fault => fault.operation = operation with
  | none => return ()
  | some fault =>
    let rest := memory.faults.eraseP fun fault => fault.operation = operation
    modify fun traced => { traced with files := { memory with faults := rest } }
    throw (.io path ⟨fault.kind, "injected"⟩)

/-- Memory as a storage of keyfiles. -/
def storage : Storage Memory where
  location := location
  entries := do
    meetFault .entries location
    return (← get).files.keyfiles.map (·.stored)
  read entry := do
    meetFault .read entry.path
    Action.query entry.path fun memory => memory.read entry.path
  write address content := do
    let path := path (Utf8.encode (Keyfile.name address))
    meetFault .write path
    Action.change path fun memory => memory.write address path content
    return ⟨address, path⟩
  remove entry := do
    meetFault .remove entry.path
    Action.change entry.path fun memory => .ok (memory.remove entry.path)

end Memory

end Keyring
