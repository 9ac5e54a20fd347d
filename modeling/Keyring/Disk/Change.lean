import Keyring.Disk.Lookup

/-!
# Changes of a disk

What the keeper of keyfiles does to a disk: it makes and removes files, makes directories and sets modes.
Directories that are missing on the way to another one are made first, and stay if something fails
then.
-/

namespace Keyring

namespace Disk

/-- The disk with a new node, where nothing may be yet. -/
def make (disk : Disk) (p : Path) (node : Node) : Except IoError Disk := do
  let target ← disk.locate p
  match target.node with
  | some _ => .error .entryExists
  | none => .ok (disk.put (← target.place) node)

/-- The disk with a new file, which may not be there yet. -/
def create (disk : Disk) (p : Path) (mode : Nat) (content : Bytes) : Except IoError Disk :=
  disk.make p (.file mode content)

/-- The disk without a file. -/
def remove (disk : Disk) (p : Path) : Except IoError Disk := do
  let target ← disk.locate p
  match target.node with
  | some (.file _ _) => .ok (disk.erase (← target.place))
  | some (.directory _) => .error .isDirectory
  | none => .error .noEntry

/-- The disk with another mode of what is at a path. -/
def setMode (disk : Disk) (p : Path) (mode : Nat) : Except IoError Disk := do
  let target ← disk.locate p
  match target.node with
  | some node => .ok (disk.put (← target.place) (node.withMode mode))
  | none => .error .noEntry

/-! ## Directories -/

/-- The disk with a new directory, whose parent has to be there. -/
def makeOne (disk : Disk) (p : Path) : Except IoError Disk :=
  disk.make p (.directory directoryMode)

/-- The parent of a new directory is missing. -/
def lacksParent (disk : Disk) (p : Path) : Bool :=
  match disk.makeOne p with
  | .ok _ => false
  | .error e => e.kind = .notFound

/-- Makes a directory, unless there is one. -/
def ensureOne (p : Path) : EStateM IoError Disk Unit := do
  let disk ← get
  match disk.makeOne p with
  | .ok disk => set disk
  | .error e => unless disk.isDirectory p do throw e

/-- Makes the directory of a path. If its parent is missing, that is made first: the directory of the
components above, which are given last one first. -/
def ensureBelow : (above : List Path.Component) → Path → EStateM IoError Disk Unit
  | [], p => ensureOne p
  | c :: above, p => do
    if (← get).lacksParent p then ensureBelow above (.ofComponents (c :: above).reverse)
    ensureOne p

/-- Makes the directory of a path and those on the way to it, unless they are there. An empty path
needs none. -/
def ensureDirectory (p : Path) : EStateM IoError Disk Unit := do
  unless p.bytes = [] do ensureBelow p.components.reverse.tail p

end Disk

end Keyring
