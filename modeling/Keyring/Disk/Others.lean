import Keyring.Disk.Change

/-!
# What others do to a disk

Changes that keeping keyfiles never makes itself, but has to live with: files written and copied, and
files and whole directories moved and removed. The directory that is worked in moves along, and it is
not replaced by another one that comes to its place after it was removed.
-/

namespace Keyring

/-- The place is `top` or below it. -/
def Place.isBelow (top place : Place) : Bool :=
  List.isSuffixOf top place

namespace Standpoint

/-- Where a directory is found after what is at `top` and below it was removed. -/
def afterRemoval (top : Place) (standpoint : Standpoint) : Standpoint :=
  if Place.isBelow top standpoint.place then
    ⟨top.tail, standpoint.removed + (standpoint.place.length - top.tail.length)⟩
  else standpoint

/-- Where a directory is found after what is at `source` and below it was moved. -/
def afterMove (source target : Place) (standpoint : Standpoint) : Standpoint :=
  if Place.isBelow source standpoint.place then
    ⟨standpoint.place.take (standpoint.place.length - source.length) ++ target, standpoint.removed⟩
  else standpoint

end Standpoint

namespace Disk

/-- The mode of a file that is written without asking for one. -/
def fileMode : Nat := 0o644

/-- The disk with the content of a file set, which is made if it is missing. -/
def write (disk : Disk) (p : Path) (content : Bytes) : Except IoError Disk := do
  let target ← disk.locate p
  let place ← target.place
  match target.node with
  | some (.file mode _) => .ok (disk.put place (.file mode content))
  | some (.directory _) => .error .isDirectory
  | none => .ok (disk.put place (.file fileMode content))

/-- The disk with a file copied, its mode too. -/
def copy (disk : Disk) (source target : Path) : Except IoError Disk := do
  match (← disk.locate source).node with
  | some (.file mode content) =>
    let target ← disk.locate target
    match target.node with
    | some (.directory _) => .error .isDirectory
    | _ => .ok (disk.put (← target.place) (.file mode content))
  | some (.directory _) => .error .isDirectory
  | none => .error .noEntry

/-- The disk without what is at a place and below it. -/
def eraseTree (disk : Disk) (place : Place) : Disk :=
  { disk.filter (fun other => !Place.isBelow place other) with
    work := disk.work.afterRemoval place }

/-- What is at a place and below it, each with its place below another one. -/
def moved (disk : Disk) (source target : Place) : List (Place × Node) :=
  (disk.nodes.filter fun entry => Place.isBelow source entry.1).map fun entry =>
    (entry.1.take (entry.1.length - source.length) ++ target, entry.2)

/-- The disk with what is at a place and below it at another place instead. -/
def moveTree (disk : Disk) (source target : Place) : Disk :=
  let rest := disk.filter fun other => !Place.isBelow source other
  (disk.moved source target).foldl (fun disk entry => disk.put entry.1 entry.2)
    { rest with work := disk.work.afterMove source target }

/-- The disk with a file or a directory moved, in place of what is where it goes. -/
def rename (disk : Disk) (source target : Path) : Except IoError Disk := do
  let source ← disk.locate source
  let target ← disk.locate target
  let sourcePlace ← source.place
  let targetPlace ← target.place
  if source.node.isNone then .error .noEntry
  else if sourcePlace = targetPlace then .ok disk
  else .ok ((disk.eraseTree targetPlace).moveTree sourcePlace targetPlace)

/-- The disk without a file or a whole directory. -/
def removeTree (disk : Disk) (p : Path) : Except IoError Disk := do
  let target ← disk.locate p
  if target.node.isNone then .error .noEntry else .ok (disk.eraseTree (← target.place))

end Disk

end Keyring
