import Keyring.Disk.Basic
import Keyring.Disk.Error

/-!
# Looking up paths

Paths are followed part by part, from the root or from the directory that is worked in: every part but
the last has to lead to a directory that is there, and a path that ends in a slash leads to a directory.
A name is looked at only where there is a directory to look it up in. From a removed directory a path
leads up to where it was, and to nothing else.
-/

namespace Keyring

namespace Standpoint

/-- The directory that a directory is in. -/
def parent : Standpoint → Standpoint
  | ⟨place, 0⟩ => ⟨place.tail, 0⟩
  | ⟨place, removed + 1⟩ => ⟨place, removed⟩

/-- The longest name. -/
def maxNameLength : Nat := 255

/-- Goes one part on from a directory. -/
def enter (standpoint : Standpoint) (part : Bytes) : Except IoError Standpoint :=
  if part = [] ∨ part = [0x2e] then .ok standpoint
  else if part = [0x2e, 0x2e] then .ok standpoint.parent
  else if 0 < standpoint.removed then .error .noEntry
  else if maxNameLength < part.length then .error .nameTooLong
  else .ok ⟨part :: standpoint.place, 0⟩

end Standpoint

/-- Where a path leads, and what is there. -/
structure Target where
  standpoint : Standpoint
  node : Option Node

/-- The place that a path leads to, unless that is a removed directory. -/
def Target.place (target : Target) : Except IoError Place :=
  if target.standpoint.removed = 0 then .ok target.standpoint.place else .error .noEntry

namespace Disk

/-- What is at a place, or the directory that was removed. -/
def nodeAt (disk : Disk) (standpoint : Standpoint) : Option Node :=
  if standpoint.removed = 0 then disk.get? standpoint.place else some (.directory directoryMode)

/-- Goes on from a directory by the parts of a path. -/
def follow (disk : Disk) : Standpoint → List Bytes → Except IoError Target
  | standpoint, [] => .ok ⟨standpoint, disk.nodeAt standpoint⟩
  | standpoint, part :: parts =>
    match disk.nodeAt standpoint with
    | some (.directory _) =>
      match standpoint.enter part with
      | .ok next => follow disk next parts
      | .error e => .error e
    | some (.file _ _) => .error .notDirectory
    | none =>
      if (part :: parts).all (· = []) then .ok ⟨standpoint, none⟩ else .error .noEntry

/-- The longest path. -/
def maxPathLength : Nat := 4095

/-- Refuses the paths that no disk follows. -/
def checkPath (p : Path) : Except IoError Unit :=
  if p.bytes.contains 0 then .error .nullByte
  else if maxPathLength < p.bytes.length then .error .nameTooLong
  else .ok ()

/-- The target of a path. -/
def locate (disk : Disk) (p : Path) : Except IoError Target := do
  checkPath p
  if p.bytes = [] then throw .noEntry
  disk.follow (if p.isAbsolute then ⟨[], 0⟩ else disk.work) (Path.split p.bytes)

/-- There is something where the path leads. -/
def contains (disk : Disk) (p : Path) : Bool :=
  match disk.locate p with
  | .ok target => target.node.isSome
  | .error _ => false

/-- There is a directory where the path leads. -/
def isDirectory (disk : Disk) (p : Path) : Bool :=
  match disk.locate p with
  | .ok ⟨_, some (.directory _)⟩ => true
  | _ => false

/-- The content of a file. -/
def read (disk : Disk) (p : Path) : Except IoError Bytes := do
  match (← disk.locate p).node with
  | some (.file _ content) => .ok content
  | some (.directory _) => .error .isDirectory
  | none => .error .noEntry

/-- The names of a directory's entries; a removed one has none. -/
def list (disk : Disk) (p : Path) : Except IoError (List Name) := do
  let target ← disk.locate p
  match target.node with
  | some (.directory _) => .ok ((target.place.toOption.map disk.names).getD [])
  | some (.file _ _) => .error .notDirectory
  | none => .error .noEntry

end Disk

end Keyring
