import Keyring.Cli.Program
import Keyring.Disk.Others

/-!
# The program on this machine

The thin layer between the program and the machine: it reads the part of the disk that a command line
is about, runs the program on it, and carries the changes out.
-/

namespace Keyring.Machine

open Cli

/-- The variables of the environment that the program looks at. -/
def variableNames : List String :=
  ["HOME", "MEOW_KEYSTORE", "MEOW_PASSWORD", "MEOW_PRIVATE_KEY", "MEOW_NEW_PASSWORD", "RUST_LOG",
    "NO_COLOR", "CLICOLOR_FORCE"]

/-- The environment. -/
def readEnvironment : IO Environment := do
  let values ← variableNames.mapM fun name => return (name, ← IO.getEnv name)
  return fun name => (values.lookup name).join

/-- Random bytes. -/
def randomBytes (n : Nat) : IO Bytes :=
  return (← IO.getRandomBytes (USize.ofNat n)).toList

/-- Random bytes of a fixed number. -/
def randomFixed (n : Nat) : IO (FixedBytes n) := do
  match FixedBytes.ofBytes? n (← randomBytes n) with
  | some bytes => return bytes
  | none => throw (IO.userError "no random bytes")

/-- The random values of a run. -/
def readRandomness : IO Randomness := do
  match KeyPair.ofBytes? (← randomBytes 32) with
  | some key => return ⟨key, ⟨← randomFixed 32, ← randomFixed 16, ← randomFixed 16⟩⟩
  | none => throw (IO.userError "no random secret")

/-- The path of a place. -/
def pathText (place : Place) : String :=
  "/" ++ "/".intercalate (place.reverse.map Utf8.decodeLossy)

/-- The names in the directory at a place. -/
def readNames (place : Place) : IO (List Name) := do
  let entries ← (← IO.FS.realPath (pathText place)).readDir
  return entries.toList.map fun entry => Utf8.encode entry.fileName

/-- What is at a place. Modes are not looked at. -/
def readNode (place : Place) : IO (Option Node) := do
  try
    let _ ← readNames place
    return some (.directory Disk.directoryMode)
  catch _ =>
    try return some (.file Disk.fileMode (← IO.FS.readBinFile (pathText place)).toList)
    catch _ => return none

/-- The disk with what is at a place. -/
def readPlace (disk : Disk) (place : Place) : IO Disk := do
  match place, ← readNode place with
  | _ :: _, some node => return disk.put place node
  | _, _ => return disk

/-- The directories that a place is in, and itself, from the root on. -/
def ancestors : Place → List Place
  | [] => [[]]
  | name :: parent => ancestors parent ++ [name :: parent]

/-- The places on the way from the root to `start` and from there along a path. -/
def placesAlong (start : Place) (p : Path) : List Place :=
  ancestors start ++
    (p.components.foldl (fun places c => Path.step (places.headD start) c :: places) []).reverse

/-- The disk with what is along a path, and with what is in the directory that it leads to. -/
def readAlong (start : Place) (p : Path) (disk : Disk) : IO Disk := do
  let places := placesAlong start p
  let disk ← places.foldlM readPlace disk
  let last := places.getLastD []
  match disk.get? last with
  | some (.directory _) => (← readNames last).foldlM (fun disk name => readPlace disk (name :: last)) disk
  | _ => return disk

/-- The disk with what is along a path. -/
def readFile (start : Place) (p : Path) (disk : Disk) : IO Disk :=
  (placesAlong start p).foldlM readPlace disk

/-- The part of the disk that a command line is about. -/
def readDisk (words : List String) (environment : Environment) (start : Place) : IO Disk := do
  match Invocation.ofWords words environment with
  | .error _ => return .empty start
  | .ok invocation =>
    let home := (environment "HOME").map Path.ofText
    let disk ← readAlong start (invocation.directory home).normalize (.empty start)
    match invocation.command with
    | .importAccount (.file path) _ => readFile start path disk
    | _ => return disk

/-- The rights that a digit of a mode gives. -/
def accessRight (bits : Nat) : IO.AccessRight :=
  { read := bits.testBit 2, write := bits.testBit 1, execution := bits.testBit 0 }

/-- The rights that a mode gives. -/
def fileRight (mode : Nat) : IO.FileRight :=
  { user := accessRight (mode / 64 % 8), group := accessRight (mode / 8 % 8),
    other := accessRight (mode % 8) }

/-- Puts a node at a place. -/
def writeNode (place : Place) : Node → IO Unit
  | .directory mode => do
    IO.FS.createDirAll (pathText place)
    IO.setAccessRights (pathText place) (fileRight mode)
  | .file mode content => do
    IO.FS.writeBinFile (pathText place) (ByteArray.mk content.toArray)
    IO.setAccessRights (pathText place) (fileRight mode)

/-- Makes the changes from one disk to another one. -/
def writeChanges (old new : Disk) : IO Unit := do
  for (place, _) in old.nodes do
    if (new.get? place).isNone then IO.FS.removeFile (pathText place)
  for (place, node) in new.nodes do
    unless old.get? place = some node do writeNode place node

end Keyring.Machine

open Keyring Keyring.Machine in
/-- Runs the program with the words after its name. -/
def main (words : List String) : IO UInt32 := do
  let environment ← readEnvironment
  let start := Path.resolve (Path.ofText (toString (← IO.currentDir))).components
  let disk ← readDisk words environment start
  let (outcome, changed) := Cli.run words environment (← readRandomness) disk
  writeChanges disk changed
  (← IO.getStdout).putStr outcome.stdout
  (← IO.getStderr).putStr outcome.stderr
  return UInt32.ofNat outcome.exitCode
