import Keyring.Cli.Arguments
import Keyring.Cli.Log
import Keyring.Cli.Report
import Keyring.Manager

/-!
# The program

A command line is carried out on a disk: the keystore is opened, and made if it is missing, and then
the command is carried out by a manager of it. What is printed until a failure stays printed. Random
values and the environment are arguments.
-/

namespace Keyring.Cli

/-- The random values that a command may need. -/
structure Randomness where
  /-- The key pair of a new account. -/
  key : KeyPair
  /-- The random values of a keyfile. -/
  fresh : Seal

/-- What a command works on, and what is printed so far. -/
structure Progress where
  session : Session Disk
  output : List Output

/-- A step of a command. -/
abbrev Step (α : Type) := EStateM Failure Progress α

namespace Step

/-- Prints something. -/
def print (output : Output) : Step Unit :=
  modify fun progress => { progress with output := progress.output ++ [output] }

/-- An operation of a manager. -/
def manage (action : SessionAction Disk α) : Step α := fun progress =>
  match action progress.session with
  | .ok a session => .ok a { progress with session := session }
  | .error cause session => .error (.ofAccountError cause) { progress with session := session }

/-- A step whose failure is the cause of another one. -/
def orElse (step : Step α) (message : String) : Step α := fun progress =>
  match step progress with
  | .ok a progress => .ok a progress
  | .error failure progress => .error (failure.wrap message) progress

/-- The password, which has to be given and may not be empty. Reference: `require_password`. -/
def requirePassword (password : Option String) : Step String :=
  match password.filter (· ≠ "") with
  | some password => return password
  | none => throw (.plain "--password (or MEOW_PASSWORD) is required")

/-- The failure for an account without a keyfile. -/
def notFound (address : Address) : Step α :=
  throw (.plain ("account " ++ address.text ++ " not found"))

end Step

/-- The wording for a text that is not hexadecimal. -/
def hexErrorText : Hex.Error → String
  | .oddLength => "Odd number of digits"
  | .notADigit byte index =>
    "Invalid character " ++ Text.quoteChar (Char.ofNat byte.toNat) ++ " at position " ++ toString index

/-- The message that a text tells: the bytes after `0x`, or the text itself. Reference: `parse_message`. -/
def readMessage (text : String) : Except Failure Bytes :=
  match text.toList with
  | '0' :: 'x' :: digits =>
    match Hex.decode digits with
    | .ok bytes => .ok bytes
    | .error cause => .error (Failure.wrap (.plain (hexErrorText cause)) "message is not valid hex")
  | _ => .ok (Utf8.encode text)

/-! ## Commands -/

section

open Step

variable (manager : Manager Disk) (password : Option String) (fresh : Seal)

/-- Makes a new account. -/
def runNew (key : KeyPair) : Step Unit := do
  let password ← requirePassword password
  let address ← (manage (manager.create key password fresh)).orElse "failed to create account"
  print (.created address)

/-- Lists the accounts. -/
def runList : Step Unit := do
  print (.keystore manager.directory)
  let accounts ← (manage manager.list).orElse "failed to list accounts"
  print (if accounts.isEmpty then .noAccounts else .accounts accounts)

/-- Imports an account. Reference: `import`. -/
def runImport (source : KeySource) (newPassword : Option String) : Step Unit := do
  let password ← requirePassword password
  let newPassword := newPassword.getD password
  let imported ←
    match source with
    | .file path => do
      let disk := (← get).session.traced.files
      (manage (manager.importFile disk path password newPassword fresh)).orElse
        ("failed to import keyfile " ++ path.display)
    | .secret secret =>
      (manage (manager.importSecret secret newPassword fresh)).orElse "failed to import private key"
  print (match imported with
    | some address => .imported address
    | none => .alreadyManaged)

/-- Prints the secret of an account. -/
def runExport (address : Address) : Step Unit := do
  let password ← requirePassword password
  match ← (manage (manager.exportKey address password)).orElse "failed to export key" with
  | some key => print (.exported address key.secretText)
  | none => notFound address

/-- Changes the password of an account. -/
def runUpdate (address : Address) (newPassword : String) : Step Unit := do
  let password ← requirePassword password
  if ← manage (manager.update address password newPassword fresh) then print (.updated address)
  else notFound address

/-- Deletes an account. -/
def runDelete (address : Address) : Step Unit := do
  if ← manage (manager.delete 0 address) then print (.deleted address) else notFound address

/-- Signs a message. -/
def runSignMessage (address : Address) (text : String) (raw : Bool) : Step Unit := do
  match readMessage text with
  | .error failure => throw failure
  | .ok message =>
    let sig ← (manage (manager.signMessage 0 address password message !raw)).orElse
      "failed to sign message"
    print (.line sig)

/-- Signs a transaction. Reference: `sign_tx`. -/
def runSignTransaction (sender : Address) (tx : LegacyTransaction) : Step Unit := do
  let raw ← (manage (manager.signTransaction 0 sender password (.legacy tx))).orElse
    "failed to sign transaction"
  print (.line ("0x" ++ Hex.text raw))

/-- Carries out a command. -/
def runCommand (random : Randomness) : Command → Step Unit
  | .new => runNew manager password random.fresh random.key
  | .list => runList manager
  | .importAccount source newPassword =>
    runImport manager password random.fresh source newPassword
  | .exportKey address => runExport manager password address
  | .update address newPassword => runUpdate manager password random.fresh address newPassword
  | .delete address => runDelete manager address
  | .signMessage address text raw => runSignMessage manager password address text raw
  | .signTransaction sender tx => runSignTransaction manager password sender tx

/-- The directory of the keyfiles that a command line tells. -/
def Invocation.directory (invocation : Invocation) (home : Option Path) : Path :=
  invocation.keystore.getD (Config.defaultDirectory home)

/-- Opens the manager that a command line tells. -/
def openManager (invocation : Invocation) (home : Option Path) : Step (Manager Disk) :=
  let directory := invocation.directory home
  let config := (Config.withDir directory).withIterations invocation.kdfIterations
  (manage (SessionAction.onFiles (Manager.ofConfig config))).orElse
    ("failed to open keystore at " ++ directory.display)

/-- Carries out what a command line says. -/
def runInvocation (home : Option Path) (random : Randomness) (invocation : Invocation) :
    Step Unit := do
  let manager ← openManager invocation home
  runCommand manager invocation.password random invocation.command

end

/-! ## Runs -/

/-- What a run of the program shows. -/
structure Outcome where
  exitCode : Nat
  stdout : String
  stderr : String

/-- The outcome for a command line that is refused, or that asks for help. -/
def Outcome.ofUsage (usage : Usage) : Outcome :=
  if usage = .help then ⟨0, usage.text ++ "\n", ""⟩ else ⟨2, "", usage.text ++ "\n"⟩

/-- The outcome of a command after its last step. -/
def Outcome.ofProgress (environment : Environment) (progress : Progress) (failure : Option Failure) :
    Outcome where
  exitCode := if failure.isSome then 1 else 0
  stdout := String.join (progress.output.map (Output.text (Palette.ofEnvironment environment)))
  stderr := logText environment progress.session.traced.events
    ++ (failure.map Failure.text).getD ""

/-- Runs the program on a disk, which it may change. Reference: `main`. -/
def run (words : List String) (environment : Environment) (random : Randomness) (disk : Disk) :
    Outcome × Disk :=
  match Invocation.ofWords words environment with
  | .error usage => (.ofUsage usage, disk)
  | .ok invocation =>
    let home := (environment "HOME").map Path.ofText
    match runInvocation home random invocation ⟨⟨⟨disk, []⟩, .empty⟩, []⟩ with
    | .ok _ progress => (.ofProgress environment progress none, progress.session.traced.files)
    | .error failure progress =>
      (.ofProgress environment progress (some failure), progress.session.traced.files)

end Keyring.Cli
