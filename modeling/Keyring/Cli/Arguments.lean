import Keyring.Cli.Command
import Keyring.Config

/-!
# Reading the command line

A command line is a list of words: parameters of the program, the name of a command, and parameters of
the command or the program. The value of an option stands in the next word or after an equals sign. A
value is looked at when the next thing is met, so that of several mistakes the first one found is not
always the first one written. After `--` no word is an option.

What the command line does not give may come from the environment. Of a parameter of the program that
is given more than once, the command line wins over the environment, and then the later place wins.
-/

namespace Keyring.Cli

/-- The variables of the environment. -/
abbrev Environment := String → Option String

/-! ## Words -/

/-- What a word looks like. -/
inductive Word where
  /-- Two dashes alone. -/
  | escape
  /-- Two dashes and a name, with the text after an equals sign. -/
  | long (name : String) (attached : Option String)
  /-- One dash and what follows it first. -/
  | short (letter : Char)
  | plain

/-- What a word looks like. -/
def Word.ofText (text : String) : Word :=
  match text.toList with
  | ['-', '-'] => .escape
  | '-' :: '-' :: rest =>
    .long (String.ofList (rest.takeWhile (· ≠ '=')))
      (match rest.dropWhile (· ≠ '=') with
      | [] => none
      | _ :: attached => some (String.ofList attached))
  | '-' :: letter :: _ => .short letter
  | _ => .plain

/-! ## Parameters that are given -/

/-- Where a parameter is given. -/
inductive Source where
  | environment
  | commandLine
deriving DecidableEq

/-- A parameter that is given. -/
structure Given where
  parameter : Parameter
  text : String
  source : Source

/-- Where words are read: before the name of a command, or after it. -/
inductive Scope where
  | program
  | command (name : CommandName)
deriving DecidableEq

namespace Scope

/-- The parameters of the program. -/
def shared : List Parameter :=
  [.keystore, .password, .kdfIterations]

/-- The parameters that can be given. -/
def parameters : Scope → List Parameter
  | program => shared
  | command name => name.parameters ++ shared

/-- The parameters that are given by their order. -/
def positionals (scope : Scope) : List Parameter :=
  scope.parameters.filter Parameter.isPositional

/-- The option by a name. -/
def option? (scope : Scope) (name : String) : Option Parameter :=
  scope.parameters.find? fun p => !p.isPositional && p.words == name

end Scope

/-- What has been read. -/
structure Scan where
  /-- What is given, in the order in which it was looked at. -/
  given : List Given
  /-- What is still to be looked at, with its value if that is there. -/
  pending : Option (Parameter × Option String)
  /-- The parameters by order that are still to come. -/
  positionals : List Parameter
  /-- No word is an option any more. -/
  escaped : Bool

namespace Scan

/-- Nothing has been read. -/
def start (scope : Scope) : Scan :=
  ⟨[], none, scope.positionals, false⟩

/-- The parameter is given. -/
def has (scan : Scan) (p : Parameter) : Bool :=
  scan.given.any fun given => given.parameter = p

/-- Looks at a parameter that is given. -/
def add (scan : Scan) (p : Parameter) (text : String) (source : Source) : Except Usage Scan := do
  if scan.has p then throw (.conflict p)
  p.check text
  return { scan with given := scan.given ++ [⟨p, text, source⟩] }

/-- Looks at what is still to be looked at. -/
def settle (scan : Scan) : Except Usage Scan :=
  match scan.pending with
  | none => .ok scan
  | some (p, none) => .error (.emptyValue p)
  | some (p, some text) => { scan with pending := none }.add p text .commandLine

/-- Reads a word that is given by its order. -/
def readPositional (scope : Scope) (scan : Scan) (word : String) : Except Usage Scan :=
  match scan.positionals with
  | p :: rest => do
    let scan ← scan.settle
    return { scan with pending := some (p, some word), positionals := rest }
  | [] =>
    if scope = .program ∧ ¬ (scan.escaped ∧ (word = "help" ∨ (CommandName.ofText? word).isSome)) then
      .error .unknownCommand
    else .error (.unknownArgument word)

/-- Reads an option. -/
def readOption (scope : Scope) (scan : Scan) (name : String) (attached : Option String) :
    Except Usage Scan :=
  match scope.option? name with
  | none =>
    if name = "help" then
      if attached.isSome then .error (.unwantedValue "--help")
      else do
        let _ ← scan.settle
        throw .help
    else .error (.unknownArgument ("--" ++ name))
  | some p =>
    match p.takesValue, attached with
    | true, some text => do (← scan.settle).add p text .commandLine
    | true, none => do
      let scan ← scan.settle
      return { scan with pending := some (p, none) }
    | false, some _ => .error (.unwantedValue p.shown)
    | false, none => do (← scan.settle).add p "true" .commandLine

/-- Reads a word. -/
def read (scope : Scope) (scan : Scan) (word : String) : Except Usage Scan :=
  if scan.escaped then scan.readPositional scope word
  else
    match Word.ofText word with
    | .escape => .ok { scan with escaped := true }
    | .long name attached => scan.readOption scope name attached
    | .short letter =>
      if letter = 'h' then do
        let _ ← scan.settle
        throw .help
      else .error (.unknownArgument (String.ofList ['-', letter]))
    | .plain =>
      match scan.pending with
      | some (p, none) => .ok { scan with pending := some (p, some word) }
      | _ => scan.readPositional scope word

/-- The next word may be the name of a command. -/
def atCommand (scan : Scan) : Bool :=
  !scan.escaped &&
    match scan.pending with
    | some (_, none) => false
    | _ => true

/-- Takes what the command line does not give from the environment. -/
def addVariables (environment : Environment) : List Parameter → Scan → Except Usage Scan
  | [], scan => .ok scan
  | p :: rest, scan => do
    let scan ←
      match scan.has p, p.fromVariable?.bind environment with
      | false, some text => scan.add p text .environment
      | _, _ => pure scan
    scan.addVariables environment rest

/-- All that is given in a scope, after its last word. -/
def finish (scope : Scope) (environment : Environment) (scan : Scan) : Except Usage (List Given) := do
  return (← (← scan.settle).addVariables environment scope.parameters).given

end Scan

/-! ## The words of a command -/

/-- Reads the words after the name of a command. -/
def readCommandWords (name : CommandName) : List String → Scan → Except Usage Scan
  | [], scan => .ok scan
  | word :: rest, scan => do readCommandWords name rest (← scan.read (.command name) word)

/-- The parameters are given. -/
def isGiven (given : List Given) (p : Parameter) : Bool :=
  given.any fun g => g.parameter = p

/-- The parameters of a command that have to be given: a key to import comes from a file unless it is
given itself. -/
def requiredParameters (name : CommandName) (given : List Given) : List Parameter :=
  if name = .importAccount ∧ !isGiven given .privateKey then [.keyfile] else name.required

/-- Refuses parameters that exclude each other, and requires those that have to be given. -/
def checkTogether (name : CommandName) (given : List Given) : Except Usage Unit := do
  if isGiven given .keyfile ∧ isGiven given .privateKey then
    if let some g := given.find? fun g => g.parameter = .keyfile ∨ g.parameter = .privateKey then
      throw (.conflict g.parameter)
  match (requiredParameters name given).filter fun p => !isGiven given p with
  | [] => return ()
  | missing => throw (.missing missing)

/-- All that is given after the name of a command. -/
def readCommand (name : CommandName) (environment : Environment) (words : List String) :
    Except Usage (List Given) := do
  let scope := Scope.command name
  let given ← (← readCommandWords name words (.start scope)).finish scope environment
  checkTogether name given
  return given

/-! ## The words of the program -/

/-- What is asked about when help is asked for. -/
def readHelp : List String → Usage
  | [] => .help
  | [word] => if word = "help" ∨ (CommandName.ofText? word).isSome then .help else .unknownCommand
  | _ => .unknownCommand

/-- Reads the words before the name of a command. Tells the name and the words after it. -/
def readProgramWords : List String → Scan → Except Usage (Scan × Option (CommandName × List String))
  | [], scan => .ok (scan, none)
  | word :: rest, scan =>
    match scan.atCommand, CommandName.ofText? word with
    | true, some name => .ok (scan, some (name, rest))
    | true, none =>
      if word = "help" then .error (readHelp rest)
      else do readProgramWords rest (← scan.read .program word)
    | false, _ => do readProgramWords rest (← scan.read .program word)

/-! ## What the command line says -/

/-- What is given before and after the name of a command. -/
structure Arguments where
  outer : List Given
  inner : List Given

namespace Arguments

/-- The text of a parameter: the inner one, unless only the outer one is on the command line. -/
def text? (arguments : Arguments) (p : Parameter) : Option String :=
  let outer := arguments.outer.find? fun given => given.parameter = p
  let inner := arguments.inner.find? fun given => given.parameter = p
  match outer, inner with
  | some outer, some inner =>
    if outer.source = .commandLine ∧ inner.source = .environment then some outer.text
    else some inner.text
  | some outer, none => some outer.text
  | none, some inner => some inner.text
  | none, none => none

/-- The value of a parameter that has to be given. -/
def value (arguments : Arguments) (p : Parameter) (read : String → Option α) : Except Usage α :=
  match arguments.text? p with
  | none => .error (.missing [p])
  | some text =>
    match read text with
    | some a => .ok a
    | none => .error (.badValue p)

/-- The value of a parameter that has one unless it is given. -/
def valueOr (arguments : Arguments) (p : Parameter) (read : String → Option α) (usual : α) :
    Except Usage α :=
  match arguments.text? p with
  | none => .ok usual
  | some _ => arguments.value p read

/-- The chain that transactions are for unless another one is given. -/
def usualChain : UInt64 := 9323310

/-- The gas that a transaction may use unless another limit is given. -/
def usualGasLimit : UInt64 := 21000

/-- The transaction that the arguments tell. -/
def transaction (arguments : Arguments) : Except Usage LegacyTransaction := do
  return {
    chainId := some (← arguments.valueOr .chainId Parameter.readWord usualChain)
    nonce := ← arguments.value .nonce Parameter.readWord
    gasPrice := ← arguments.value .gasPrice Parameter.readPrice
    gasLimit := ← arguments.valueOr .gasLimit Parameter.readWord usualGasLimit
    recipient := some (← arguments.value .recipient Address.ofText?)
    value := ← arguments.valueOr .value Parameter.readAmount 0
    input := ← arguments.valueOr .data Parameter.readData [] }

/-- The source of an imported key that the arguments tell. -/
def keySource (arguments : Arguments) : Except Usage KeySource :=
  match arguments.text? .keyfile, arguments.text? .privateKey with
  | some path, _ => .ok (.file (Path.ofText path))
  | none, some secret => .ok (.secret secret)
  | none, none => .error (.missing [.keyfile])

/-- The command that the arguments tell. -/
def command (arguments : Arguments) : CommandName → Except Usage Command
  | .new => .ok .new
  | .list => .ok .list
  | .importAccount => do
    return .importAccount (← arguments.keySource) (arguments.text? .newPassword)
  | .exportKey => do return .exportKey (← arguments.value .address Address.ofText?)
  | .update => do
    return .update (← arguments.value .address Address.ofText?) (← arguments.value .newPassword some)
  | .delete => do return .delete (← arguments.value .address Address.ofText?)
  | .signMessage => do
    return .signMessage (← arguments.value .address Address.ofText?)
      (← arguments.value .message some) (arguments.text? .raw).isSome
  | .signTransaction => do
    return .signTransaction (← arguments.value .address Address.ofText?) (← arguments.transaction)

/-- What the command line says. -/
def invocation (arguments : Arguments) (name : CommandName) : Except Usage Invocation := do
  return {
    keystore := (arguments.text? .keystore).map Path.ofText
    password := arguments.text? .password
    kdfIterations :=
      ← arguments.valueOr .kdfIterations Parameter.readIterations Config.defaultIterations
    command := ← arguments.command name }

end Arguments

/-- What a command line says, or why it is refused. -/
def Invocation.ofWords (words : List String) (environment : Environment) :
    Except Usage Invocation := do
  let (scan, next) ← readProgramWords words (.start .program)
  match next with
  | some (name, rest) =>
    let inner ← readCommand name environment rest
    let outer ← scan.finish .program environment
    Arguments.invocation ⟨outer, inner⟩ name
  | none =>
    let outer ← scan.finish .program environment
    throw (if outer.isEmpty then .helpForMissing else .missingCommand)

end Keyring.Cli
