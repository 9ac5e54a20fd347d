import Keyring.Bytes.Hex
import Keyring.Text.Alphanumeric
import Keyring.Text.Blank

/-!
# Patterns

Which texts are regular expressions. A pattern is read from left to right: items, classes in brackets,
groups, bars, and signs of repetition after what is repeated. A group may change the flags for itself or
for what follows in the group around it. No tables of letters are at hand, so that while a pattern is
read by characters (the flag `u`, which is set at first) there are no letters of both cases, no classes
by a letter and no edges of words; while it is not, nothing may stand for a byte beyond ASCII alone.
Counted repetitions are refused.
-/

namespace Keyring.Cli.Pattern

/-- The flags that decide what may stand in a pattern. -/
structure Flags where
  /-- Letters stand for both cases. -/
  ignoreCase : Bool
  /-- The text is read by characters, and not by bytes. -/
  unicode : Bool
  /-- Blanks and comments stand for nothing. -/
  verbose : Bool

namespace Flags

/-- The flags that a pattern starts with. -/
def usual : Flags := ⟨false, true, false⟩

/-- Literals and classes have both cases, which nothing is known about. -/
def foldsUnknown (flags : Flags) : Bool :=
  flags.ignoreCase && flags.unicode

/-- The flags after a change that is written as letters, with a dash before those that go. -/
def change (flags : Flags) (letters : List Char) : Flags :=
  let set := letters.takeWhile (· ≠ '-')
  let value (letter : Char) (old : Bool) : Bool :=
    if letter ∈ set then true else if letter ∈ letters then false else old
  ⟨value 'i' flags.ignoreCase, value 'u' flags.unicode, value 'x' flags.verbose⟩

end Flags

/-- A change of flags has letters of its own, each once, and a letter after its dash. -/
def isChange (letters : List Char) : Bool :=
  letters.all (· ∈ ['i', 'm', 's', 'U', 'u', 'R', 'x', '-']) && decide letters.Nodup
    && letters.getLast? ≠ some '-'

/-- The text after blanks and comments, which go from a `#` to the end of its line. -/
def dropBlanks (inComment : Bool) : List Char → List Char
  | [] => []
  | c :: rest =>
    if inComment then dropBlanks (c ≠ '\n') rest
    else if Text.isBlank c then dropBlanks false rest
    else if c = '#' then dropBlanks true rest
    else c :: rest

/-- The text after what stands for nothing. -/
def Flags.skip (flags : Flags) (text : List Char) : List Char :=
  if flags.verbose then dropBlanks false text else text

/-! ## Items -/

/-- The smallest parts of a pattern. -/
inductive Item where
  /-- A character, which may be written as the code of a byte. -/
  | literal (c : Char) (isByte : Bool)
  /-- A class by a letter. -/
  | set (negated : Bool)
  /-- A place between characters: an end of the text, or the edge of a word. -/
  | edge (ofWord : Bool)

namespace Item

/-- The item may stand outside of brackets. -/
def isAllowed (flags : Flags) : Item → Bool
  | literal c isByte =>
    !flags.foldsUnknown && (flags.unicode || !isByte || c.toNat < 0x80)
  | set negated => !flags.unicode && !negated
  | edge ofWord => !(flags.unicode && ofWord)

/-- The item may stand in brackets. -/
def isMember (flags : Flags) : Item → Bool
  | literal c _ => !flags.foldsUnknown && (flags.unicode || c.toNat < 0x80)
  | set negated => !flags.unicode && !negated
  | edge _ => false

end Item

/-- Reads the character of a code of so many hexadecimal digits. -/
def readCode (flags : Flags) : (digits n : Nat) → List Char → Option (Char × List Char)
  | 0, n, rest => if n.isValidChar then some (Char.ofNat n, rest) else none
  | digits + 1, n, text =>
    match flags.skip text with
    | [] => none
    | c :: rest => (Hex.digitValue? c).bind fun d => readCode flags digits (16 * n + d) rest

/-- The control characters that have letters. -/
def controls : List (Char × Char) :=
  [('a', '\x07'), ('f', '\x0c'), ('t', '\t'), ('n', '\n'), ('r', '\r'), ('v', '\x0b')]

/-- The item of a character after a backslash; letters and digits that name nothing are refused. -/
def escaped? (c : Char) : Option Item :=
  match controls.lookup c with
  | some control => some (.literal control false)
  | none =>
    if c ∈ ['d', 's', 'w'] then some (.set false)
    else if c ∈ ['D', 'S', 'W'] then some (.set true)
    else if c ∈ ['A', 'z'] then some (.edge false)
    else if c ∈ ['b', 'B', '<', '>'] then some (.edge true)
    else if c.toNat < 0x80 && !c.isAlphanum then some (.literal c false)
    else none

/-- Reads an item after its backslash. -/
def readEscaped (flags : Flags) : List Char → Option (Item × List Char)
  | [] => none
  | c :: rest =>
    let code (digits : Nat) (isByte : Bool) : Option (Item × List Char) :=
      (readCode flags digits 0 rest).map fun (code, rest) => (.literal code isByte, rest)
    if c = 'x' then code 2 true
    else if c = 'u' then code 4 false
    else if c = 'U' then code 8 false
    else (escaped? c).map fun item => (item, rest)

/-! ## Classes in brackets -/

/-- Reads an item in brackets. -/
def readItem (flags : Flags) : List Char → Option (Item × List Char)
  | [] => none
  | '\\' :: rest => readEscaped flags rest
  | c :: rest => some (.literal c false, rest)

/-- The items are the ends of a range. -/
def isRange (flags : Flags) : Item → Item → Bool
  | .literal first b, .literal last c =>
    (Item.literal first b).isMember flags && (Item.literal last c).isMember flags && first ≤ last
  | _, _ => false

/-- Reads an item or a range in brackets. A dash before another one or before the end makes no range. -/
def readMember (flags : Flags) (text : List Char) : Option (List Char) := do
  let (first, rest) ← readItem flags text
  let single (rest : List Char) : Option (List Char) :=
    if first.isMember flags then some rest else none
  match flags.skip rest with
  | '-' :: rest =>
    match flags.skip rest with
    | ']' :: _ | '-' :: _ => single ('-' :: rest)
    | text =>
      let (last, rest) ← readItem flags text
      if isRange flags first last then some rest else none
  | rest => single rest

/-- The names of classes. -/
def classNames : List String :=
  ["alnum", "alpha", "ascii", "blank", "cntrl", "digit", "graph", "lower", "print", "punct", "space",
    "upper", "word", "xdigit"]

/-- Reads a class by its name between colons, after the bracket before it. Tells whether it is
negated. -/
def readNamed : List Char → Option (Bool × List Char)
  | ':' :: rest =>
    let negated := rest.head? = some '^'
    let rest := if negated then rest.tail else rest
    match rest.dropWhile (· ≠ ':') with
    | ':' :: ']' :: after =>
      if String.ofList (rest.takeWhile (· ≠ ':')) ∈ classNames then some (negated, after) else none
    | _ => none
  | _ => none

/-- How much of a class has been read. -/
inductive ClassStage where
  /-- Its bracket. -/
  | opened
  /-- The sign that negates it. -/
  | negated
  /-- Dashes. -/
  | dashes
  | members

/-- Reads a class after its bracket, and those in it, of which `depth` are open. The fuel bounds the
steps. -/
def readClass (flags : Flags) : (fuel depth : Nat) → ClassStage → List Char → Option (List Char)
  | 0, _, _, _ => none
  | fuel + 1, depth, stage, text =>
    match flags.skip text, stage with
    | '^' :: rest, .opened =>
      if flags.unicode then readClass flags fuel depth .negated rest else none
    | '-' :: rest, .opened | '-' :: rest, .negated | '-' :: rest, .dashes =>
      if flags.foldsUnknown then none else readClass flags fuel depth .dashes rest
    | ']' :: rest, .opened | ']' :: rest, .negated =>
      if flags.foldsUnknown then none else readClass flags fuel depth .members rest
    | ']' :: rest, _ =>
      match depth with
      | 0 => some rest
      | depth + 1 => readClass flags fuel depth .members rest
    | '[' :: rest, _ =>
      match readNamed rest with
      | some (negated, rest) =>
        if !flags.foldsUnknown && (flags.unicode || !negated) then
          readClass flags fuel depth .members rest
        else none
      | none => readClass flags fuel (depth + 1) .opened rest
    | '&' :: '&' :: rest, _ | '-' :: '-' :: rest, _ | '~' :: '~' :: rest, _ =>
      readClass flags fuel depth .members rest
    | text, _ => (readMember flags text).bind (readClass flags fuel depth .members)

/-! ## Groups -/

/-- What a parenthesis starts. -/
inductive GroupStart where
  /-- A change of the flags for what follows. -/
  | change (flags : Flags)
  /-- A group with flags of its own, and perhaps a name. -/
  | group (flags : Flags) (name : Option (List Char))

/-- The name of a group starts with a letter or a low line. -/
def isGroupName : List Char → Bool
  | [] => false
  | c :: rest =>
    (c = '_' || Text.isAlphabetic c)
      && rest.all fun c => c ∈ ['_', '.', '[', ']'] || Text.isAlphanumeric c

/-- Reads the name of a group and the sign after it. -/
def readGroupName (text : List Char) : Option (List Char × List Char) :=
  let name := text.takeWhile (· ≠ '>')
  match text.dropWhile (· ≠ '>') with
  | [] => none
  | _ :: rest => if isGroupName name then some (name, rest) else none

/-- Reads what follows a parenthesis. -/
def readGroupStart (flags : Flags) : List Char → Option (GroupStart × List Char)
  | '?' :: 'P' :: '<' :: rest | '?' :: '<' :: rest =>
    (readGroupName rest).map fun (name, rest) => (.group flags (some name), rest)
  | '?' :: rest =>
    let isLetter (c : Char) : Bool := c ≠ ':' && c ≠ ')'
    let letters := rest.takeWhile isLetter
    match isChange letters, rest.dropWhile isLetter with
    | true, ':' :: rest => some (.group (flags.change letters) none, rest)
    | true, ')' :: rest =>
      if letters.isEmpty then none else some (.change (flags.change letters), rest)
    | _, _ => none
  | rest => some (.group flags none, rest)

/-! ## Patterns -/

/-- What is known where a pattern has been read up to. -/
structure State where
  flags : Flags
  /-- The flags around each open group, the innermost first. -/
  outer : List Flags
  /-- The names of groups. -/
  names : List (List Char)
  /-- There is something to repeat. -/
  repeatable : Bool

/-- The text without the sign that makes a repetition lazy. -/
def dropLazy : List Char → List Char
  | '?' :: rest => rest
  | text => text

/-- Reads one part of a pattern, its first character apart. -/
def readPart (state : State) (c : Char) (rest : List Char) : Option (State × List Char) :=
  let flags := state.flags
  let done (rest : List Char) : State × List Char := ({ state with repeatable := true }, rest)
  match c with
  | '(' => do
    match ← readGroupStart flags (flags.skip rest) with
    | (.change flags, rest) => return ({ state with flags := flags, repeatable := false }, rest)
    | (.group inner name, rest) =>
      if (name.map fun name => decide (name ∈ state.names)) = some true then none
      else some (⟨inner, flags :: state.outer, name.toList ++ state.names, false⟩, rest)
  | ')' =>
    match state.outer with
    | [] => none
    | flags :: outer => some (⟨flags, outer, state.names, true⟩, rest)
  | '|' => some ({ state with repeatable := false }, rest)
  | '[' => (readClass flags (rest.length + 1) 0 .opened rest).map done
  | '?' | '*' | '+' => if state.repeatable then some (done (dropLazy rest)) else none
  | '{' => none
  | '\\' => do
    let (item, rest) ← readEscaped flags rest
    if item.isAllowed flags then some (done rest) else none
  | '.' => if flags.unicode then some (done rest) else none
  | '^' | '$' => some (done rest)
  | c => if (Item.literal c false).isAllowed flags then some (done rest) else none

/-- The text is the rest of a pattern. The fuel bounds the parts. -/
def isRest : (fuel : Nat) → State → List Char → Bool
  | 0, _, _ => false
  | fuel + 1, state, text =>
    match state.flags.skip text with
    | [] => state.outer.isEmpty
    | c :: rest =>
      match readPart state c rest with
      | some (state, rest) => isRest fuel state rest
      | none => false

end Pattern

/-- The text is a regular expression. -/
def isPattern (text : String) : Bool :=
  Pattern.isRest (text.length + 1) ⟨.usual, [], [], false⟩ text.toList

end Keyring.Cli
