import Keyring.Cli.Numeral
import Keyring.Cli.Pattern
import Keyring.Text.Utf8

/-!
# Directives

A directive tells up to which level events pass, and which ones it is about: those from a source, those
noted during a stretch of work, or those with a field, which may have to have a value. It is written as
`source[stretch{field=value}]=level`, of which parts may be missing, or as a level alone.

The signs between the parts are looked for without the blanks around a directive, but the parts are cut
out of the directive with its blanks, at the same places. So a blank before a directive moves all of its
parts, and one after it belongs to the last part.
-/

namespace Keyring.Cli

/-! ## Levels -/

/-- The rank of a level by its name or number; nothing at all passes up to zero. -/
def levelRank? (text : String) : Option Nat :=
  match unsigned? 6 text.toList with
  | some n => some n
  | none =>
    match String.ofList (text.toList.map Char.toLower) with
    | "off" => some 0
    | "error" => some 1
    | "warn" => some 2
    | "info" => some 3
    | "debug" => some 4
    | "trace" => some 5
    | _ => none

/-- The rank that everything passes up to. -/
def highestRank : Nat := 5

/-- The rank after an equals sign: everything passes if there is nothing. -/
def givenRank? (text : String) : Option Nat :=
  if text = "" then some highestRank else levelRank? text

/-! ## Conditions on fields -/

/-- A condition on the fields of an event. -/
structure FieldCondition where
  /-- There is a field by this name. -/
  name : String
  /-- It has to have a value. -/
  hasValue : Bool

/-- The digits of a number with a point and an exponent or without them. -/
def isUnsignedNumber (text : List Char) : Bool :=
  let (whole, rest) := text.span Char.isDigit
  let (fraction, rest) :=
    match rest with
    | '.' :: rest => rest.span Char.isDigit
    | rest => ([], rest)
  let exponent : List Char → Bool
    | [] => true
    | e :: '+' :: digits | e :: '-' :: digits | e :: digits =>
      (e = 'e' || e = 'E') && !digits.isEmpty && digits.all Char.isDigit
  !(whole.isEmpty && fraction.isEmpty) && exponent rest

/-- The text is a number after a plus sign. -/
def isPlusNumber : List Char → Bool
  | '+' :: rest =>
    String.ofList (rest.map Char.toLower) ∈ ["inf", "infinity", "nan"] || isUnsignedNumber rest
  | _ => false

/-- The text is a value: a pattern, or a number with a plus sign. All other numbers are patterns. -/
def isValue (text : String) : Bool :=
  isPlusNumber text.toList || isPattern text

/-- The condition that a text tells: a name, and a value between an equals sign and another one. -/
def FieldCondition.ofText? (text : String) : Option FieldCondition :=
  match text.splitOn "=" with
  | name :: value :: _ => if isValue value then some ⟨name, true⟩ else none
  | _ => if text = "" then none else some ⟨text, false⟩

/-! ## Directives -/

/-- A directive. -/
structure Directive where
  /-- Events pass up to this rank. -/
  rank : Nat
  /-- What the source of an event has to start with. -/
  source : Option String
  /-- The stretch of work that an event has to be noted in. -/
  stretch : Option String
  field : Option FieldCondition

namespace Directive

/-- A directive that is read: its bytes with the blanks around it, and how many there are from its start
to the end of what is left without them. -/
structure Reading where
  bytes : Bytes
  length : Nat

namespace Reading

/-- The number of bytes of a text. -/
def width (text : List Char) : Nat :=
  (String.ofList text).utf8ByteSize

/-- A directive that is read. -/
def ofText (text : String) : Reading :=
  ⟨Utf8.encode text, width (Text.trim text.toList)⟩

/-- The place where `rest` is left to read. -/
def place (reading : Reading) (rest : List Char) : Nat :=
  reading.length - width rest

/-- The part from one place to another one. -/
def part (reading : Reading) (first last : List Char) : Option String :=
  Utf8.decode? ((reading.bytes.take (reading.place last)).drop (reading.place first))

/-- The part from a place to the end. -/
def lastPart (reading : Reading) (rest : List Char) : Option String :=
  Utf8.decode? (reading.bytes.drop (reading.place rest))

/-- Reads the level of a directive, or its end. -/
def rank? (reading : Reading) : List Char → Option Nat
  | [] => some highestRank
  | '=' :: rest => (reading.lastPart rest).bind givenRank?
  | _ => none

/-- Reads a stretch of work and a field after their bracket, and then the level. -/
def readStretch (reading : Reading) (source : Option String) (text : List Char) : Option Directive :=
  match text.dropWhile fun c => c ≠ ']' && c ≠ '{' with
  | [] => none
  | sign :: rest => do
    let stretch ← reading.part text (sign :: rest)
    if sign = ']' then return ⟨← reading.rank? rest, source, some stretch, none⟩
    match rest.dropWhile (· ≠ '}') with
    | '}' :: ']' :: after =>
      let field ← FieldCondition.ofText? (← reading.part rest ('}' :: ']' :: after))
      return ⟨← reading.rank? after, source, if stretch = "" then none else some stretch, some field⟩
    | _ => none

end Reading

/-- The directive of a text alone: a level if it is one, or else a source. -/
def ofWord (text : String) : Directive :=
  match levelRank? text with
  | some rank => ⟨rank, none, none, none⟩
  | none => ⟨highestRank, some text, none, none⟩

/-- A source can start with the character. -/
def isStart (c : Char) : Bool :=
  c = '-' || c = ':' || c = '_' || Text.isAlphanumeric c

/-- The directive that a text is. -/
def ofText? (text : String) : Option Directive :=
  let reading := Reading.ofText text
  match Text.trim text.toList with
  | [] => none
  | '[' :: rest => reading.readStretch none rest
  | c :: rest =>
    let signs := rest.dropWhile fun c => c ≠ '=' && c ≠ '['
    if isStart c then
      match signs with
      | [] => some (ofWord text)
      | '[' :: after => do reading.readStretch (← reading.part (c :: rest) signs) after
      | _ => do
        return ⟨← reading.rank? signs, ← reading.part (c :: rest) signs, none, none⟩
    else none

end Directive

end Keyring.Cli
