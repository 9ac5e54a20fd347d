import Keyring.Bytes.Basic
import Keyring.Json.Value
import Keyring.Text.Quoted

/-!
# What can be wrong with a JSON text

A problem is a cause and the place where it was noticed. Causes of the text itself are noticed where
reading stops; causes of what the text says (a wrong type, a member twice) get their place from the
value that is refused for it.
-/

namespace Keyring.Json

/-- What stands in a text where something else was expected. -/
inductive Found where
  | null
  | bool (b : Bool)
  | number (n : Number)
  | string (s : String)
  | sequence
  | map

/-- Why a text is refused. -/
inductive Cause where
  | endInValue
  | endInList
  | endInObject
  | endInString
  | noValue
  | badWord
  | noColon
  | noListComma
  | noObjectComma
  | keyNotString
  | trailingComma
  | trailingCharacters
  | badNumber
  | numberOutOfRange
  | badEscape
  | controlCharacter
  | loneSurrogate
  | unpairedSurrogate
  | notUtf8
  | tooDeep
  | wrongType (found : Found) (expected : String)
  | wrongValue (found : Found) (expected : String)
  | wrongLength (length : Nat) (expected : String)
  | repeatedMember (name : String)
  | missingMember (name : String)
  | noVariant (name : String)

/-- The name of what was found. -/
def Found.text : Found → String
  | null => "null"
  | bool b => "boolean `" ++ (if b then "true" else "false") ++ "`"
  | number (.real isNegative magnitude) =>
    "floating point `" ++ (Number.real isNegative magnitude).text ++ "`"
  | number n => "integer `" ++ n.text ++ "`"
  | string s => "string " ++ Text.quote s
  | sequence => "sequence"
  | map => "map"

/-- The wording of a cause. -/
def Cause.text : Cause → String
  | endInValue => "EOF while parsing a value"
  | endInList => "EOF while parsing a list"
  | endInObject => "EOF while parsing an object"
  | endInString => "EOF while parsing a string"
  | noValue => "expected value"
  | badWord => "expected ident"
  | noColon => "expected `:`"
  | noListComma => "expected `,` or `]`"
  | noObjectComma => "expected `,` or `\x7d`"
  | keyNotString => "key must be a string"
  | trailingComma => "trailing comma"
  | trailingCharacters => "trailing characters"
  | badNumber => "invalid number"
  | numberOutOfRange => "number out of range"
  | badEscape => "invalid escape"
  | controlCharacter => "control character (\\u0000-\\u001F) found while parsing a string"
  | loneSurrogate => "lone leading surrogate in hex escape"
  | unpairedSurrogate => "unexpected end of hex escape"
  | notUtf8 => "invalid unicode code point"
  | tooDeep => "recursion limit exceeded"
  | wrongType found expected => "invalid type: " ++ found.text ++ ", expected " ++ expected
  | wrongValue found expected => "invalid value: " ++ found.text ++ ", expected " ++ expected
  | wrongLength length expected => "invalid length " ++ toString length ++ ", expected " ++ expected
  | repeatedMember name => "duplicate field `" ++ name ++ "`"
  | missingMember name => "missing field `" ++ name ++ "`"
  | noVariant name => "data did not match any variant of untagged enum " ++ name

/-- A cause, and how many bytes were left unread where it was noticed, once that is settled. -/
structure Problem where
  cause : Cause
  unread : Option Nat

/-- The line of a place, from one, and the number of bytes before it in its line. -/
def position (input : Bytes) (unread : Nat) : Nat × Nat :=
  let before := input.take (input.length - unread)
  (before.count 10 + 1, (before.reverse.takeWhile (· != 10)).length)

/-- What is wrong with a text, and where: a line, and the number of bytes before the place in it. -/
structure Fault where
  cause : Cause
  line : Nat
  column : Nat

/-- The fault that a problem is in its text. -/
def Problem.fault (p : Problem) (input : Bytes) : Fault :=
  let (line, column) := position input (p.unread.getD 0)
  ⟨p.cause, line, column⟩

/-- The wording of a fault, with its place. -/
def Fault.message (f : Fault) : String :=
  f.cause.text ++ " at line " ++ toString f.line ++ " column " ++ toString f.column

end Keyring.Json
