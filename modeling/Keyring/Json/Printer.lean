import Keyring.Json.Value
import Keyring.Text.Utf8

/-!
# Writing JSON

The bytes of a value. In the wide form each item and each member stands on a line of its own, indented
by two spaces a level, and a colon is followed by a space. In a string, quotes, backslashes and the
characters below the space are escaped; all else is written as it is.
-/

namespace Keyring.Json

/-- The bytes of ASCII characters. -/
def ascii (cs : List Char) : Bytes :=
  cs.map fun c => UInt8.ofNat c.toNat

/-- A digit of a value below sixteen, in lowercase. -/
def hexByte (n : Nat) : UInt8 :=
  UInt8.ofNat (if n < 10 then 0x30 + n else 0x57 + n)

/-- The bytes of a character inside a string. -/
def escapeChar (c : Char) : Bytes :=
  if c = '"' then [0x5c, 0x22]
  else if c = '\\' then [0x5c, 0x5c]
  else if c.toNat = 0x08 then [0x5c, 0x62]
  else if c.toNat = 0x09 then [0x5c, 0x74]
  else if c.toNat = 0x0a then [0x5c, 0x6e]
  else if c.toNat = 0x0c then [0x5c, 0x66]
  else if c.toNat = 0x0d then [0x5c, 0x72]
  else if c.toNat < 0x20 then
    [0x5c, 0x75, 0x30, 0x30, hexByte (c.toNat / 16), hexByte (c.toNat % 16)]
  else Utf8.encodeChar c

/-- A string with its quotes. -/
def writeString (s : String) : Bytes :=
  0x22 :: s.toList.flatMap escapeChar ++ [0x22]

/-- A new line and its indentation. -/
def newLine (level : Nat) : Bytes :=
  0x0a :: List.replicate (2 * level) 0x20

mutual

/-- A value in the wide form, whose closing bracket is indented by `level` levels. -/
def write (level : Nat) : Json → Bytes
  | null => ascii "null".toList
  | bool b => ascii (if b then "true" else "false").toList
  | number n => ascii n.text.toList
  | string s => writeString s
  | array [] => ascii "[]".toList
  | array (item :: items) =>
    0x5b :: newLine (level + 1) ++ write (level + 1) item ++ writeItems (level + 1) items
      ++ newLine level ++ [0x5d]
  | object [] => ascii "\x7b\x7d".toList
  | object (entry :: members) =>
    0x7b :: newLine (level + 1) ++ writeMember (level + 1) entry
      ++ writeMembers (level + 1) members ++ newLine level ++ [0x7d]

/-- The items after the first, each after a comma and on its line. -/
def writeItems (level : Nat) : List Json → Bytes
  | [] => []
  | item :: items => 0x2c :: newLine level ++ write level item ++ writeItems level items

/-- A member, with its name before it. -/
def writeMember (level : Nat) : String × Json → Bytes
  | (name, value) => writeString name ++ [0x3a, 0x20] ++ write level value

/-- The members after the first, each after a comma and on its line. -/
def writeMembers (level : Nat) : List (String × Json) → Bytes
  | [] => []
  | entry :: members =>
    0x2c :: newLine level ++ writeMember level entry ++ writeMembers level members

end

/-- The bytes of a value in the wide form. -/
def toBytes (value : Json) : Bytes :=
  write 0 value

end Keyring.Json
