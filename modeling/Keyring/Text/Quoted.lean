import Keyring.Text.Unprintable
import Keyring.Text.Utf8
import Keyring.Bytes.Hex

/-!
# Quoted text

Texts in messages stand in quotes, so that their ends can be seen. A quote of the same kind and a
backslash get a backslash before them; tab, line feed, carriage return and the null character have
short forms; other unprintable characters are written as `\u` and their number in braces. A name of
bytes writes those that belong to no character as `\x` and two digits.
-/

namespace Keyring.Text

/-- The lowercase hexadecimal digits of a number. -/
def hexDigits (n : Nat) : List Char :=
  Nat.toDigits 16 n

/-- A character inside quotes, among which `quotes` are to be told from the surrounding ones. -/
def escape (quotes : List Char) (c : Char) : List Char :=
  if c = '\\' || quotes.contains c then ['\\', c]
  else if c = '\t' then ['\\', 't']
  else if c = '\n' then ['\\', 'n']
  else if c = '\r' then ['\\', 'r']
  else if c = '\x00' then ['\\', '0']
  else if isUnprintable c then "\\u\x7b".toList ++ hexDigits c.toNat ++ ['\x7d']
  else [c]

/-- A text in double quotes. -/
def quote (s : String) : String :=
  String.ofList ('"' :: s.toList.flatMap (escape ['"']) ++ ['"'])

/-- A character in single quotes. -/
def quoteChar (c : Char) : String :=
  String.ofList ('\'' :: escape ['\''] c ++ ['\''])

/-- The two capital hexadecimal digits of a byte, after `\x`. -/
def escapeByte (b : UInt8) : List Char :=
  '\\' :: 'x' :: (Hex.encode [b]).map Char.toUpper

/-- A piece of a name inside double quotes. -/
def escapePiece : Utf8.Piece → List Char
  | .char c => escape ['"'] c
  | .stray bytes => bytes.flatMap escapeByte

/-- A name of bytes in double quotes. -/
def quoteName (name : Bytes) : String :=
  String.ofList ('"' :: (Utf8.pieces name).flatMap escapePiece ++ ['"'])

end Keyring.Text
