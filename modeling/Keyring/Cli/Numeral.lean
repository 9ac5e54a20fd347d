import Keyring.Bytes.Basic

/-!
# Numbers on the command line

Word-sized numbers are written in decimal, with a plus sign or without one. Numbers of 256 bits have
forms for the bases two, eight, ten and sixteen, may be set apart with underscores, and are zero where
there are no digits.
-/

namespace Keyring.Cli

/-- The value of a digit or a letter of either case in bases up to thirty-six. -/
def numeralDigit? (c : Char) : Option Nat :=
  if '0' ≤ c ∧ c ≤ '9' then some (c.toNat - 48)
  else if 'a' ≤ c ∧ c ≤ 'z' then some (c.toNat - 87)
  else if 'A' ≤ c ∧ c ≤ 'Z' then some (c.toNat - 55)
  else none

/-- The number that `n` becomes when digits of a base are written after it. -/
def readDigits (base : Nat) : (n : Nat) → List Char → Option Nat
  | n, [] => some n
  | n, c :: rest =>
    match numeralDigit? c with
    | some d => if d < base then readDigits base (base * n + d) rest else none
    | none => none

/-- The number of one or more decimal digits. -/
def decimal? (text : List Char) : Option Nat :=
  if text.isEmpty then none else readDigits 10 0 text

/-- The text without one plus sign before it. -/
def dropPlus : List Char → List Char
  | '+' :: rest => rest
  | text => text

/-- A number below a bound in decimal, with a plus sign or without one. -/
def unsigned? (bound : Nat) (text : List Char) : Option Nat :=
  (decimal? (dropPlus text)).filter (· < bound)

/-- A number below a bound in decimal, with a sign or without one; only zero may have a minus sign. -/
def signed? (bound : Nat) : List Char → Option Nat
  | '-' :: rest => (decimal? rest).filter (· = 0)
  | text => unsigned? bound text

/-- The base that a text is written in, and its digits. -/
def baseOf : List Char → Nat × List Char
  | '0' :: 'x' :: rest | '0' :: 'X' :: rest => (16, rest)
  | '0' :: 'o' :: rest | '0' :: 'O' :: rest => (8, rest)
  | '0' :: 'b' :: rest | '0' :: 'B' :: rest => (2, rest)
  | text => (10, text)

/-- A number below a bound in a base that its first two characters may tell. -/
def prefixed? (bound : Nat) (text : List Char) : Option Nat :=
  let (base, digits) := baseOf text
  (readDigits base 0 (digits.filter (· ≠ '_'))).filter (· < bound)

end Keyring.Cli
