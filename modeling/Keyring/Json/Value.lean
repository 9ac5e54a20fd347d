import Keyring.Decimal.Binary64

/-!
# JSON values

A number is a natural number, a negative integer, or a number of double precision; which one depends
on its text and its size. An object keeps its members in order, repeated names included.
-/

namespace Keyring

namespace Json

/-- A number, by the form it is kept in. -/
inductive Number where
  | natural (n : Nat)
  /-- The integer `-n`, for a positive `n`. -/
  | negative (n : Nat)
  | real (isNegative : Bool) (magnitude : Binary64)
deriving DecidableEq

/-- The decimal digits of a natural number. -/
def naturalText (n : Nat) : List Char :=
  Nat.toDigits 10 n

/-- The text without the zeros at its end. -/
def dropEndZeros (digits : List Char) : List Char :=
  (digits.reverse.dropWhile (· == '0')).reverse

/-- The digits of a decimal with a point after the first `point` ones, which may be none or more than
there are; there is a digit on both sides of the point. -/
def positional (digits : List Char) (point : Int) : List Char :=
  if point ≤ 0 then '0' :: '.' :: (List.replicate (-point).toNat '0' ++ digits)
  else
    let whole := digits.take point.toNat
    let fraction := digits.drop point.toNat
    whole ++ List.replicate (point.toNat - whole.length) '0' ++ '.' ::
      (if fraction.isEmpty then ['0'] else fraction)

/-- The digits with a point after the first one, if there are more, and a signed exponent. -/
def scientific (digits : List Char) (exponent : Int) : List Char :=
  digits.take 1 ++ (if digits.length > 1 then '.' :: digits.drop 1 else [])
    ++ 'e' :: (if exponent < 0 then '-' else '+') :: naturalText exponent.natAbs

/-- The fewest digits that read back. The first one is written before the point up to `10 ^ 15` and
after it down to `10 ^ -5`; larger and smaller numbers are written with an exponent. -/
def realText (magnitude : Binary64) : List Char :=
  let decimal := magnitude.shortest
  if decimal.digits = 0 then ['0', '.', '0']
  else
    let all := naturalText decimal.digits
    let exponent := all.length - 1 + decimal.exponent
    let digits := dropEndZeros all
    if -5 ≤ exponent ∧ exponent ≤ 15 then positional digits (exponent + 1)
    else scientific digits exponent

/-- The text of a number. -/
def Number.text : Number → String
  | natural n => String.ofList (naturalText n)
  | negative n => String.ofList ('-' :: naturalText n)
  | real isNegative magnitude =>
    String.ofList ((if isNegative then ['-'] else []) ++ realText magnitude)

end Json

/-- A JSON value. -/
inductive Json where
  | null
  | bool (b : Bool)
  | number (n : Json.Number)
  | string (s : String)
  | array (items : List Json)
  | object (members : List (String × Json))

end Keyring
