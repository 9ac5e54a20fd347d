/-!
# Numbers of double precision

The finite non-negative numbers with a significand of fifty-three bits, in exact arithmetic. Each
operation is exact and then rounded to the nearest such number, a tie going to the even significand;
a result that rounds to `2 ^ 1024` or more is out of range.
-/

namespace Keyring

/-- The number `significand * 2 ^ exponent`. The significand is below `2 ^ 53`, and at least `2 ^ 52`
unless the exponent is the least one, `-1074`. -/
structure Binary64 where
  significand : Nat
  exponent : Int
deriving DecidableEq

namespace Binary64

/-- The number zero. -/
def zero : Binary64 :=
  ⟨0, -1074⟩

/-- The quotient rounded to the nearest integer, a tie to the even one. -/
def roundDiv (num den : Nat) : Nat :=
  let q := num / den
  let r := num % den
  if 2 * r > den ∨ (2 * r = den ∧ q % 2 = 1) then q + 1 else q

/-- The largest `e` with `2 ^ e ≤ num / den`, for positive numbers. -/
def floorLog2 (num den : Nat) : Int :=
  let e : Int := num.log2 - den.log2
  if den * 2 ^ e.toNat ≤ num * 2 ^ (-e).toNat then e else e - 1

/-- The number nearest to a quotient, if it is in range. -/
def round (num den : Nat) : Option Binary64 :=
  if num = 0 then some zero
  else
    let e := max (floorLog2 num den - 52) (-1074)
    let m := roundDiv (num * 2 ^ (-e).toNat) (den * 2 ^ e.toNat)
    let (m, e) := if m = 2 ^ 53 then (2 ^ 52, e + 1) else (m, e)
    if e > 971 then none else some ⟨m, e⟩

/-- The number as a quotient. -/
def quotient (x : Binary64) : Nat × Nat :=
  (x.significand * 2 ^ x.exponent.toNat, 2 ^ (-x.exponent).toNat)

/-- The rounded product. -/
def mul (x y : Binary64) : Option Binary64 :=
  round (x.quotient.1 * y.quotient.1) (x.quotient.2 * y.quotient.2)

/-- The rounded quotient. -/
def div (x y : Binary64) : Option Binary64 :=
  round (x.quotient.1 * y.quotient.2) (x.quotient.2 * y.quotient.1)

/-- The number nearest to a power of ten, up to the largest one in range. -/
def powerOfTen (k : Nat) : Binary64 :=
  (round (10 ^ min k 308) 1).getD zero

/-- The number divided by `10 ^ k`: by `10 ^ 308` as often as that goes, rounding each time, and then
by what is left. Zero is reached after few steps and stays. -/
def scaleDown : (steps k : Nat) → Binary64 → Binary64
  | 0, _, x => x
  | steps + 1, k, x =>
    if k ≤ 308 then (x.div (powerOfTen k)).getD zero
    else if x.significand = 0 then x
    else scaleDown steps (k - 308) ((x.div (powerOfTen 308)).getD zero)

/-- A natural number times a power of ten, if it is in range: the rounded number is multiplied or
divided by the rounded power. -/
def ofDecimal (n : Nat) (exponent : Int) : Option Binary64 :=
  (round n 1).bind fun x =>
    if exponent < 0 then some (scaleDown ((-exponent).toNat / 308 + 1) (-exponent).toNat x)
    else if exponent ≤ 308 then x.mul (powerOfTen exponent.toNat)
    else if x.significand = 0 then some x
    else none

/-! ## The shortest decimal form -/

/-- A natural number times a power of ten. -/
structure Decimal where
  digits : Nat
  exponent : Int
deriving DecidableEq

/-- The ends of the interval of numbers that round to `x`, as numerators over the same denominator as
`x` itself, which comes second. The interval is half as wide below a power of two. -/
def interval (x : Binary64) : Nat × Nat × Nat × Nat :=
  let (num, den) := x.quotient
  let unit := 2 ^ x.exponent.toNat
  let below := if x.significand = 2 ^ 52 ∧ x.exponent > -1074 then unit else 2 * unit
  (4 * num - below, 4 * num, 4 * num + 2 * unit, 4 * den)

/-- A decimal with the given unit inside the interval, the one nearer to the number if both of its
neighbours are, an even one if both are equally near. -/
def within (x : Binary64) (exponent : Int) : Option Decimal :=
  let (low, num, high, den) := x.interval
  let scale := 10 ^ (-exponent).toNat
  let unit := den * 10 ^ exponent.toNat
  let isInside (d : Nat) : Bool :=
    let place := d * unit
    if x.significand % 2 = 0 then low * scale ≤ place && place ≤ high * scale
    else low * scale < place && place < high * scale
  let d := num * scale / unit
  let rest := num * scale % unit
  match isInside d, isInside (d + 1) with
  | false, false => none
  | true, false => some ⟨d, exponent⟩
  | false, true => some ⟨d + 1, exponent⟩
  | true, true =>
    some ⟨if 2 * rest < unit ∨ (2 * rest = unit ∧ d % 2 = 0) then d else d + 1, exponent⟩

/-- How many decimal digits a number has; zero has none. -/
def digitCount (n : Nat) : Nat :=
  if n = 0 then 0 else (Nat.toDigits 10 n).length

/-- The largest `k` with `10 ^ k ≤ x`, for a positive number. -/
def floorLog10 (x : Binary64) : Int :=
  let (num, den) := x.quotient
  let k : Int := (digitCount num : Int) - digitCount den
  if den * 10 ^ k.toNat ≤ num * 10 ^ (-k).toNat then k else k - 1

/-- The first decimal of `count`, `count + 1`, … digits inside the interval, among `tries` many. -/
def shortestFrom (x : Binary64) (top : Int) : (tries count : Nat) → Decimal
  | 0, _ => ⟨0, 0⟩
  | tries + 1, count =>
    match x.within (top + 1 - count) with
    | some d => d
    | none => shortestFrom x top tries (count + 1)

/-- The decimal of fewest digits that rounds to the number, the nearest one of those. Seventeen digits
always suffice. -/
def shortest (x : Binary64) : Decimal :=
  if x.significand = 0 then ⟨0, 0⟩ else shortestFrom x x.floorLog10 17 1

end Binary64

end Keyring
