/-!
# The curve secp256k1

Points of `y² = x³ + 7` over the prime field, as triples `(x, y, z)` that stand for the point
`(x / z², y / z³)`, or for the neutral point when `z` is zero. Field elements are numbers below the
field's prime. The public point of a secret is `multiple secret generator`.
-/

namespace Keyring.Secp256k1

/-- The prime of the field that coordinates are taken from. -/
def fieldPrime : Nat :=
  0xfffffffffffffffffffffffffffffffffffffffffffffffffffffffefffffc2f

/-- The prime order of the group: secrets are the numbers from one up to below it. -/
def order : Nat :=
  0xfffffffffffffffffffffffffffffffebaaedce6af48a03bbfd25e8cd0364141

/-- The bits of a number, most significant first. -/
def bits (n : Nat) : List Bool :=
  (List.range (n.log2 + 1)).reverse.map n.testBit

/-- `base ^ exponent` modulo `modulus`, by one squaring a bit. -/
def powMod (modulus base exponent : Nat) : Nat :=
  (bits exponent).foldl
    (fun acc bit =>
      let square := acc * acc % modulus
      if bit then square * base % modulus else square)
    1

/-- The inverse of a number that a prime modulus does not divide. -/
def inverseMod (modulus n : Nat) : Nat :=
  powMod modulus n (modulus - 2)

/-- The product of two field elements. -/
@[inline] def mul (a b : Nat) : Nat :=
  a * b % fieldPrime

/-- The difference of two field elements. -/
@[inline] def sub (a b : Nat) : Nat :=
  (a + (fieldPrime - b)) % fieldPrime

/-- A point, with coordinates up to a common scale. -/
structure Point where
  x : Nat
  y : Nat
  z : Nat

namespace Point

/-- The neutral point. -/
def neutral : Point :=
  ⟨1, 1, 0⟩

/-- The point added to itself. -/
def double (p : Point) : Point :=
  let ySquared := mul p.y p.y
  let s := mul 4 (mul p.x ySquared)
  let m := mul 3 (mul p.x p.x)
  let x := sub (mul m m) (2 * s % fieldPrime)
  { x := x
    y := sub (mul m (sub s x)) (mul 8 (mul ySquared ySquared))
    z := mul 2 (mul p.y p.z) }

/-- The sum of two points. -/
def add (p q : Point) : Point :=
  if p.z = 0 then q
  else if q.z = 0 then p
  else
    let pz2 := mul p.z p.z
    let qz2 := mul q.z q.z
    let u1 := mul p.x qz2
    let u2 := mul q.x pz2
    let s1 := mul p.y (mul q.z qz2)
    let s2 := mul q.y (mul p.z pz2)
    if u1 = u2 then
      if s1 = s2 then p.double else neutral
    else
      let h := sub u2 u1
      let r := sub s2 s1
      let h2 := mul h h
      let h3 := mul h h2
      let v := mul u1 h2
      let x := sub (sub (mul r r) h3) (2 * v % fieldPrime)
      { x := x
        y := sub (mul r (sub v x)) (mul s1 h3)
        z := mul h (mul p.z q.z) }

/-- The coordinates of the point a triple stands for; both are zero for the neutral point. -/
def coordinates (p : Point) : Nat × Nat :=
  let inverse := inverseMod fieldPrime p.z
  let inverse2 := mul inverse inverse
  (mul p.x inverse2, mul p.y (mul inverse inverse2))

end Point

/-- The generator of the group. -/
def generator : Point :=
  { x := 0x79be667ef9dcbbac55a06295ce870b07029bfcdb2dce28d959f2815b16f81798
    y := 0x483ada7726a3c4655da4fbfc0e1108a8fd17b448a68554199c47d08ffb10d4b8
    z := 1 }

/-- The point added up `n` times. -/
def multiple (n : Nat) (p : Point) : Point :=
  (bits n).foldl (fun acc bit => if bit then acc.double.add p else acc.double) .neutral

end Keyring.Secp256k1
