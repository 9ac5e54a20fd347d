import Keyring.Curve.Secp256k1
import Keyring.Curve.Signature
import Keyring.Hash.Hmac
import Keyring.KeyPair

/-!
# Signing digests

ECDSA over secp256k1. The one-time number of a signature is derived from the secret and the digest
(RFC 6979), so signing is a function. Of the two numbers `s` and `order - s`, which both verify, the
smaller one is chosen, and the parity of the point is turned with it.
-/

namespace Keyring.Ecdsa

open Secp256k1 (order)

/-- The number is usable as a one-time number. -/
def isScalar (n : Nat) : Bool :=
  0 < n && n < order

/-- The first usable number of the generator with the given key and value, among `attempts` many. -/
def firstScalar : (attempts : Nat) → (key value : Bytes) → Option Nat
  | 0, _, _ => none
  | attempts + 1, key, value =>
    let value := Hmac.hash key value
    let n := BigEndian.decode value
    if isScalar n then some n
    else
      let key := Hmac.hash key (value ++ [0])
      firstScalar attempts key (Hmac.hash key value)

/-- The one-time number of a secret and a digest. A number is usable unless it is zero or at least
the order, which is less than 2⁻¹²⁷ likely, so that the attempts do not run out. -/
def oneTimeNumber (secret digest : FixedBytes 32) : Option Nat :=
  let seed := secret.toBytes ++ digest.toBytes
  let key := List.replicate 32 0
  let value := List.replicate 32 1
  let key := Hmac.hash key (value ++ 0 :: seed)
  let value := Hmac.hash key value
  let key := Hmac.hash key (value ++ 1 :: seed)
  let value := Hmac.hash key value
  firstScalar 64 key value

/-- The signature made with the one-time number `k`, unless one of its numbers is zero. -/
def signWith (secret digest k : Nat) : Option Signature :=
  let (x, y) := (Secp256k1.multiple k Secp256k1.generator).coordinates
  let r := x % order
  let s := Secp256k1.inverseMod order k * (digest + r * secret) % order
  if r = 0 ∨ s = 0 then none
  else
    let oddY := y % 2 = 1
    some <|
      if 2 * s > order then ⟨BitVec.ofNat 256 r, BitVec.ofNat 256 (order - s), !oddY⟩
      else ⟨BitVec.ofNat 256 r, BitVec.ofNat 256 s, oddY⟩

/-- The signature of a digest. -/
def sign (key : KeyPair) (digest : FixedBytes 32) : Option Signature :=
  (oneTimeNumber key.secretBytes digest).bind
    (signWith key.secret (BigEndian.decode digest.toBytes))

end Keyring.Ecdsa
