import Keyring.Bytes.Basic

/-!
# Keccak-256

The sponge over the permutation of twenty-five 64-bit lanes, with a rate of 136 bytes and the
padding that the byte `0x01` starts, so not the padding of SHA3-256. The lanes are passed as separate
words through the recursion over the round constants. `keccak256` is the hash.
-/

namespace Keyring.Keccak

/-- The lanes, `xy` at column `x` and row `y`. -/
structure State where
  l00 : UInt64
  l10 : UInt64
  l20 : UInt64
  l30 : UInt64
  l40 : UInt64
  l01 : UInt64
  l11 : UInt64
  l21 : UInt64
  l31 : UInt64
  l41 : UInt64
  l02 : UInt64
  l12 : UInt64
  l22 : UInt64
  l32 : UInt64
  l42 : UInt64
  l03 : UInt64
  l13 : UInt64
  l23 : UInt64
  l33 : UInt64
  l43 : UInt64
  l04 : UInt64
  l14 : UInt64
  l24 : UInt64
  l34 : UInt64
  l44 : UInt64

/-- All lanes zero. -/
def State.zero : State :=
  ⟨0, 0, 0, 0, 0, 0, 0, 0, 0, 0, 0, 0, 0, 0, 0, 0, 0, 0, 0, 0, 0, 0, 0, 0, 0⟩

/-- The constants added to the first lane, one a round. -/
def roundConstants : List UInt64 := [
  0x0000000000000001, 0x0000000000008082, 0x800000000000808a, 0x8000000080008000,
  0x000000000000808b, 0x0000000080000001, 0x8000000080008081, 0x8000000000008009,
  0x000000000000008a, 0x0000000000000088, 0x0000000080008009, 0x000000008000000a,
  0x000000008000808b, 0x800000000000008b, 0x8000000000008089, 0x8000000000008003,
  0x8000000000008002, 0x8000000000000080, 0x000000000000800a, 0x800000008000000a,
  0x8000000080008081, 0x8000000000008080, 0x0000000080000001, 0x8000000080008008]

/-- The lane rotated left by `n` places, `0 < n < 64`. -/
@[inline] def rotateLeft (x n : UInt64) : UInt64 :=
  (x <<< n) ||| (x >>> (64 - n))

/-- The rounds for the given constants. Each adds to a lane the parities of two neighbouring columns
(`d0` to `d4`), rotates the lanes and moves them to new places (`bxy`), and combines each with the
two that follow it in its row. -/
def rounds (constants : List UInt64)
    (l00 l10 l20 l30 l40 l01 l11 l21 l31 l41 l02 l12 l22 l32 l42 l03 l13 l23 l33 l43
      l04 l14 l24 l34 l44 : UInt64) : State :=
  match constants with
  | [] => ⟨l00, l10, l20, l30, l40, l01, l11, l21, l31, l41, l02, l12, l22, l32, l42,
      l03, l13, l23, l33, l43, l04, l14, l24, l34, l44⟩
  | k :: constants =>
    let c0 := l00 ^^^ l01 ^^^ l02 ^^^ l03 ^^^ l04
    let c1 := l10 ^^^ l11 ^^^ l12 ^^^ l13 ^^^ l14
    let c2 := l20 ^^^ l21 ^^^ l22 ^^^ l23 ^^^ l24
    let c3 := l30 ^^^ l31 ^^^ l32 ^^^ l33 ^^^ l34
    let c4 := l40 ^^^ l41 ^^^ l42 ^^^ l43 ^^^ l44
    let d0 := c4 ^^^ rotateLeft c1 1
    let d1 := c0 ^^^ rotateLeft c2 1
    let d2 := c1 ^^^ rotateLeft c3 1
    let d3 := c2 ^^^ rotateLeft c4 1
    let d4 := c3 ^^^ rotateLeft c0 1
    let b00 := l00 ^^^ d0
    let b10 := rotateLeft (l11 ^^^ d1) 44
    let b20 := rotateLeft (l22 ^^^ d2) 43
    let b30 := rotateLeft (l33 ^^^ d3) 21
    let b40 := rotateLeft (l44 ^^^ d4) 14
    let b01 := rotateLeft (l30 ^^^ d3) 28
    let b11 := rotateLeft (l41 ^^^ d4) 20
    let b21 := rotateLeft (l02 ^^^ d0) 3
    let b31 := rotateLeft (l13 ^^^ d1) 45
    let b41 := rotateLeft (l24 ^^^ d2) 61
    let b02 := rotateLeft (l10 ^^^ d1) 1
    let b12 := rotateLeft (l21 ^^^ d2) 6
    let b22 := rotateLeft (l32 ^^^ d3) 25
    let b32 := rotateLeft (l43 ^^^ d4) 8
    let b42 := rotateLeft (l04 ^^^ d0) 18
    let b03 := rotateLeft (l40 ^^^ d4) 27
    let b13 := rotateLeft (l01 ^^^ d0) 36
    let b23 := rotateLeft (l12 ^^^ d1) 10
    let b33 := rotateLeft (l23 ^^^ d2) 15
    let b43 := rotateLeft (l34 ^^^ d3) 56
    let b04 := rotateLeft (l20 ^^^ d2) 62
    let b14 := rotateLeft (l31 ^^^ d3) 55
    let b24 := rotateLeft (l42 ^^^ d4) 39
    let b34 := rotateLeft (l03 ^^^ d0) 41
    let b44 := rotateLeft (l14 ^^^ d1) 2
    rounds constants
      (b00 ^^^ (~~~b10 &&& b20) ^^^ k) (b10 ^^^ (~~~b20 &&& b30)) (b20 ^^^ (~~~b30 &&& b40))
      (b30 ^^^ (~~~b40 &&& b00)) (b40 ^^^ (~~~b00 &&& b10))
      (b01 ^^^ (~~~b11 &&& b21)) (b11 ^^^ (~~~b21 &&& b31)) (b21 ^^^ (~~~b31 &&& b41))
      (b31 ^^^ (~~~b41 &&& b01)) (b41 ^^^ (~~~b01 &&& b11))
      (b02 ^^^ (~~~b12 &&& b22)) (b12 ^^^ (~~~b22 &&& b32)) (b22 ^^^ (~~~b32 &&& b42))
      (b32 ^^^ (~~~b42 &&& b02)) (b42 ^^^ (~~~b02 &&& b12))
      (b03 ^^^ (~~~b13 &&& b23)) (b13 ^^^ (~~~b23 &&& b33)) (b23 ^^^ (~~~b33 &&& b43))
      (b33 ^^^ (~~~b43 &&& b03)) (b43 ^^^ (~~~b03 &&& b13))
      (b04 ^^^ (~~~b14 &&& b24)) (b14 ^^^ (~~~b24 &&& b34)) (b24 ^^^ (~~~b34 &&& b44))
      (b34 ^^^ (~~~b44 &&& b04)) (b44 ^^^ (~~~b04 &&& b14))

/-- The permutation. -/
def permute (s : State) : State :=
  rounds roundConstants s.l00 s.l10 s.l20 s.l30 s.l40 s.l01 s.l11 s.l21 s.l31 s.l41 s.l02 s.l12
    s.l22 s.l32 s.l42 s.l03 s.l13 s.l23 s.l33 s.l43 s.l04 s.l14 s.l24 s.l34 s.l44

/-- The little-endian lanes of a byte string whose length is a multiple of eight, last lane first,
put before those already `read`. -/
def lanesOnto (read : List UInt64) : Bytes → List UInt64
  | b0 :: b1 :: b2 :: b3 :: b4 :: b5 :: b6 :: b7 :: rest =>
    lanesOnto
      ((b0.toUInt64 ||| b1.toUInt64 <<< 8 ||| b2.toUInt64 <<< 16 ||| b3.toUInt64 <<< 24
        ||| b4.toUInt64 <<< 32 ||| b5.toUInt64 <<< 40 ||| b6.toUInt64 <<< 48 ||| b7.toUInt64 <<< 56)
        :: read) rest
  | _ => read

/-- The little-endian lanes of a byte string whose length is a multiple of eight. -/
def lanes (bytes : Bytes) : List UInt64 :=
  (lanesOnto [] bytes).reverse

/-- The state after the blocks of seventeen lanes that the list makes up. -/
def absorb (s : State) : List UInt64 → State
  | w0 :: w1 :: w2 :: w3 :: w4 :: w5 :: w6 :: w7 :: w8 :: w9 :: w10 :: w11 :: w12 :: w13 :: w14
      :: w15 :: w16 :: rest =>
    absorb (permute ⟨s.l00 ^^^ w0, s.l10 ^^^ w1, s.l20 ^^^ w2, s.l30 ^^^ w3, s.l40 ^^^ w4,
      s.l01 ^^^ w5, s.l11 ^^^ w6, s.l21 ^^^ w7, s.l31 ^^^ w8, s.l41 ^^^ w9,
      s.l02 ^^^ w10, s.l12 ^^^ w11, s.l22 ^^^ w12, s.l32 ^^^ w13, s.l42 ^^^ w14,
      s.l03 ^^^ w15, s.l13 ^^^ w16, s.l23, s.l33, s.l43,
      s.l04, s.l14, s.l24, s.l34, s.l44⟩) rest
  | _ => s

/-- What follows a message of `length` bytes: `0x01`, zeros, and `0x80` in the block's last byte. -/
def padding (length : Nat) : Bytes :=
  match 135 - length % 136 with
  | 0 => [0x81]
  | zeros + 1 => 0x01 :: List.replicate zeros 0 ++ [0x80]

/-- The eight bytes of a lane, least significant first. -/
def laneBytes (w : UInt64) : Bytes :=
  [w.toUInt8, (w >>> 8).toUInt8, (w >>> 16).toUInt8, (w >>> 24).toUInt8, (w >>> 32).toUInt8,
    (w >>> 40).toUInt8, (w >>> 48).toUInt8, (w >>> 56).toUInt8]

/-- The first thirty-two bytes of the state. -/
def State.digest (s : State) : FixedBytes 32 :=
  ⟨laneBytes s.l00 ++ laneBytes s.l10 ++ laneBytes s.l20 ++ laneBytes s.l30, rfl⟩

end Keyring.Keccak

namespace Keyring

/-- The Keccak-256 hash of a message. -/
def keccak256 (message : Bytes) : FixedBytes 32 :=
  (Keccak.absorb .zero (Keccak.lanes (message ++ Keccak.padding message.length))).digest

end Keyring
