import Keyring.Bytes.BigEndian

/-!
# SHA-256

A message is padded to whole blocks of sixteen 32-bit words, and each block is compressed into a
state of eight words (FIPS 180-4). State and window of the message schedule are passed as separate
words, so that the recursion over the round constants is one loop on machine words.
-/

namespace Keyring.Sha256

/-- The eight words of a hash value. -/
structure State where
  a : UInt32
  b : UInt32
  c : UInt32
  d : UInt32
  e : UInt32
  f : UInt32
  g : UInt32
  h : UInt32
deriving DecidableEq, Inhabited

/-- The sixteen words of a message block. -/
structure Block where
  w0 : UInt32
  w1 : UInt32
  w2 : UInt32
  w3 : UInt32
  w4 : UInt32
  w5 : UInt32
  w6 : UInt32
  w7 : UInt32
  w8 : UInt32
  w9 : UInt32
  w10 : UInt32
  w11 : UInt32
  w12 : UInt32
  w13 : UInt32
  w14 : UInt32
  w15 : UInt32

/-- The initial hash value: fractional parts of the square roots of the first eight primes. -/
def initial : State :=
  ⟨0x6a09e667, 0xbb67ae85, 0x3c6ef372, 0xa54ff53a, 0x510e527f, 0x9b05688c, 0x1f83d9ab, 0x5be0cd19⟩

/-- The round constants: fractional parts of the cube roots of the first sixty-four primes. -/
def roundConstants : List UInt32 := [
  0x428a2f98, 0x71374491, 0xb5c0fbcf, 0xe9b5dba5, 0x3956c25b, 0x59f111f1, 0x923f82a4, 0xab1c5ed5,
  0xd807aa98, 0x12835b01, 0x243185be, 0x550c7dc3, 0x72be5d74, 0x80deb1fe, 0x9bdc06a7, 0xc19bf174,
  0xe49b69c1, 0xefbe4786, 0x0fc19dc6, 0x240ca1cc, 0x2de92c6f, 0x4a7484aa, 0x5cb0a9dc, 0x76f988da,
  0x983e5152, 0xa831c66d, 0xb00327c8, 0xbf597fc7, 0xc6e00bf3, 0xd5a79147, 0x06ca6351, 0x14292967,
  0x27b70a85, 0x2e1b2138, 0x4d2c6dfc, 0x53380d13, 0x650a7354, 0x766a0abb, 0x81c2c92e, 0x92722c85,
  0xa2bfe8a1, 0xa81a664b, 0xc24b8b70, 0xc76c51a3, 0xd192e819, 0xd6990624, 0xf40e3585, 0x106aa070,
  0x19a4c116, 0x1e376c08, 0x2748774c, 0x34b0bcb5, 0x391c0cb3, 0x4ed8aa4a, 0x5b9cca4f, 0x682e6ff3,
  0x748f82ee, 0x78a5636f, 0x84c87814, 0x8cc70208, 0x90befffa, 0xa4506ceb, 0xbef9a3f7, 0xc67178f2]

/-- The word rotated right by `n` places, `0 < n < 32`. -/
@[inline] def rotateRight (x n : UInt32) : UInt32 :=
  (x >>> n) ||| (x <<< (32 - n))

/-- The rounds for the given constants. `w0` to `w15` are the next sixteen words of the schedule;
each round uses `w0` and appends the word that follows `w15`. -/
def rounds (constants : List UInt32)
    (w0 w1 w2 w3 w4 w5 w6 w7 w8 w9 w10 w11 w12 w13 w14 w15 : UInt32)
    (a b c d e f g h : UInt32) : State :=
  match constants with
  | [] => ⟨a, b, c, d, e, f, g, h⟩
  | k :: constants =>
    let s1 := rotateRight e 6 ^^^ rotateRight e 11 ^^^ rotateRight e 25
    let choice := (e &&& f) ^^^ (~~~e &&& g)
    let t1 := h + s1 + choice + k + w0
    let s0 := rotateRight a 2 ^^^ rotateRight a 13 ^^^ rotateRight a 22
    let majority := (a &&& b) ^^^ (a &&& c) ^^^ (b &&& c)
    let next := (rotateRight w14 17 ^^^ rotateRight w14 19 ^^^ (w14 >>> 10)) + w9
      + (rotateRight w1 7 ^^^ rotateRight w1 18 ^^^ (w1 >>> 3)) + w0
    rounds constants w1 w2 w3 w4 w5 w6 w7 w8 w9 w10 w11 w12 w13 w14 w15 next
      (t1 + (s0 + majority)) a b c (d + t1) e f g

/-- The state after a block. -/
def compress (s : State) (m : Block) : State :=
  let t := rounds roundConstants m.w0 m.w1 m.w2 m.w3 m.w4 m.w5 m.w6 m.w7 m.w8 m.w9 m.w10 m.w11
    m.w12 m.w13 m.w14 m.w15 s.a s.b s.c s.d s.e s.f s.g s.h
  ⟨s.a + t.a, s.b + t.b, s.c + t.c, s.d + t.d, s.e + t.e, s.f + t.f, s.g + t.g, s.h + t.h⟩

/-- The big-endian words of a byte string whose length is a multiple of four, last word first, put
before those already `read`. -/
def wordsOnto (read : List UInt32) : Bytes → List UInt32
  | b0 :: b1 :: b2 :: b3 :: rest =>
    wordsOnto
      ((b0.toUInt32 <<< 24 ||| b1.toUInt32 <<< 16 ||| b2.toUInt32 <<< 8 ||| b3.toUInt32) :: read) rest
  | _ => read

/-- The big-endian words of a byte string whose length is a multiple of four. -/
def words (bytes : Bytes) : List UInt32 :=
  (wordsOnto [] bytes).reverse

/-- The state after the blocks that the words make up. -/
def absorb (s : State) : List UInt32 → State
  | w0 :: w1 :: w2 :: w3 :: w4 :: w5 :: w6 :: w7 :: w8 :: w9 :: w10 :: w11 :: w12 :: w13 :: w14
      :: w15 :: rest =>
    absorb (compress s ⟨w0, w1, w2, w3, w4, w5, w6, w7, w8, w9, w10, w11, w12, w13, w14, w15⟩) rest
  | _ => s

/-- What follows a message of `length` bytes: the bit `1`, zeros to eight bytes below a whole block,
and the length in bits. -/
def padding (length : Nat) : Bytes :=
  0x80 :: List.replicate ((119 - length % 64) % 64) 0 ++ BigEndian.encode 8 (8 * length)

/-- The state after a message that follows `before` bytes already absorbed, a multiple of 64. -/
def finish (s : State) (before : Nat) (message : Bytes) : State :=
  absorb s (words (message ++ padding (before + message.length)))

/-- The four bytes of a word. -/
def wordBytes (w : UInt32) : Bytes :=
  [(w >>> 24).toUInt8, (w >>> 16).toUInt8, (w >>> 8).toUInt8, w.toUInt8]

/-- The thirty-two bytes of a hash value. -/
def State.toBytes (s : State) : Bytes :=
  wordBytes s.a ++ wordBytes s.b ++ wordBytes s.c ++ wordBytes s.d ++ wordBytes s.e ++ wordBytes s.f
    ++ wordBytes s.g ++ wordBytes s.h

@[simp] theorem State.length_toBytes (s : State) : s.toBytes.length = 32 := rfl

/-- The SHA-256 hash of a message. -/
def hash (message : Bytes) : Bytes :=
  (finish initial 0 message).toBytes

@[simp] theorem length_hash (message : Bytes) : (hash message).length = 32 := rfl

end Keyring.Sha256
