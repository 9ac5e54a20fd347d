import Keyring.Hash.Hmac

/-!
# PBKDF2 with HMAC-SHA-256

Each block of thirty-two output bytes is the sum of a chain of codes, the first one of the salt and
the block's number, each later one of its predecessor (RFC 8018). The chain always has its first
link, so a count of zero gives what a count of one gives. Main statement: the output has the asked
length (`length_derive`).
-/

namespace Keyring.Pbkdf2

open Sha256 (State)

/-- The word-wise sum of two hash values. -/
def sum (s t : State) : State :=
  ⟨s.a ^^^ t.a, s.b ^^^ t.b, s.c ^^^ t.c, s.d ^^^ t.d, s.e ^^^ t.e, s.f ^^^ t.f, s.g ^^^ t.g,
    s.h ^^^ t.h⟩

/-- The sum of `total` and of the `links` codes that follow `last` in its chain. -/
def chain (key : Hmac.Key) : (links : Nat) → (last total : State) → State
  | 0, _, total => total
  | links + 1, last, total =>
    let next := key.codeOfState last
    chain key links next (sum total next)

/-- The output block of the given number. -/
def block (key : Hmac.Key) (salt : Bytes) (iterations number : Nat) : Bytes :=
  let first := key.code (salt ++ BigEndian.encode 4 number)
  (chain key (iterations - 1) first first).toBytes

/-- The first `count` output blocks; they are numbered from one. -/
def blocks (key : Hmac.Key) (salt : Bytes) (iterations count : Nat) : Bytes :=
  (List.range' 1 count).flatMap (block key salt iterations)

/-- The `length` bytes derived from a password. -/
def derive (password salt : Bytes) (iterations length : Nat) : Bytes :=
  (blocks (Hmac.Key.ofBytes password) salt iterations ((length + 31) / 32)).take length

@[simp] theorem length_blocks (key : Hmac.Key) (salt : Bytes) (iterations count : Nat) :
    (blocks key salt iterations count).length = 32 * count := by
  simp [blocks, block, List.length_flatMap, List.map_const', Nat.mul_comm]

@[simp] theorem length_derive (password salt : Bytes) (iterations length : Nat) :
    (derive password salt iterations length).length = length := by
  simp [derive]; omega

end Keyring.Pbkdf2
