import Keyring.Bytes.BigEndian

/-!
# Signatures

A signature is a pair of 256-bit numbers and the parity of a curve point. Its written form is
sixty-five bytes: both numbers, big-endian, and a last byte that is 27 for an even point and 28 for
an odd one. Reading also takes the other conventions for the last byte: the bare parity 0 or 1, and
the bytes from 35 on, whose parity is opposite to their own.
-/

namespace Keyring

/-- A signature over the curve. -/
structure Signature where
  r : BitVec 256
  s : BitVec 256
  /-- The point that `r` is taken from has an odd second coordinate. -/
  oddY : Bool
deriving DecidableEq

namespace Signature

/-- Why bytes are not a signature. -/
inductive Error where
  | length (length : Nat)
  | lastByte (byte : UInt8)
deriving DecidableEq

/-- The wording of an error. -/
def Error.message : Error → String
  | length n => "Invalid signature length: expected 65, got " ++ toString n
  | lastByte b => "Invalid signature: invalid parity: " ++ toString b.toNat

/-- The thirty-two bytes of a number. -/
def word (n : BitVec 256) : Bytes :=
  BigEndian.encode 32 n.toNat

/-- Both numbers and 27 or 28. Reference: `signature_to_bytes`. -/
def toBytes (sig : Signature) : Bytes :=
  word sig.r ++ word sig.s ++ [if sig.oddY then 28 else 27]

@[simp] theorem length_toBytes (sig : Signature) : sig.toBytes.length = 65 := by
  simp [toBytes, word]

/-- The parity that a last byte stands for. -/
def parity? (v : UInt8) : Option Bool :=
  if v = 0 ∨ v = 27 then some false
  else if v = 1 ∨ v = 28 then some true
  else if 35 ≤ v then some ((v - 35) % 2 = 1)
  else none

/-- The signature that sixty-five bytes stand for. Reference: `bytes_to_signature`. -/
def ofBytes (bytes : Bytes) : Except Error Signature :=
  if bytes.length = 65 then
    let v := bytes.getLastD 0
    match parity? v with
    | some oddY =>
      .ok { r := BitVec.ofNat 256 (BigEndian.decode (bytes.take 32))
            s := BitVec.ofNat 256 (BigEndian.decode ((bytes.drop 32).take 32))
            oddY := oddY }
    | none => .error (.lastByte v)
  else .error (.length bytes.length)

end Signature

end Keyring
