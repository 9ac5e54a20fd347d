import Keyring.Bytes.Hex
import Keyring.Hash.Scrypt
import Keyring.Keyfile.Basic
import Keyring.Keyfile.Error

/-!
# Deriving a keyfile's key

The parameters in a keyfile come from outside and are checked before they cost anything: `derivation`
bounds time, memory and length, and `Derivation.run` does the work. Memory is counted in words of
sixty-four bits, which stop at the largest one (`scryptMemory`), and the cost of scrypt is handed on by
its logarithm (`logCost`). Main statement: the derived key has the length that the derivation asks for
(`Derivation.length_run`).
-/

namespace Keyring

/-- A key derivation whose parameters were found good. -/
inductive Derivation where
  | pbkdf2 (salt : Bytes) (iterations length : Nat)
  | scrypt (salt : Bytes) (n r p length : Nat)
deriving DecidableEq

namespace Derivation

/-- The length of the derived key. -/
def length : Derivation → Nat
  | pbkdf2 _ _ length => length
  | scrypt _ _ _ _ length => length

/-- The key derived from a password. Reference: the second half of `derive_key`. -/
def run (password : Bytes) : Derivation → Bytes
  | pbkdf2 salt iterations length => Pbkdf2.derive password salt iterations length
  | scrypt salt n r p length => Scrypt.derive password salt n r p length

@[simp] theorem length_run (password : Bytes) (d : Derivation) : (d.run password).length = d.length := by
  cases d <;> simp [run, length]

end Derivation

open Keyfile (Error)

/-- The number is a power of two. -/
def isPowerOfTwo (n : Nat) : Bool :=
  n = 2 ^ n.log2

/-- The number of zeros below the lowest one, in the last `width` binary digits of a number. -/
def trailingZeros : (width n : Nat) → Nat
  | 0, _ => 0
  | width + 1, n => if n % 2 = 1 then 0 else trailingZeros width (n / 2) + 1

/-- The logarithm of a power of two, in a byte. -/
def logCost (n : UInt32) : UInt8 :=
  UInt8.ofNat (trailingZeros 32 n.toNat)

/-- The product of two words, or the largest word where it is no word. -/
def saturatingProduct (a b : UInt64) : UInt64 :=
  if a.toNat * b.toNat < 2 ^ 64 then a * b else 0xffffffffffffffff

/-- The bytes that scrypt keeps of a lane, or the largest word. -/
def scryptMemory (n r : UInt32) : UInt64 :=
  saturatingProduct (saturatingProduct n.toUInt64 r.toUInt64) 128

/-- The asked length of the derived key, if it is in range. Reference: `derived_key_buffer`. -/
def derivedLength (dklen : UInt32) : Except Error Nat :=
  if Keyfile.minDerivedLength ≤ dklen.toNat ∧ dklen.toNat ≤ Keyfile.maxDerivedLength then
    .ok dklen.toNat
  else .error (.derivedLength dklen)

/-- The bytes of a part of a keyfile. Reference: `decode_hex`. -/
def hexPart (part : Keyfile.HexPart) (text : String) : Except Error Bytes :=
  match Hex.ofText? text with
  | some bytes => .ok bytes
  | none => .error (.hex part)

/-- The derivation of the given name with the parameters, or the first thing that is wrong with them.
Reference: the checks of `derive_key`. -/
def KdfParams.derivation (kdf : String) : KdfParams → Except Error Derivation
  | .pbkdf2 dklen c prf salt => do
    if kdf ≠ "pbkdf2" ∨ prf ≠ "hmac-sha256" then throw (.kdf kdf (some prf))
    if c.toNat = 0 ∨ c.toNat > Keyfile.maxIterations then throw (.iterations c)
    let length ← derivedLength dklen
    let salt ← hexPart .salt salt
    return .pbkdf2 salt c.toNat length
  | .scrypt dklen n r p salt => do
    if kdf ≠ "scrypt" then throw (.kdf kdf none)
    if !isPowerOfTwo n.toNat ∨ n.toNat < 2 then throw .scryptCost
    if r.toNat = 0 ∨ p.toNat = 0 ∨ p.toNat > Keyfile.maxScryptLanes then throw (.scryptShape r p)
    if (scryptMemory n r).toNat > Keyfile.maxScryptMemory then throw (.scryptMemory n r)
    let length ← derivedLength dklen
    let salt ← hexPart .salt salt
    let params ← (Scrypt.Params.ofNumbers (logCost n) r p).mapError fun _ => .scryptParams
    if ¬ Scrypt.Takes length then throw .scryptLength
    return .scrypt salt params.cost params.blockSize.toNat params.lanes.toNat length

end Keyring
