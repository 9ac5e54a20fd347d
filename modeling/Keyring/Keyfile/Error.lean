import Keyring.Json.Problem

/-!
# Why a keyfile is not opened

The causes, in the order in which they are looked for, and their wording.
-/

namespace Keyring.Keyfile

/-- A part of a keyfile that is written in hexadecimal. -/
inductive HexPart where
  | iv
  | ciphertext
  | mac
  | salt
  | address
deriving DecidableEq

/-- Why a keyfile is not opened. -/
inductive Error where
  | malformed (fault : Json.Fault)
  | version (version : UInt32)
  | cipher (name : String)
  | hex (part : HexPart)
  | ivLength (length : Nat)
  | ciphertextLength (length : Nat)
  /-- The key derivation is not known by this name, or not with this function in it. -/
  | kdf (name : String) (prf : Option String)
  | iterations (c : UInt32)
  | scryptCost
  | scryptShape (r p : UInt32)
  | scryptMemory (n r : UInt32)
  | derivedLength (dklen : UInt32)
  | scryptParams
  | scryptLength
  | mac
  | secret
  | address

/-- The largest number of iterations. Reference: `MAX_PBKDF2_C`. -/
def maxIterations : Nat := 10000000

/-- The largest derived key. Reference: `MAX_DKLEN`. -/
def maxDerivedLength : Nat := 64

/-- The smallest derived key: a key for the cipher and one for the code. -/
def minDerivedLength : Nat := 32

/-- The largest working set, in bytes. Reference: `MAX_SCRYPT_MEMORY`. -/
def maxScryptMemory : Nat := 2 ^ 30

/-- The largest number of lanes. Reference: `MAX_SCRYPT_P`. -/
def maxScryptLanes : Nat := 16

/-- The name of a part. -/
def HexPart.text : HexPart → String
  | iv => "IV"
  | ciphertext => "ciphertext"
  | mac => "MAC"
  | salt => "salt"
  | address => "address"

/-- The wording of a cause. -/
def Error.message : Error → String
  | malformed fault => "malformed keyfile: " ++ fault.message
  | version n => "unsupported keystore version: " ++ toString n.toNat
  | cipher name => "unsupported cipher: " ++ name
  | hex part => "invalid " ++ part.text ++ " hex"
  | ivLength n => "IV must be 16 bytes, got " ++ toString n
  | ciphertextLength n => "ciphertext must be 32 bytes, got " ++ toString n
  | kdf name none => "unsupported KDF: " ++ name
  | kdf name (some prf) => "unsupported KDF: " ++ name ++ " (" ++ prf ++ ")"
  | iterations c =>
    "pbkdf2 iteration count " ++ toString c.toNat ++ " out of range 1..=" ++ toString maxIterations
  | scryptCost => "scrypt n must be a power of 2"
  | scryptShape r p =>
    "scrypt r=" ++ toString r.toNat ++ " p=" ++ toString p.toNat ++ " out of range"
  | scryptMemory n r =>
    "scrypt n=" ++ toString n.toNat ++ " r=" ++ toString r.toNat ++ " exceeds "
      ++ toString maxScryptMemory ++ " bytes of memory"
  | derivedLength n =>
    "dklen must be between " ++ toString minDerivedLength ++ " and " ++ toString maxDerivedLength
      ++ ", got " ++ toString n.toNat
  | scryptParams => "scrypt params: invalid scrypt parameters"
  | scryptLength => "scrypt: invalid output buffer length"
  | mac => "MAC verification failed: wrong password or corrupted keyfile"
  | secret => "decrypted key is not a valid secret"
  | address => "keyfile address does not match decrypted key"

end Keyring.Keyfile
