import Keyring.Cipher.Counter
import Keyring.KeyPair
import Keyring.Keyfile.Derivation
import Keyring.Keyfile.Printer
import Keyring.Keyfile.Reader

/-!
# Sealing and opening keyfiles

A keyfile is sealed with PBKDF2 and AES-128 in counter mode, and opened with any derivation that
`KdfParams.derivation` accepts. The first half of the derived key's thirty-two bytes encrypts, the
second half goes into the code, which is checked before the secret is decrypted. Random values are
arguments (`Seal`).
-/

namespace Keyring

/-- The random values of a new keyfile. -/
structure Seal where
  salt : FixedBytes 32
  iv : FixedBytes 16
  id : FixedBytes 16
deriving DecidableEq

/-- The text of sixteen random bytes as an identifier: the bits that tell version four and the
variant are set, and groups of digits are set apart. -/
def identifier (random : FixedBytes 16) : String :=
  let bytes := (random.toBytes.modify 6 fun b => b &&& 0x0f ||| 0x40).modify 8 fun b =>
    b &&& 0x3f ||| 0x80
  let group (start count : Nat) : List Char := Hex.encode ((bytes.drop start).take count)
  String.ofList (group 0 4 ++ '-' :: group 4 2 ++ '-' :: group 6 2 ++ '-' :: group 8 2
    ++ '-' :: group 10 6)

namespace Keyfile

/-- The bits of the counter block that count. -/
def counterWidth : Nat := 64

/-- The key for the cipher, from a derived key. -/
def cipherKey (derived : Bytes) : Bytes :=
  derived.take 16

/-- The code over a derived key and an encrypted secret. Reference: `compute_mac`. -/
def macOf (derived ciphertext : Bytes) : Bytes :=
  (keccak256 ((derived.drop 16).take 16 ++ ciphertext)).toBytes

/-- The keyfile of a key pair under a password, with the given number of iterations. Reference: `encrypt` of
`V3KeyfileCodec`. -/
def encrypt (key : KeyPair) (password : String) (iterations : UInt32) (fresh : Seal) : Keyfile :=
  let derived := Pbkdf2.derive (Utf8.encode password) fresh.salt.toBytes iterations.toNat 32
  let ciphertext :=
    Counter.apply counterWidth (cipherKey derived) fresh.iv.toBytes key.secretBytes.toBytes
  { version := 3
    address := some (Hex.text key.address.toBytes)
    crypto :=
      { cipher := "aes-128-ctr"
        ciphertext := Hex.text ciphertext
        iv := Hex.text fresh.iv.toBytes
        kdf := "pbkdf2"
        kdfparams := .pbkdf2 32 iterations "hmac-sha256" (Hex.text fresh.salt.toBytes)
        mac := Hex.text (macOf derived ciphertext) }
    id := identifier fresh.id }

/-- The text without any number of `0x` before it. -/
def dropHexMarks : List Char → List Char
  | '0' :: 'x' :: rest => dropHexMarks rest
  | text => text

/-- Refuses a keyfile that tells another address than the key pair's. -/
def checkAddress (key : KeyPair) : Option String → Except Error Unit
  | none => pure ()
  | some recorded => do
    let recorded ← hexPart .address (String.ofList (dropHexMarks recorded.toList))
    if recorded ≠ key.address.toBytes then throw .address

/-- The key pair that a keyfile holds, or the first reason not to open it. Reference: `decrypt` of
`V3KeyfileCodec`. -/
def decrypt (k : Keyfile) (password : String) : Except Error KeyPair := do
  if k.version ≠ 3 then throw (.version k.version)
  if k.crypto.cipher ≠ "aes-128-ctr" then throw (.cipher k.crypto.cipher)
  let iv ← hexPart .iv k.crypto.iv
  let ciphertext ← hexPart .ciphertext k.crypto.ciphertext
  let mac ← hexPart .mac k.crypto.mac
  if iv.length ≠ 16 then throw (.ivLength iv.length)
  if ciphertext.length ≠ 32 then throw (.ciphertextLength ciphertext.length)
  let derivation ← k.crypto.kdfparams.derivation k.crypto.kdf
  -- A code of another length is that of no key, so no key is derived for it.
  if mac.length ≠ 32 then throw .mac
  let derived := derivation.run (Utf8.encode password)
  if macOf derived ciphertext ≠ mac then throw .mac
  match KeyPair.ofBytes? (Counter.apply counterWidth (cipherKey derived) iv ciphertext) with
  | none => throw .secret
  | some key =>
    checkAddress key k.address
    return key

/-- The bytes of the keyfile of a key pair. Reference: `encode` of `V3KeyfileCodec`. -/
def encode (key : KeyPair) (password : String) (iterations : UInt32) (fresh : Seal) : Bytes :=
  (encrypt key password iterations fresh).toBytes

/-- The key pair that the bytes of a keyfile hold. Reference: `decode` of `V3KeyfileCodec`. -/
def decode (bytes : Bytes) (password : String) : Except Error KeyPair :=
  match ofBytes bytes with
  | .error fault => .error (.malformed fault)
  | .ok k => k.decrypt password

end Keyfile

end Keyring
