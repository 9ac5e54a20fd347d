/-!
# Keyfiles

What a keyfile says: a secret encrypted under a key that is derived from a password, with what is
needed to derive that key again, and a code that tells a wrong password. The parts are kept as the
texts that stand in the file; what they mean is decided when the file is opened.
-/

namespace Keyring

/-- How the key is derived from the password. Reference: `KdfParams`. -/
inductive KdfParams where
  | pbkdf2 (dklen : UInt32) (c : UInt32) (prf : String) (salt : String)
  | scrypt (dklen : UInt32) (n : UInt32) (r : UInt32) (p : UInt32) (salt : String)
deriving DecidableEq

/-- The encrypted part. Reference: `CryptoJson`. -/
structure Envelope where
  /-- The name of the cipher. -/
  cipher : String
  /-- The encrypted secret, in hexadecimal. -/
  ciphertext : String
  /-- The cipher's first counter block, in hexadecimal. -/
  iv : String
  /-- The name of the key derivation. -/
  kdf : String
  /-- The numbers and texts it takes. -/
  kdfparams : KdfParams
  /-- The code over derived key and encrypted secret, in hexadecimal. -/
  mac : String
deriving DecidableEq

/-- A keyfile. Reference: `KeystoreFile`. -/
structure Keyfile where
  version : UInt32
  /-- The address of the account, which may be left out. -/
  address : Option String
  crypto : Envelope
  id : String
deriving DecidableEq

end Keyring
