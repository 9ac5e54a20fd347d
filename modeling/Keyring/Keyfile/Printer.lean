import Keyring.Json.Printer
import Keyring.Keyfile.Basic

/-!
# Writing keyfiles

A keyfile is written as a JSON object in the wide form, its members in a fixed order. An address that
is left out is no member.
-/

namespace Keyring

/-- A number below `2 ^ 32` as a value. -/
def Json.ofWord (n : UInt32) : Json :=
  .number (.natural n.toNat)

/-- The object that tells how the key is derived. -/
def KdfParams.toJson : KdfParams → Json
  | pbkdf2 dklen c prf salt =>
    .object [("dklen", .ofWord dklen), ("c", .ofWord c), ("prf", .string prf), ("salt", .string salt)]
  | scrypt dklen n r p salt =>
    .object [("dklen", .ofWord dklen), ("n", .ofWord n), ("r", .ofWord r), ("p", .ofWord p),
      ("salt", .string salt)]

/-- The object of the encrypted part. -/
def Envelope.toJson (e : Envelope) : Json :=
  .object [("cipher", .string e.cipher), ("ciphertext", .string e.ciphertext),
    ("cipherparams", .object [("iv", .string e.iv)]), ("kdf", .string e.kdf),
    ("kdfparams", e.kdfparams.toJson), ("mac", .string e.mac)]

namespace Keyfile

/-- The object of a keyfile. -/
def toJson (k : Keyfile) : Json :=
  .object <|
    ("version", .ofWord k.version) :: (k.address.map fun a => ("address", Json.string a)).toList
      ++ [("crypto", k.crypto.toJson), ("id", .string k.id)]

/-- The bytes of a keyfile. -/
def toBytes (k : Keyfile) : Bytes :=
  k.toJson.toBytes

end Keyfile

end Keyring
