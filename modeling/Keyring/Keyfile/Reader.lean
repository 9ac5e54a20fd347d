import Keyring.Json.Any
import Keyring.Json.Record
import Keyring.Keyfile.Basic

/-!
# Reading keyfiles

A keyfile, its encrypted part and the parameters of its cipher are records; the encrypted part may
also be spelled with a capital. The parameters of the key derivation are read as any value first, and
are then those of the first derivation that the value has all members of, each once.
-/

namespace Keyring

open Json (Member Record require)
open Json.Reader (word32 string stringOrNull value refuse)

namespace KdfParams

/-- The one value of a name among the members of an object. -/
def unique? (members : List (String × Json)) (name : String) : Option Json :=
  match members.filter fun entry => entry.1 = name with
  | [entry] => some entry.2
  | _ => none

/-- The number below `2 ^ 32` that a value is. -/
def word? : Json → Option UInt32
  | .number (.natural n) => if n < 2 ^ 32 then some (UInt32.ofNat n) else none
  | _ => none

/-- The text that a value is. -/
def text? : Json → Option String
  | .string s => some s
  | _ => none

/-- The parameters for deriving with PBKDF2. -/
def pbkdf2? (members : List (String × Json)) : Option KdfParams := do
  let dklen ← unique? members "dklen" >>= word?
  let c ← unique? members "c" >>= word?
  let prf ← unique? members "prf" >>= text?
  let salt ← unique? members "salt" >>= text?
  return .pbkdf2 dklen c prf salt

/-- The parameters for deriving with scrypt. -/
def scrypt? (members : List (String × Json)) : Option KdfParams := do
  let dklen ← unique? members "dklen" >>= word?
  let n ← unique? members "n" >>= word?
  let r ← unique? members "r" >>= word?
  let p ← unique? members "p" >>= word?
  let salt ← unique? members "salt" >>= text?
  return .scrypt dklen n r p salt

/-- The parameters that a value tells. -/
def ofJson? : Json → Option KdfParams
  | .object members => pbkdf2? members <|> scrypt? members
  | _ => none

/-- Reads the parameters. -/
def read (depth : Nat) : Json.Reader KdfParams := do
  match ofJson? (← value depth) with
  | some params => pure params
  | none => refuse (.noVariant "KdfParams")

end KdfParams

/-- The parameters of the cipher. -/
def cipherParamsRecord : Record (Option String) String where
  title := "struct CipherParams"
  members := [
    ⟨"iv", none, fun iv => iv.isSome, fun _ _ => some <$> string⟩]
  empty := none
  build := require "iv"

namespace Envelope

/-- What has been read of an encrypted part. -/
structure Parts where
  cipher : Option String
  ciphertext : Option String
  iv : Option String
  kdf : Option String
  kdfparams : Option KdfParams
  mac : Option String

/-- The encrypted part, once all of it has been read. -/
def ofParts (p : Parts) : Except String Envelope := do
  return {
    cipher := ← require "cipher" p.cipher
    ciphertext := ← require "ciphertext" p.ciphertext
    iv := ← require "cipherparams" p.iv
    kdf := ← require "kdf" p.kdf
    kdfparams := ← require "kdfparams" p.kdfparams
    mac := ← require "mac" p.mac }

/-- The encrypted part. -/
def record : Record Parts Envelope where
  title := "struct CryptoJson"
  members := [
    ⟨"cipher", none, fun p => p.cipher.isSome,
      fun _ p => do return { p with cipher := ← string }⟩,
    ⟨"ciphertext", none, fun p => p.ciphertext.isSome,
      fun _ p => do return { p with ciphertext := ← string }⟩,
    ⟨"cipherparams", none, fun p => p.iv.isSome,
      fun depth p => do return { p with iv := ← cipherParamsRecord.read depth }⟩,
    ⟨"kdf", none, fun p => p.kdf.isSome,
      fun _ p => do return { p with kdf := ← string }⟩,
    ⟨"kdfparams", none, fun p => p.kdfparams.isSome,
      fun depth p => do return { p with kdfparams := ← KdfParams.read depth }⟩,
    ⟨"mac", none, fun p => p.mac.isSome,
      fun _ p => do return { p with mac := ← string }⟩]
  empty := ⟨none, none, none, none, none, none⟩
  build := ofParts

end Envelope

namespace Keyfile

/-- What has been read of a keyfile. An address that was read may be the word for none. -/
structure Parts where
  version : Option UInt32
  address : Option (Option String)
  crypto : Option Envelope
  id : Option String

/-- The keyfile, once all of it but perhaps the address has been read. -/
def ofParts (p : Parts) : Except String Keyfile := do
  return {
    version := ← require "version" p.version
    address := p.address.join
    crypto := ← require "crypto" p.crypto
    id := ← require "id" p.id }

/-- The keyfile. -/
def record : Record Parts Keyfile where
  title := "struct KeystoreFile"
  members := [
    ⟨"version", none, fun p => p.version.isSome,
      fun _ p => do return { p with version := ← word32 }⟩,
    ⟨"address", none, fun p => p.address.isSome,
      -- An address that is the word for none has been read as well.
      fun _ p => do let address ← stringOrNull; return { p with address := some address }⟩,
    ⟨"crypto", some "Crypto", fun p => p.crypto.isSome,
      fun depth p => do return { p with crypto := ← Envelope.record.read depth }⟩,
    ⟨"id", none, fun p => p.id.isSome,
      fun _ p => do return { p with id := ← string }⟩]
  empty := ⟨none, none, none, none⟩
  build := ofParts

/-- The keyfile that a file says, or the first thing that is wrong with it. -/
def ofBytes (bytes : Bytes) : Except Json.Fault Keyfile :=
  record.readText bytes

end Keyfile

end Keyring
