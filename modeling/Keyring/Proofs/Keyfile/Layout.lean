import Keyring.Keyfile.Basic
import Keyring.Proofs.Json.Layout

/-!
# Keyfiles as they may be laid out

A value shows a keyfile if it is an object with the members of the keyfile (`Keyfile.ShownBy`). Their
order, blanks, and the spelling of strings make no difference; numbers are in plain decimal; members of
other names may stand among them. An object in which a member is missing or repeated shows none
(`Json.Members.IsAmiss`).
-/

namespace Keyring

open Json (Written)
open Json.Written (HasMembers IsText IsWord)

namespace KdfParams

/-- The names of the members of either derivation. -/
def memberNames : List String :=
  ["dklen", "c", "prf", "salt", "n", "r", "p"]

/-- The members of the parameters. -/
def fields : KdfParams → List (String × (Written → Prop))
  | pbkdf2 dklen c prf salt =>
    [("dklen", IsWord dklen), ("c", IsWord c), ("prf", IsText prf), ("salt", IsText salt)]
  | scrypt dklen n r p salt =>
    [("dklen", IsWord dklen), ("n", IsWord n), ("r", IsWord r), ("p", IsWord p),
      ("salt", IsText salt)]

/-- A value may stand beside the members: three containers are open around it, and less than 128 may be. -/
def IsExtra (w : Written) : Prop :=
  w.IsSound ∧ 3 + w.depth < 128

/-- The value shows the parameters. -/
def ShownBy (params : KdfParams) (w : Written) : Prop :=
  w.HasMembers params.fields memberNames IsExtra

end KdfParams

namespace Envelope

/-- The names of the members. -/
def memberNames : List String :=
  ["cipher", "ciphertext", "cipherparams", "kdf", "kdfparams", "mac"]

/-- The value shows the encrypted part. -/
def ShownBy (e : Envelope) (w : Written) : Prop :=
  w.HasMembers
    [("cipher", IsText e.cipher), ("ciphertext", IsText e.ciphertext),
      ("cipherparams", HasMembers [("iv", IsText e.iv)] ["iv"] fun _ => True),
      ("kdf", IsText e.kdf), ("kdfparams", e.kdfparams.ShownBy), ("mac", IsText e.mac)]
    memberNames fun _ => True

end Envelope

namespace Keyfile

/-- The names that the encrypted part may have. -/
def cryptoNames : List String :=
  ["crypto", "Crypto"]

/-- The ways in which an address may be a member. -/
def addressFields : Option String → List (List (String × (Written → Prop)))
  | none => [[], [("address", (· = .null))]]
  | some address => [[("address", IsText address)]]

/-- The value shows the keyfile, with the given name for the encrypted part, and the given members, if
any, for the address. -/
def ShownAs (k : Keyfile) (crypto : String) (address : List (String × (Written → Prop))) (w : Written) :
    Prop :=
  w.HasMembers
    (("version", IsWord k.version) :: address ++ [(crypto, k.crypto.ShownBy), ("id", IsText k.id)])
    ("version" :: "address" :: "id" :: cryptoNames) fun _ => True

/-- The value shows the keyfile. -/
def ShownBy (k : Keyfile) (w : Written) : Prop :=
  ∃ crypto ∈ cryptoNames, ∃ address ∈ addressFields k.address, k.ShownAs crypto address w

/-- The value is an object in which something is amiss, or its encrypted part is. -/
def IsAmiss (w : Written) : Prop :=
  ∃ blanks members, w = .object blanks members ∧
    (members.IsAmiss [["version"], cryptoNames, ["id"]] [["address"]] ∨
      ∃ name ∈ cryptoNames, ∃ blanks inner, (some name, .object blanks inner) ∈ members.entries ∧
        inner.IsAmiss (Envelope.memberNames.map fun name => [name]) [])

end Keyfile

end Keyring
