import Keyring.Address

/-!
# Names of keyfiles

A keyfile is found by its name: `meowchain-keyfile-`, the forty digits of the account's address, and
`.json`. The digits are written in lowercase and read in any case; no other name is one of a keyfile.
-/

namespace Keyring.Keyfile

/-- What a name starts with. Reference: `KEYFILE_PREFIX`. -/
def nameStart : List Char := "meowchain-keyfile-".toList

/-- What a name ends with. Reference: `KEYFILE_SUFFIX`. -/
def nameEnd : List Char := ".json".toList

/-- The name of the keyfile of an address. Reference: `keyfile_name`. -/
def name (address : Address) : String :=
  String.ofList (nameStart ++ address.hex ++ nameEnd)

/-- The rest of a text after its start, if it starts so. -/
def dropStart? : (start text : List Char) → Option (List Char)
  | [], text => some text
  | c :: start, d :: text => if c = d then dropStart? start text else none
  | _ :: _, [] => none

/-- The rest of a text before its end, if it ends so. -/
def dropEnd? (ending text : List Char) : Option (List Char) :=
  (dropStart? ending.reverse text.reverse).map List.reverse

/-- The address in the name of a keyfile. Reference: `parse_keyfile_name`. -/
def addressOfName? (name : String) : Option Address :=
  ((dropStart? nameStart name.toList).bind (dropEnd? nameEnd)).bind fun digits =>
    (Hex.decode? digits).bind Address.ofBytes?

end Keyring.Keyfile
