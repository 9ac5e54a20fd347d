import Keyring.Address
import Keyring.Path
import Keyring.Text.Quoted

/-!
# What is noted on the way

Operations on accounts leave a trail of events, each with a level, the part of the program that it
comes from, a wording and named values.
-/

namespace Keyring

/-- How grave an event is, gravest first. -/
inductive Level where
  | error
  | warn
  | info
  | debug
  | trace
deriving DecidableEq

/-- The place of a level among the levels, from one on. -/
def Level.rank : Level → Nat
  | error => 1
  | warn => 2
  | info => 3
  | debug => 4
  | trace => 5

/-- Something to be noted. -/
inductive Event where
  /-- There is a name of no keyfile among the keyfiles. -/
  | foreignFile (name : Name)
  | created (address : Address)
  | imported (address : Address)
  /-- An import found the account there already. -/
  | alreadyManaged (address : Address)
  /-- An import found no keyfile of the account, and then one in its place. -/
  | writtenMeanwhile (address : Address)
  /-- More than one keyfile of an account is about to be removed. -/
  | duplicates (address : Address) (count : Nat)
  | deleted (address : Address)
  | updated (address : Address)
  /-- A key is decrypted for one use. -/
  | singleUse (address : Address)
deriving DecidableEq

namespace Event

/-- How grave an event is. -/
def level : Event → Level
  | foreignFile _ => .trace
  | created _ | imported _ | deleted _ | updated _ => .info
  | alreadyManaged _ | writtenMeanwhile _ | singleUse _ => .debug
  | duplicates _ _ => .warn

/-- The part of the program that an event comes from. -/
def source : Event → String
  | foreignFile _ => "accounts::index"
  | _ => "accounts"

/-- The wording of an event. -/
def message : Event → String
  | foreignFile _ => "ignoring foreign file"
  | created _ => "created account"
  | imported _ => "imported account"
  | alreadyManaged _ => "import skipped, account already managed"
  | writtenMeanwhile _ => "import skipped, keyfile written concurrently"
  | duplicates _ _ => "removing duplicate keyfiles"
  | deleted _ => "deleted account"
  | updated _ => "updated account password"
  | singleUse _ => "decrypting key for single use"

/-- The named values of an event. -/
def fields : Event → List (String × String)
  | foreignFile name => [("file", Text.quoteName name)]
  | created address | imported address | alreadyManaged address | writtenMeanwhile address
  | deleted address | updated address | singleUse address => [("address", address.text)]
  | duplicates address count => [("address", address.text), ("count", toString count)]

end Event

end Keyring
