import Keyring.Hash.Sha256

/-!
# HMAC-SHA-256

The key is absorbed once, into the states after the inner and the outer padded key, and each
message then costs the blocks of the message and one more.
-/

namespace Keyring.Hmac

open Sha256 (State Block)

/-- A key, as the hash states after the inner and the outer padded key. -/
structure Key where
  inner : State
  outer : State

/-- The key's bytes as one block: hashed when longer than a block, then filled up with zeros. -/
def keyBlock (key : Bytes) : Bytes :=
  let key := if key.length > 64 then Sha256.hash key else key
  key ++ List.replicate (64 - key.length) 0

/-- The states after the two padded keys. -/
def Key.ofBytes (key : Bytes) : Key :=
  let block := keyBlock key
  { inner := Sha256.absorb Sha256.initial (Sha256.words (block.map (· ^^^ 0x36)))
    outer := Sha256.absorb Sha256.initial (Sha256.words (block.map (· ^^^ 0x5c))) }

/-- The one block that ends a message of a padded key and a hash value. -/
def lastBlock (s : State) : Block :=
  ⟨s.a, s.b, s.c, s.d, s.e, s.f, s.g, s.h, 0x80000000, 0, 0, 0, 0, 0, 0, 768⟩

/-- The code of a message. -/
def Key.code (key : Key) (message : Bytes) : State :=
  Sha256.compress key.outer (lastBlock (Sha256.finish key.inner 64 message))

/-- The code of a message that is itself a hash value. -/
def Key.codeOfState (key : Key) (message : State) : State :=
  Sha256.compress key.outer (lastBlock (Sha256.compress key.inner (lastBlock message)))

/-- The HMAC-SHA-256 code of a message under a key. -/
def hash (key message : Bytes) : Bytes :=
  ((Key.ofBytes key).code message).toBytes

@[simp] theorem length_hash (key message : Bytes) : (hash key message).length = 32 := rfl

end Keyring.Hmac
