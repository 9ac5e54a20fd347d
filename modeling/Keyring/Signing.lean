import Keyring.Account.Error
import Keyring.Curve.Ecdsa

/-!
# Signing messages

A message is signed by its hash; a message of thirty-two bytes may also be signed as it is. What does
the signing can be exchanged (`Signer`).
-/

namespace Keyring

/-- What makes signatures: of a message, with a key pair, of its hash if the flag is set. Reference:
`CryptoProvider`. -/
structure Signer where
  /-- What is shown of it. -/
  name : String
  sign : (message : Bytes) → (key : KeyPair) → (hashFirst : Bool) → Except AccountError Signature

namespace Signer

/-- The digest that is signed for a message. Reference: `message_digest`. -/
def digest (message : Bytes) (hashFirst : Bool) : Except AccountError (FixedBytes 32) :=
  if hashFirst then .ok (keccak256 message)
  else
    match FixedBytes.ofBytes? 32 message with
    | some digest => .ok digest
    | none => .error (.invalidMessage message.length)

/-- Signing on the curve. Reference: `Secp256k1Provider`. -/
def ecdsa : Signer where
  name := "Secp256k1Provider"
  sign message key hashFirst := do
    let digest ← digest message hashFirst
    match Ecdsa.sign key digest with
    | some sig => .ok sig
    | none => .error (.signing "signature error")

end Signer

end Keyring
