import Keyring.Address
import Keyring.Bytes.BigEndian
import Keyring.Curve.Secp256k1
import Keyring.Text.Blank

/-!
# Key pairs

A key pair is a secret, a number from one up to below the order of the curve. Its address is the last
twenty bytes of the hash of the public point's coordinates. A secret is read from bytes or from
hexadecimal text, and written as thirty-two bytes or as `0x` and sixty-four lowercase digits.
-/

namespace Keyring

/-- A secret of the curve. Reference: `KeyPair`. -/
structure KeyPair where
  /-- The number that is kept secret. -/
  secret : Nat
  secret_pos : 0 < secret
  secret_lt : secret < Secp256k1.order
deriving DecidableEq

namespace KeyPair

/-- The key pair of a number, if that is a secret. -/
def ofNat? (n : Nat) : Option KeyPair :=
  if h : 0 < n ∧ n < Secp256k1.order then some ⟨n, h.1, h.2⟩ else none

theorem ofNat?_secret (k : KeyPair) : ofNat? k.secret = some k := by
  simp [ofNat?, k.secret_pos, k.secret_lt]

theorem ofNat?_eq_some_iff {n : Nat} {k : KeyPair} : ofNat? n = some k ↔ n = k.secret := by
  constructor
  · intro h
    unfold ofNat? at h
    split at h
    · cases h; rfl
    · cases h
  · rintro rfl
    exact ofNat?_secret k

/-- The key pair of a big-endian secret of thirty-two bytes, or of twenty-four to thirty-one, which are taken
as the last ones of thirty-two. Reference: `from_slice` of `KeyPair`. -/
def ofBytes? (bytes : Bytes) : Option KeyPair :=
  if 24 ≤ bytes.length ∧ bytes.length ≤ 32 then ofNat? (BigEndian.decode bytes) else none

/-- The thirty-two bytes of the secret. Reference: `as_bytes` of `PrivateKey`. -/
def secretBytes (k : KeyPair) : FixedBytes 32 :=
  ⟨BigEndian.encode 32 k.secret, BigEndian.length_encode 32 k.secret⟩

/-- The key pair of a secret in hexadecimal: blanks at both ends and then one `0x` or `0X` at the start are
dropped. Reference: `from_hex` of `KeyPair`. -/
def ofText? (s : String) : Option KeyPair :=
  (Hex.decode? (Address.dropHexMark (Text.trim s.toList))).bind ofBytes?

/-- The secret as `0x` and sixty-four lowercase digits. Reference: `to_hex` of `PrivateKey`. -/
def secretText (k : KeyPair) : String :=
  String.ofList ('0' :: 'x' :: Hex.encode k.secretBytes.toBytes)

/-- The coordinates of the public point, thirty-two bytes each. -/
def publicBytes (k : KeyPair) : Bytes :=
  let (x, y) := (Secp256k1.multiple k.secret Secp256k1.generator).coordinates
  BigEndian.encode 32 x ++ BigEndian.encode 32 y

/-- The address of the account that the key pair controls. Reference: `address` of `KeyPair`. -/
def address (k : KeyPair) : Address :=
  ⟨⟨(keccak256 k.publicBytes).toBytes.drop 12, by simp⟩⟩

/-- What is shown of a key pair: its address only. -/
def redacted (k : KeyPair) : String :=
  "KeyPair \x7b address: " ++ k.address.lowerText ++ ", .. \x7d"

/-- What is shown of an exported secret: nothing. -/
def redactedSecret : String :=
  "PrivateKey(<redacted>)"

theorem ofBytes?_secretBytes (k : KeyPair) : ofBytes? k.secretBytes.toBytes = some k := by
  have h : k.secret < 256 ^ 32 := Nat.lt_trans k.secret_lt (by decide)
  simp [ofBytes?, secretBytes, BigEndian.decode_encode_of_lt h, ofNat?_secret]

end KeyPair

end Keyring
