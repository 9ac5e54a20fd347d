import Keyring.Bytes.Hex
import Keyring.Hash.Keccak

/-!
# Account addresses

An address is twenty bytes. It is printed with `0x` and forty digits whose case
carries a checksum (EIP-55): a letter is a capital iff the digit at its place in the hash of the
lowercase text is eight or more. It is read in any case, with or without the `0x`.
-/

namespace Keyring

/-- The address of an account. -/
structure Address where
  /-- The twenty bytes. -/
  toFixedBytes : FixedBytes 20
deriving DecidableEq

namespace Address

/-- The twenty bytes of an address. -/
def toBytes (a : Address) : Bytes :=
  a.toFixedBytes.toBytes

@[simp] theorem length_toBytes (a : Address) : a.toBytes.length = 20 :=
  a.toFixedBytes.length_toBytes

@[ext] theorem ext {a b : Address} (h : a.toBytes = b.toBytes) : a = b := by
  cases a; cases b; congr 1; exact FixedBytes.ext h

/-- The address made of the bytes, if there are twenty. -/
def ofBytes? (bytes : Bytes) : Option Address :=
  (FixedBytes.ofBytes? 20 bytes).map Address.mk

theorem ofBytes?_eq_some_iff {bytes : Bytes} {a : Address} :
    ofBytes? bytes = some a ↔ bytes = a.toBytes := by
  obtain ⟨a⟩ := a
  simp [ofBytes?, toBytes, FixedBytes.ofBytes?_eq_some_iff]

/-- The forty lowercase digits. -/
def hex (a : Address) : List Char :=
  Hex.encode a.toBytes

/-- The digits with the hash's digits deciding the case of the letters. -/
def checksummed : (digits hash : List Char) → List Char
  | d :: digits, h :: hash => (if h < '8' then d else d.toUpper) :: checksummed digits hash
  | digits, _ => digits

/-- The text of an address: `0x` and the digits with their checksum. -/
def text (a : Address) : String :=
  let hash := keccak256 (a.hex.map fun c => c.toNat.toUInt8)
  String.ofList ('0' :: 'x' :: checksummed a.hex (Hex.encode hash.toBytes))

/-- The text of an address in lowercase: `0x` and forty digits. -/
def lowerText (a : Address) : String :=
  String.ofList ('0' :: 'x' :: a.hex)

/-- The text without one `0x` or `0X` before it. -/
def dropHexMark : List Char → List Char
  | '0' :: 'x' :: rest => rest
  | '0' :: 'X' :: rest => rest
  | text => text

/-- The address that forty digits of any case stand for, with or without `0x` or `0X` before them. -/
def ofText? (s : String) : Option Address :=
  (Hex.decode? (dropHexMark s.toList)).bind ofBytes?

end Keyring.Address
