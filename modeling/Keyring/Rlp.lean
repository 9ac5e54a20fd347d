import Keyring.Bytes.BigEndian

/-!
# Recursive length prefixes

The serialisation of transactions: an item is a byte string or a list of items. A byte below `0x80`
stands for itself, other byte strings and the concatenated items of a list follow a prefix that tells
the kind and the length. A number is the byte string of its digits without leading zeros.
-/

namespace Keyring.Rlp

/-- What is serialised. -/
inductive Item where
  | bytes (bytes : Bytes)
  | list (items : List Item)

namespace Item

/-- A number. -/
def number (n : Nat) : Item :=
  .bytes (BigEndian.encodeMinimal n)

end Item

/-- The prefix for a payload of the given length: `base + length` up to 55 bytes, else the number of
digits of the length, over `base + 55`, and the digits. -/
def lengthPrefix (base length : Nat) : Bytes :=
  if length ≤ 55 then [UInt8.ofNat (base + length)]
  else UInt8.ofNat (base + 55 + BigEndian.digitCount length) :: BigEndian.encodeMinimal length

/-- The serial form of a byte string. -/
def encodeBytes (bytes : Bytes) : Bytes :=
  match bytes with
  | [b] => if b < 0x80 then [b] else lengthPrefix 0x80 1 ++ [b]
  | _ => lengthPrefix 0x80 bytes.length ++ bytes

mutual

/-- The serial form of an item. -/
def encode : Item → Bytes
  | .bytes bytes => encodeBytes bytes
  | .list items =>
    let payload := encodeAll items
    lengthPrefix 0xc0 payload.length ++ payload

/-- The serial forms of the items, one after the other. -/
def encodeAll : List Item → Bytes
  | [] => []
  | item :: items => encode item ++ encodeAll items

end

end Keyring.Rlp
