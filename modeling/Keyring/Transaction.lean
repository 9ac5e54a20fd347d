import Keyring.Address
import Keyring.Curve.Signature
import Keyring.Rlp

/-!
# Transactions

The three kinds of transaction that are signed. `preimage` is the text whose hash is signed, and
`signed` the text of a transaction with its signature. The kinds after the first put their number
before the list of fields. The first kind tells the chain, if it names one, in the last number of the
signature: 27 or 28 without a chain, `35 + 2 * chain` or one more with it (EIP-155).
-/

namespace Keyring

/-- The account that a transaction calls, or the creation of a new contract. -/
abbrev Recipient := Option Address

/-- The storage slots of one account that a transaction announces to use. -/
structure AccessEntry where
  address : Address
  keys : List (FixedBytes 32)

/-- A transaction without a type, whose chain may be left open. -/
structure LegacyTransaction where
  chainId : Option UInt64
  nonce : UInt64
  gasPrice : BitVec 128
  gasLimit : UInt64
  recipient : Recipient
  value : BitVec 256
  input : Bytes

/-- A transaction of type one, with an access list. -/
structure AccessListTransaction where
  chainId : UInt64
  nonce : UInt64
  gasPrice : BitVec 128
  gasLimit : UInt64
  recipient : Recipient
  value : BitVec 256
  input : Bytes
  accessList : List AccessEntry

/-- A transaction of type two, with two limits on the price of gas. -/
structure DynamicFeeTransaction where
  chainId : UInt64
  nonce : UInt64
  maxFeePerGas : BitVec 128
  maxPriorityFeePerGas : BitVec 128
  gasLimit : UInt64
  recipient : Recipient
  value : BitVec 256
  input : Bytes
  accessList : List AccessEntry

/-- A transaction to be signed. -/
inductive Transaction where
  | legacy (tx : LegacyTransaction)
  | accessList (tx : AccessListTransaction)
  | dynamicFee (tx : DynamicFeeTransaction)

open Rlp (Item)

/-- The twenty bytes of the account, or no bytes for a creation. -/
def Recipient.item : Recipient → Item
  | some address => .bytes address.toBytes
  | none => .bytes []

/-- The account and the list of its slots. -/
def AccessEntry.item (entry : AccessEntry) : Item :=
  .list [.bytes entry.address.toBytes, .list (entry.keys.map fun key => .bytes key.toBytes)]

namespace LegacyTransaction

/-- The six fields that every form of the transaction starts with. -/
def fields (tx : LegacyTransaction) : List Item :=
  [.number tx.nonce.toNat, .number tx.gasPrice.toNat, .number tx.gasLimit.toNat, tx.recipient.item,
    .number tx.value.toNat, .bytes tx.input]

/-- The fields that are signed: with a chain, also the chain and two zeros. -/
def unsignedFields (tx : LegacyTransaction) : List Item :=
  match tx.chainId with
  | none => tx.fields
  | some chain => tx.fields ++ [.number chain.toNat, .number 0, .number 0]

/-- The number that stands for the signature's parity and the chain. -/
def parityNumber (tx : LegacyTransaction) (oddY : Bool) : Nat :=
  match tx.chainId with
  | none => 27 + oddY.toNat
  | some chain => 35 + 2 * chain.toNat + oddY.toNat

/-- The fields and the signature. -/
def signedFields (tx : LegacyTransaction) (sig : Signature) : List Item :=
  tx.fields ++ [.number (tx.parityNumber sig.oddY), .number sig.r.toNat, .number sig.s.toNat]

end LegacyTransaction

/-- The fields of a transaction of type one. -/
def AccessListTransaction.fields (tx : AccessListTransaction) : List Item :=
  [.number tx.chainId.toNat, .number tx.nonce.toNat, .number tx.gasPrice.toNat,
    .number tx.gasLimit.toNat, tx.recipient.item, .number tx.value.toNat, .bytes tx.input,
    .list (tx.accessList.map AccessEntry.item)]

/-- The fields of a transaction of type two. -/
def DynamicFeeTransaction.fields (tx : DynamicFeeTransaction) : List Item :=
  [.number tx.chainId.toNat, .number tx.nonce.toNat, .number tx.maxPriorityFeePerGas.toNat,
    .number tx.maxFeePerGas.toNat, .number tx.gasLimit.toNat, tx.recipient.item,
    .number tx.value.toNat, .bytes tx.input, .list (tx.accessList.map AccessEntry.item)]

namespace Transaction

/-- The items of a signature after a typed transaction. -/
def signatureItems (sig : Signature) : List Item :=
  [.number sig.oddY.toNat, .number sig.r.toNat, .number sig.s.toNat]

/-- The text whose hash is signed. -/
def preimage : Transaction → Bytes
  | legacy tx => Rlp.encode (.list tx.unsignedFields)
  | accessList tx => 1 :: Rlp.encode (.list tx.fields)
  | dynamicFee tx => 2 :: Rlp.encode (.list tx.fields)

/-- The hash that is signed. -/
def digest (tx : Transaction) : FixedBytes 32 :=
  keccak256 tx.preimage

/-- The text of the transaction with its signature. Reference: `encode_signed_transaction`. -/
def signed (tx : Transaction) (sig : Signature) : Bytes :=
  match tx with
  | legacy tx => Rlp.encode (.list (tx.signedFields sig))
  | accessList tx => 1 :: Rlp.encode (.list (tx.fields ++ signatureItems sig))
  | dynamicFee tx => 2 :: Rlp.encode (.list (tx.fields ++ signatureItems sig))

end Transaction

end Keyring
