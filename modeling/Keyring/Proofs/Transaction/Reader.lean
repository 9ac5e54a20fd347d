import Keyring.Proofs.Rlp.Reader
import Keyring.Transaction

/-!
# Reading transactions

Every field is read back from the item that it is written as, at its own width, and so are the fields of a
transaction of each type from the items that they are the first of. The number that ends a transaction
without a type tells both the chain and the parity (`LegacyTransaction.chainAndParity?_parityNumber`).
-/

namespace Keyring

open Rlp (Item)

/-! ## Fields -/

namespace Rlp.Item

/-- The bytes of an item that is no list. -/
def bytes? : Item → Option Bytes
  | .bytes content => some content
  | .list _ => none

/-- The items of a list. -/
def items? : Item → Option (List Item)
  | .bytes _ => none
  | .list content => some content

/-- A number that fits into `width` bits. -/
def bits? (width : Nat) (item : Item) : Option (BitVec width) :=
  item.bytes?.bind fun digits =>
    if BigEndian.decode digits < 2 ^ width then some (BitVec.ofNat width (BigEndian.decode digits))
    else none

/-- A number that fits into a word of sixty-four bits. -/
def word? (item : Item) : Option UInt64 :=
  (item.bits? 64).map UInt64.ofBitVec

@[simp] theorem bytes?_bytes (content : Bytes) : (Item.bytes content).bytes? = some content := rfl

@[simp] theorem items?_list (content : List Item) : (Item.list content).items? = some content := rfl

/-- A number of some width is read back from its item. -/
@[simp] theorem bits?_number {width : Nat} (n : BitVec width) :
    (Item.number n.toNat).bits? width = some n := by
  rw [number, bits?, bytes?_bytes, Option.bind_some, BigEndian.decode_encodeMinimal,
    if_pos n.isLt, BitVec.ofNat_toNat, BitVec.setWidth_eq]

/-- A word is read back from its item. -/
@[simp] theorem word?_number (n : UInt64) : (Item.number n.toNat).word? = some n := by
  have hbits : (Item.number n.toNat).bits? 64 = some n.toBitVec := bits?_number n.toBitVec
  rw [word?, hbits, Option.map_some]

end Rlp.Item

/-- A list whose members are read one by one is read back from what they are written as. -/
theorem mapM_map {α β : Type} {write : α → β} {read : β → Option α}
    (h : ∀ a, read (write a) = some a) (l : List α) : (l.map write).mapM read = some l := by
  induction l with
  | nil => rfl
  | cons a l ih =>
    rw [List.map_cons, List.mapM_cons, h, ih]
    rfl

/-- The account or the creation that an item stands for. -/
def Recipient.ofItem? : Item → Option Recipient
  | .bytes [] => some none
  | .bytes bytes => (Address.ofBytes? bytes).map some
  | .list _ => none

/-- A recipient is read back from its item. -/
@[simp] theorem Recipient.ofItem?_item (recipient : Recipient) :
    Recipient.ofItem? recipient.item = some recipient := by
  cases recipient with
  | none => rfl
  | some address =>
    have haddress : Address.ofBytes? address.toBytes = some address :=
      Address.ofBytes?_eq_some_iff.2 rfl
    have hlength := address.length_toBytes
    have hitem : Recipient.item (some address) = .bytes address.toBytes := rfl
    rw [hitem]
    generalize address.toBytes = bytes at haddress hlength ⊢
    cases bytes with
    | nil => cases hlength
    | cons b bytes =>
      rw [ofItem?, haddress]
      · rfl
      · exact nofun

/-- The slot that an item stands for. -/
def slot? (item : Item) : Option (FixedBytes 32) :=
  item.bytes?.bind (FixedBytes.ofBytes? 32)

/-- A slot is read back from its item. -/
theorem slot?_bytes (key : FixedBytes 32) : slot? (.bytes key.toBytes) = some key :=
  FixedBytes.ofBytes?_toBytes key

/-- The account and the slots that an item stands for. -/
def AccessEntry.ofItem? : Item → Option AccessEntry
  | .list [address, keys] => do
    return ⟨← Address.ofBytes? (← address.bytes?), ← (← keys.items?).mapM slot?⟩
  | _ => none

/-- An entry of an access list is read back from its item. -/
theorem AccessEntry.ofItem?_item (entry : AccessEntry) :
    AccessEntry.ofItem? entry.item = some entry := by
  have haddress : Address.ofBytes? entry.address.toBytes = some entry.address :=
    Address.ofBytes?_eq_some_iff.2 rfl
  have hkeys := mapM_map slot?_bytes entry.keys
  simp only [item, ofItem?, Item.bytes?_bytes, Item.items?_list, Option.bind_eq_bind, Option.bind_some,
    haddress, hkeys]
  rfl

/-- The access list that an item stands for. -/
def accessList? (item : Item) : Option (List AccessEntry) :=
  item.items?.bind fun items => items.mapM AccessEntry.ofItem?

/-- An access list is read back from its items. -/
@[simp] theorem accessList?_list (entries : List AccessEntry) :
    accessList? (.list (entries.map AccessEntry.item)) = some entries := by
  rw [accessList?, Item.items?_list, Option.bind_some, mapM_map AccessEntry.ofItem?_item]

/-! ## The fields of each type -/

/-- The six first fields, of a transaction that names no chain, and the items behind them. -/
def LegacyTransaction.ofFields? : List Item → Option (LegacyTransaction × List Item)
  | nonce :: gasPrice :: gasLimit :: recipient :: value :: input :: rest => do
    return (⟨none, ← nonce.word?, ← gasPrice.bits? 128, ← gasLimit.word?,
      ← Recipient.ofItem? recipient, ← value.bits? 256, ← input.bytes?⟩, rest)
  | _ => none

/-- The fields before the chain of a legacy transaction are read back. -/
theorem LegacyTransaction.ofFields?_fields (tx : LegacyTransaction) (rest : List Item) :
    ofFields? (tx.fields ++ rest) = some ({ tx with chainId := none }, rest) := by
  simp [fields, ofFields?]

/-- The fields of a transaction of type one, and the items behind them. -/
def AccessListTransaction.ofFields? : List Item → Option (AccessListTransaction × List Item)
  | chainId :: nonce :: gasPrice :: gasLimit :: recipient :: value :: input :: accessList :: rest => do
    return (⟨← chainId.word?, ← nonce.word?, ← gasPrice.bits? 128, ← gasLimit.word?,
      ← Recipient.ofItem? recipient, ← value.bits? 256, ← input.bytes?, ← accessList? accessList⟩, rest)
  | _ => none

/-- The fields of a transaction with an access list are read back. -/
theorem AccessListTransaction.ofFields?_fields (tx : AccessListTransaction) (rest : List Item) :
    ofFields? (tx.fields ++ rest) = some (tx, rest) := by
  simp [fields, ofFields?]

/-- The fields of a transaction of type two, and the items behind them. -/
def DynamicFeeTransaction.ofFields? : List Item → Option (DynamicFeeTransaction × List Item)
  | chainId :: nonce :: maxPriorityFeePerGas :: maxFeePerGas :: gasLimit :: recipient :: value ::
      input :: accessList :: rest => do
    return ({
      chainId := ← chainId.word?, nonce := ← nonce.word?,
      maxPriorityFeePerGas := ← maxPriorityFeePerGas.bits? 128,
      maxFeePerGas := ← maxFeePerGas.bits? 128, gasLimit := ← gasLimit.word?,
      recipient := ← Recipient.ofItem? recipient, value := ← value.bits? 256,
      input := ← input.bytes?, accessList := ← accessList? accessList }, rest)
  | _ => none

/-- The fields of a transaction with dynamic fees are read back. -/
theorem DynamicFeeTransaction.ofFields?_fields (tx : DynamicFeeTransaction) (rest : List Item) :
    ofFields? (tx.fields ++ rest) = some (tx, rest) := by
  simp [fields, ofFields?]

/-! ## The chain and the signature -/

/-- The chain, if one is named, and the parity that the last number but two stands for. -/
def LegacyTransaction.chainAndParity? (v : Nat) : Option (Option UInt64 × Bool) :=
  if v = 27 ∨ v = 28 then some (none, v = 28)
  else if 35 ≤ v ∧ (v - 35) / 2 < 2 ^ 64 then
    some (some (UInt64.ofNat ((v - 35) / 2)), (v - 35) % 2 = 1)
  else none

/-- The chain and the parity are read back from the one number that tells both. -/
theorem LegacyTransaction.chainAndParity?_parityNumber (tx : LegacyTransaction) (oddY : Bool) :
    chainAndParity? (tx.parityNumber oddY) = some (tx.chainId, oddY) := by
  unfold parityNumber chainAndParity?
  have hparity : oddY.toNat ≤ 1 := Bool.toNat_le oddY
  cases tx.chainId with
  | none => cases oddY <;> rfl
  | some chain =>
    have hchain : chain.toNat < 2 ^ 64 := chain.toNat_lt
    have hhalf : (35 + 2 * chain.toNat + oddY.toNat - 35) / 2 = chain.toNat := by omega
    have hrest : (35 + 2 * chain.toNat + oddY.toNat - 35) % 2 = oddY.toNat := by omega
    have hnot : ¬ (35 + 2 * chain.toNat + oddY.toNat = 27 ∨ 35 + 2 * chain.toNat + oddY.toNat = 28) := by
      omega
    simp only
    rw [if_neg hnot, hhalf, hrest, if_pos ⟨by omega, hchain⟩, UInt64.ofNat_toNat]
    cases oddY <;> rfl

namespace Transaction

/-- The signature whose three numbers the items stand for, where the first one is the parity. -/
def signature? : List Item → Option Signature
  | [parity, r, s] => do
    return ⟨← r.bits? 256, ← s.bits? 256, (← parity.bits? 1) = 1⟩
  | _ => none

/-- A signature is read back from its items. -/
theorem signature?_signatureItems (sig : Signature) :
    signature? (signatureItems sig) = some sig := by
  obtain ⟨r, s, oddY⟩ := sig
  have hparity : (Item.number oddY.toNat).bits? 1 = some (BitVec.ofBool oddY) := by
    rw [← BitVec.toNat_ofBool, Item.bits?_number]
  simp only [signatureItems, signature?, Item.bits?_number, hparity]
  cases oddY <;> rfl

/-! ## Texts -/

/-- The text of a transaction whose fields are followed by more items. -/
def text (tx : Transaction) (more : List Item) : Bytes :=
  match tx with
  | legacy tx => Rlp.encode (.list (tx.fields ++ more))
  | accessList tx => 1 :: Rlp.encode (.list (tx.fields ++ more))
  | dynamicFee tx => 2 :: Rlp.encode (.list (tx.fields ++ more))

/-- The items that follow the fields when the transaction is signed. -/
def unsignedItems : Transaction → List Item
  | legacy tx =>
    match tx.chainId with
    | none => []
    | some chain => [.number chain.toNat, .number 0, .number 0]
  | accessList _ | dynamicFee _ => []

/-- The items that follow the fields with a signature. -/
def signedItems (tx : Transaction) (sig : Signature) : List Item :=
  match tx with
  | legacy tx => [.number (tx.parityNumber sig.oddY), .number sig.r.toNat, .number sig.s.toNat]
  | accessList _ | dynamicFee _ => signatureItems sig

/-- What is signed of a transaction is the text of its fields. -/
theorem preimage_eq_text (tx : Transaction) : tx.preimage = tx.text tx.unsignedItems := by
  cases tx with
  | legacy tx =>
    obtain ⟨chainId, _⟩ := tx
    cases chainId with
    | none => rw [text, unsignedItems, List.append_nil]; rfl
    | some chain => rfl
  | accessList tx => rw [text, unsignedItems, List.append_nil, preimage]
  | dynamicFee tx => rw [text, unsignedItems, List.append_nil, preimage]

/-- What is sent of a transaction is the text of its fields with the signature. -/
theorem signed_eq_text (tx : Transaction) (sig : Signature) :
    tx.signed sig = tx.text (tx.signedItems sig) := by
  cases tx <;> rfl

/-- The transaction without what is told behind its fields: the chain of one without a type. -/
def withoutChain : Transaction → Transaction
  | legacy tx => legacy { tx with chainId := none }
  | tx => tx

/-- The transaction whose fields a text starts with, and the items behind them. -/
def ofText? : Bytes → Option (Transaction × List Item)
  | [] => none
  | kind :: bytes =>
    if kind = 1 then
      ((Rlp.decodeList? bytes).bind AccessListTransaction.ofFields?).map fun (tx, more) =>
        (accessList tx, more)
    else if kind = 2 then
      ((Rlp.decodeList? bytes).bind DynamicFeeTransaction.ofFields?).map fun (tx, more) =>
        (dynamicFee tx, more)
    else
      ((Rlp.decodeList? (kind :: bytes)).bind LegacyTransaction.ofFields?).map fun (tx, more) =>
        (legacy tx, more)

/-- The type is told by the first byte: no list starts with a byte below `0xc0`. -/
theorem ofText?_text (tx : Transaction) (more : List Item) (h : (tx.text more).length < 2 ^ 64) :
    ofText? (tx.text more) = some (tx.withoutChain, more) := by
  cases tx with
  | legacy tx =>
    have hread := Rlp.decodeList?_encode h
    obtain ⟨kind, bytes, hbytes, hkind⟩ := Rlp.exists_encode_list h
    have hone : kind ≠ 1 := by
      rintro rfl
      exact absurd hkind (by decide)
    have htwo : kind ≠ 2 := by
      rintro rfl
      exact absurd hkind (by decide)
    rw [hbytes] at hread
    rw [text, hbytes, ofText?, if_neg hone, if_neg htwo, hread, Option.bind_some,
      LegacyTransaction.ofFields?_fields]
    rfl
  | accessList tx =>
    rw [text, List.length_cons] at h
    rw [text, ofText?, if_pos rfl, Rlp.decodeList?_encode (by omega), Option.bind_some,
      AccessListTransaction.ofFields?_fields]
    rfl
  | dynamicFee tx =>
    rw [text, List.length_cons] at h
    rw [text, ofText?, if_neg (by decide), if_pos rfl, Rlp.decodeList?_encode (by omega),
      Option.bind_some, DynamicFeeTransaction.ofFields?_fields]
    rfl

/-- The transaction whose signed hash is that of the text. -/
def ofPreimage? (bytes : Bytes) : Option Transaction :=
  match ofText? bytes with
  | some (tx, []) => some tx
  | some (legacy tx, [chain, .bytes [], .bytes []]) =>
    chain.word?.map fun chain => legacy { tx with chainId := some chain }
  | _ => none

/-- The transaction and the signature that a text tells. -/
def ofSigned? (bytes : Bytes) : Option (Transaction × Signature) :=
  match ofText? bytes with
  | some (legacy tx, [v, r, s]) => do
    let (chainId, oddY) ← LegacyTransaction.chainAndParity? (BigEndian.decode (← v.bytes?))
    return (legacy { tx with chainId := chainId }, ⟨← r.bits? 256, ← s.bits? 256, oddY⟩)
  | some (legacy _, _) => none
  | some (tx, more) => (signature? more).map fun sig => (tx, sig)
  | none => none

/-- A transaction is read back from the text whose hash is signed. -/
theorem ofPreimage?_preimage (tx : Transaction) (h : tx.preimage.length < 2 ^ 64) :
    ofPreimage? tx.preimage = some tx := by
  rw [preimage_eq_text] at h ⊢
  rw [ofPreimage?, ofText?_text tx _ h]
  cases tx with
  | legacy tx =>
    obtain ⟨chainId, _⟩ := tx
    cases chainId with
    | none => rfl
    | some chain =>
      have hzero : Item.number 0 = .bytes [] := rfl
      simp [withoutChain, unsignedItems, hzero]
  | accessList tx => rfl
  | dynamicFee tx => rfl

/-- A transaction and its signature are read back from the signed text. -/
theorem ofSigned?_signed (tx : Transaction) (sig : Signature) (h : (tx.signed sig).length < 2 ^ 64) :
    ofSigned? (tx.signed sig) = some (tx, sig) := by
  rw [signed_eq_text] at h ⊢
  rw [ofSigned?, ofText?_text tx _ h]
  cases tx with
  | legacy tx =>
    have hparity := tx.chainAndParity?_parityNumber sig.oddY
    have hnumber : (Item.number (tx.parityNumber sig.oddY)).bytes? =
        some (BigEndian.encodeMinimal (tx.parityNumber sig.oddY)) := rfl
    simp [withoutChain, signedItems, hnumber, hparity]
  | accessList tx =>
    simp [withoutChain, signedItems, signature?_signatureItems]
  | dynamicFee tx =>
    simp [withoutChain, signedItems, signature?_signatureItems]

end Transaction

end Keyring
