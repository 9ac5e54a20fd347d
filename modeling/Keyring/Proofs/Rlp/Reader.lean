import Keyring.Rlp

/-!
# Reading recursive length prefixes

The first byte of a serial form tells where the form ends and whether it holds items (`Chunk.first?`), so
that items that are written one after the other are read back (`Rlp.decodeAll?_encodeAll`). A prefix has
room for eight digits of a length: that is what the bound `2 ^ 64` is for.
-/

namespace Keyring

namespace BigEndian

/-- A number has as many digits as are counted. -/
theorem lt_pow_digitCount (n : Nat) : n < 256 ^ digitCount n := by
  unfold digitCount
  split
  · next h => rw [h]; decide
  · calc n < 2 ^ (n.log2 + 1) := Nat.lt_log2_self
      _ ≤ 2 ^ (8 * (n.log2 / 8 + 1)) := Nat.pow_le_pow_right (by decide) (by omega)
      _ = 256 ^ (n.log2 / 8 + 1) := Nat.pow_mul 2 8 _

/-- A number below a power has no more digits than that. -/
theorem digitCount_le {n count : Nat} (h : n < 256 ^ count) : digitCount n ≤ count := by
  unfold digitCount
  split
  · exact Nat.zero_le count
  · next hne =>
    have hlog : n.log2 < 8 * count := by
      rw [Nat.log2_lt hne, Nat.pow_mul]
      exact h
    omega

/-- A number is read back from its digits. -/
@[simp] theorem decode_encodeMinimal (n : Nat) : decode (encodeMinimal n) = n :=
  decode_encode_of_lt (lt_pow_digitCount n)

@[simp] theorem length_encodeMinimal (n : Nat) : (encodeMinimal n).length = digitCount n :=
  length_encode _ _

end BigEndian

namespace Rlp

/-! ## Chunks -/

/-- What stands at the front of bytes: a payload, whether it holds items, and what is behind it. -/
structure Chunk where
  isList : Bool
  payload : Bytes
  rest : Bytes

namespace Chunk

/-- A payload of the given length, if there are so many bytes. -/
def ofLength? (isList : Bool) (length : Nat) (bytes : Bytes) : Option Chunk :=
  if length ≤ bytes.length then some ⟨isList, bytes.take length, bytes.drop length⟩ else none

/-- The payload behind a first byte that is `size` above the base of its kind: up to 55 this is the length,
and from there on the number of its digits. -/
def ofSize? (isList : Bool) (size : Nat) (bytes : Bytes) : Option Chunk :=
  if size ≤ 55 then ofLength? isList size bytes
  else ofLength? isList (BigEndian.decode (bytes.take (size - 55))) (bytes.drop (size - 55))

/-- The first chunk of bytes. -/
def first? : Bytes → Option Chunk
  | [] => none
  | b :: bytes =>
    if b.toNat < 0x80 then some ⟨false, [b], bytes⟩
    else if b.toNat < 0xc0 then ofSize? false (b.toNat - 0x80) bytes
    else ofSize? true (b.toNat - 0xc0) bytes

/-- A payload that is there is taken. -/
theorem ofLength?_append (isList : Bool) (payload rest : Bytes) :
    ofLength? isList payload.length (payload ++ rest) = some ⟨isList, payload, rest⟩ := by
  have hle : payload.length ≤ (payload ++ rest).length := by simp
  rw [ofLength?, if_pos hle, List.take_left, List.drop_left]

/-- A chunk of a told length is of its kind and takes exactly the bytes that there are. -/
theorem of_ofLength? {isList : Bool} {length : Nat} {bytes : Bytes} {chunk : Chunk}
    (h : ofLength? isList length bytes = some chunk) :
    chunk.isList = isList ∧ chunk.payload.length + chunk.rest.length = bytes.length := by
  unfold ofLength? at h
  split at h
  · next hle =>
    cases h
    rw [List.length_take, List.length_drop]
    exact ⟨rfl, by omega⟩
  · cases h

/-- A chunk of a told size is of its kind and takes no more bytes than there are. -/
theorem of_ofSize? {isList : Bool} {size : Nat} {bytes : Bytes} {chunk : Chunk}
    (h : ofSize? isList size bytes = some chunk) :
    chunk.isList = isList ∧ chunk.payload.length + chunk.rest.length ≤ bytes.length := by
  unfold ofSize? at h
  split at h
  · obtain ⟨hkind, hlength⟩ := of_ofLength? h
    exact ⟨hkind, Nat.le_of_eq hlength⟩
  · obtain ⟨hkind, hlength⟩ := of_ofLength? h
    rw [List.length_drop] at hlength
    exact ⟨hkind, by omega⟩

/-- What is behind the first chunk is shorter than the bytes. If the chunk holds items, then its payload is
shorter too, and it is announced by a byte from `0xc0` on. -/
theorem of_first? {b : UInt8} {bytes : Bytes} {chunk : Chunk}
    (h : first? (b :: bytes) = some chunk) :
    chunk.rest.length ≤ bytes.length ∧
      (chunk.isList = true → chunk.payload.length ≤ bytes.length ∧ 0xc0 ≤ b.toNat) := by
  rw [first?] at h
  split at h
  · cases h
    exact ⟨Nat.le_refl _, nofun⟩
  · split at h
    · obtain ⟨hkind, hlength⟩ := of_ofSize? h
      rw [hkind]
      exact ⟨by omega, nofun⟩
    · next hnot =>
      obtain ⟨-, hlength⟩ := of_ofSize? h
      exact ⟨by omega, fun _ => ⟨by omega, Nat.le_of_not_lt hnot⟩⟩

/-- What is behind the first chunk is shorter than the bytes, and so is a payload that holds items. -/
theorem length_of_first? {bytes : Bytes} {chunk : Chunk} (h : first? bytes = some chunk) :
    chunk.rest.length < bytes.length ∧
      (chunk.isList = true → chunk.payload.length < bytes.length) := by
  cases bytes with
  | nil => cases h
  | cons b bytes =>
    obtain ⟨hrest, hpayload⟩ := of_first? h
    exact ⟨Nat.lt_succ_of_le hrest, fun hlist => Nat.lt_succ_of_le (hpayload hlist).1⟩

/-- The base of the prefixes of a kind. -/
def base (isList : Bool) : Nat :=
  if isList then 0xc0 else 0x80

/-- The first byte of a prefix tells the kind. -/
theorem first?_cons {isList : Bool} {size : Nat} (h : size < 64) (bytes : Bytes) :
    first? (UInt8.ofNat (base isList + size) :: bytes) = ofSize? isList size bytes := by
  rw [first?]
  cases isList with
  | false =>
    have hbyte : (UInt8.ofNat (base false + size)).toNat = 0x80 + size := by
      simp only [base, Bool.false_eq_true, if_false, UInt8.toNat_ofNat']
      omega
    have hnot : ¬ 0x80 + size < 0x80 := by omega
    have hlt : 0x80 + size < 0xc0 := by omega
    rw [hbyte, if_neg hnot, if_pos hlt, Nat.add_sub_cancel_left]
  | true =>
    have hbyte : (UInt8.ofNat (base true + size)).toNat = 0xc0 + size := by
      simp only [base, if_true, UInt8.toNat_ofNat']
      omega
    have hnot : ¬ 0xc0 + size < 0x80 := by omega
    have hnot' : ¬ 0xc0 + size < 0xc0 := by omega
    rw [hbyte, if_neg hnot, if_neg hnot', Nat.add_sub_cancel_left]

/-- A payload behind its prefix is the first chunk. -/
theorem first?_lengthPrefix (isList : Bool) {payload : Bytes} (h : payload.length < 2 ^ 64)
    (rest : Bytes) :
    first? (lengthPrefix (base isList) payload.length ++ (payload ++ rest)) =
      some ⟨isList, payload, rest⟩ := by
  unfold lengthPrefix
  split
  · next hshort =>
    rw [List.singleton_append, first?_cons (by omega), ofSize?, if_pos hshort, ofLength?_append]
  · next hlong =>
    have hcount : BigEndian.digitCount payload.length ≤ 8 := BigEndian.digitCount_le h
    have hpos : 0 < BigEndian.digitCount payload.length := by
      unfold BigEndian.digitCount
      split <;> omega
    have hsize : ¬ 55 + BigEndian.digitCount payload.length ≤ 55 := by omega
    rw [List.cons_append, Nat.add_assoc, first?_cons (by omega), ofSize?, if_neg hsize,
      Nat.add_sub_cancel_left, ← BigEndian.length_encodeMinimal, List.take_left, List.drop_left,
      BigEndian.decode_encodeMinimal, ofLength?_append]

/-- A byte string is the first chunk. -/
theorem first?_encodeBytes {bytes : Bytes} (h : bytes.length < 2 ^ 64) (rest : Bytes) :
    first? (encodeBytes bytes ++ rest) = some ⟨false, bytes, rest⟩ := by
  unfold encodeBytes
  split
  · next b =>
    split
    · next hlt =>
      have hlt : b.toNat < 0x80 := UInt8.lt_iff_toNat_lt.1 hlt
      rw [List.singleton_append, first?, if_pos hlt]
    · rw [List.append_assoc]
      exact first?_lengthPrefix false h rest
  · rw [List.append_assoc]
    exact first?_lengthPrefix false h rest

end Chunk

/-- A byte string is no longer than its serial form. -/
theorem length_le_encodeBytes (bytes : Bytes) : bytes.length ≤ (encodeBytes bytes).length := by
  unfold encodeBytes
  split
  · split <;> simp
  · simp

/-- A prefix is a byte, and at most eight digits of the length. -/
theorem length_lengthPrefix_le (base : Nat) {length : Nat} (h : length < 2 ^ 64) :
    (lengthPrefix base length).length ≤ 9 := by
  have hcount : BigEndian.digitCount length ≤ 8 := BigEndian.digitCount_le h
  unfold lengthPrefix
  split
  · exact Nat.le_add_left 1 8
  · rw [List.length_cons, BigEndian.length_encodeMinimal]
    omega

/-- A text takes nine bytes more than its own at most. -/
theorem length_encodeBytes_le {bytes : Bytes} (h : bytes.length < 2 ^ 64) :
    (encodeBytes bytes).length ≤ bytes.length + 9 := by
  have hprefix := length_lengthPrefix_le 0x80 h
  unfold encodeBytes
  split
  · split
    · exact Nat.le_add_right 1 9
    · rw [List.length_append, Nat.add_comm]
      exact Nat.add_le_add_left hprefix 1
  · rw [List.length_append, Nat.add_comm]
    exact Nat.add_le_add_left hprefix _

/-- A number of at most thirty-two digits. -/
theorem length_encode_number_le {n : Nat} (h : n < 2 ^ 256) : (encode (.number n)).length ≤ 41 := by
  have hcount : BigEndian.digitCount n ≤ 32 := BigEndian.digitCount_le h
  have hlength : (BigEndian.encodeMinimal n).length = BigEndian.digitCount n :=
    BigEndian.length_encodeMinimal n
  have hbytes : (encodeBytes (BigEndian.encodeMinimal n)).length ≤ _ := length_encodeBytes_le (by omega)
  rw [Item.number, encode]
  omega

/-! ## Items -/

/-- The items that bytes hold one after the other. -/
def decodeAll? (bytes : Bytes) : Option (List Item) :=
  match h : Chunk.first? bytes with
  | none => if bytes.isEmpty then some [] else none
  | some ⟨false, payload, rest⟩ =>
    have := (Chunk.length_of_first? h).1
    (decodeAll? rest).map (.bytes payload :: ·)
  | some ⟨true, payload, rest⟩ =>
    have := (Chunk.length_of_first? h).2 rfl
    have := (Chunk.length_of_first? h).1
    (decodeAll? payload).bind fun items => (decodeAll? rest).map (.list items :: ·)
termination_by bytes.length

/-- The items of a list that the bytes are the serial form of. -/
def decodeList? (bytes : Bytes) : Option (List Item) :=
  match decodeAll? bytes with
  | some [.list items] => some items
  | _ => none

theorem decodeAll?_nil : decodeAll? [] = some [] := by
  rw [decodeAll?]
  rfl

/-- A byte string at the front is the first item. -/
theorem decodeAll?_of_bytes {bytes payload rest : Bytes}
    (h : Chunk.first? bytes = some ⟨false, payload, rest⟩) :
    decodeAll? bytes = (decodeAll? rest).map (.bytes payload :: ·) := by
  rw [decodeAll?]
  split
  · next hnone =>
    rw [h] at hnone
    cases hnone
  · next hbytes =>
    rw [h] at hbytes
    cases hbytes
    rfl
  · next hlist =>
    rw [h] at hlist
    cases hlist

/-- The items of a payload at the front are those of the first item. -/
theorem decodeAll?_of_list {bytes payload rest : Bytes}
    (h : Chunk.first? bytes = some ⟨true, payload, rest⟩) :
    decodeAll? bytes =
      (decodeAll? payload).bind fun items => (decodeAll? rest).map (.list items :: ·) := by
  rw [decodeAll?]
  split
  · next hnone =>
    rw [h] at hnone
    cases hnone
  · next hbytes =>
    rw [h] at hbytes
    cases hbytes
  · next hlist =>
    rw [h] at hlist
    cases hlist
    rfl

/-- A list is the first chunk. -/
theorem first?_encode_list {items : List Item} (h : (encodeAll items).length < 2 ^ 64) (rest : Bytes) :
    Chunk.first? (encode (.list items) ++ rest) = some ⟨true, encodeAll items, rest⟩ := by
  rw [encode, List.append_assoc]
  exact Chunk.first?_lengthPrefix true h rest

/-- What a list holds is shorter than the list. -/
theorem length_encodeAll_lt (items : List Item) :
    (encodeAll items).length < (encode (.list items)).length := by
  rw [encode, List.length_append]
  unfold lengthPrefix
  split <;> simp

mutual

/-- An item is read back from the front of bytes, whatever is behind it. -/
theorem decodeAll?_encode_append (item : Item) (rest : Bytes)
    (h : (encode item).length < 2 ^ 64) :
    decodeAll? (encode item ++ rest) = (decodeAll? rest).map (item :: ·) := by
  cases item with
  | bytes bytes =>
    rw [encode] at h ⊢
    have hle : bytes.length < 2 ^ 64 := Nat.lt_of_le_of_lt (length_le_encodeBytes bytes) h
    exact decodeAll?_of_bytes (Chunk.first?_encodeBytes hle rest)
  | list items =>
    have hlt : (encodeAll items).length < 2 ^ 64 := Nat.lt_trans (length_encodeAll_lt items) h
    rw [decodeAll?_of_list (first?_encode_list hlt rest), decodeAll?_encodeAll items hlt]
    rfl

/-- Items that are written one after the other are read back. -/
theorem decodeAll?_encodeAll (items : List Item) (h : (encodeAll items).length < 2 ^ 64) :
    decodeAll? (encodeAll items) = some items := by
  cases items with
  | nil => exact decodeAll?_nil
  | cons item items =>
    rw [encodeAll, List.length_append] at h
    rw [encodeAll, decodeAll?_encode_append item (encodeAll items) (by omega),
      decodeAll?_encodeAll items (by omega)]
    rfl

end

/-- A list is read back from its serial form. -/
theorem decodeList?_encode {items : List Item} (h : (encode (.list items)).length < 2 ^ 64) :
    decodeList? (encode (.list items)) = some items := by
  have hall := decodeAll?_encode_append (.list items) [] h
  rw [List.append_nil, decodeAll?_nil] at hall
  rw [decodeList?, hall]
  rfl

/-- The serial form of a list starts with a byte from `0xc0` on. -/
theorem exists_encode_list {items : List Item} (h : (encode (.list items)).length < 2 ^ 64) :
    ∃ b bytes, encode (.list items) = b :: bytes ∧ 0xc0 ≤ b.toNat := by
  have hfirst := first?_encode_list (Nat.lt_trans (length_encodeAll_lt items) h) []
  rw [List.append_nil] at hfirst
  cases hform : encode (.list items) with
  | nil => rw [hform] at hfirst; cases hfirst
  | cons b bytes =>
    rw [hform] at hfirst
    exact ⟨b, bytes, rfl, ((Chunk.of_first? hfirst).2 rfl).2⟩

end Rlp

end Keyring
