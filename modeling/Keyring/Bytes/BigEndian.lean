import Keyring.Bytes.Basic

/-!
# Numbers as big-endian bytes

`BigEndian.encode width n` writes the last `width` base-256 digits of `n`, most significant first;
`BigEndian.decode` reads any number of digits. Main statements: reading what was written gives the
number modulo `256 ^ width` (`decode_encode`), and writing what was read at its own width gives the
bytes back (`encode_decode`), so the two correspond exactly on numbers that fit.
-/

namespace Keyring.BigEndian

/-- The last `width` base-256 digits of `n`, most significant first. -/
def encode : (width : Nat) → (n : Nat) → Bytes
  | 0, _ => []
  | width + 1, n => encode width (n / 256) ++ [UInt8.ofNat n]

/-- The number that the bytes are the base-256 digits of, most significant first. -/
def decode (bytes : Bytes) : Nat :=
  bytes.foldl (fun acc b => 256 * acc + b.toNat) 0

/-- How many base-256 digits `n` has; zero has none. -/
def digitCount (n : Nat) : Nat :=
  if n = 0 then 0 else n.log2 / 8 + 1

/-- The base-256 digits of `n` without leading zeros. -/
def encodeMinimal (n : Nat) : Bytes :=
  encode (digitCount n) n

@[simp] theorem length_encode (width n : Nat) : (encode width n).length = width := by
  induction width generalizing n with
  | zero => rfl
  | succ width ih => simp [encode, ih]

@[simp] theorem decode_nil : decode [] = 0 := rfl

@[simp] theorem decode_concat (bytes : Bytes) (b : UInt8) :
    decode (bytes ++ [b]) = 256 * decode bytes + b.toNat := by
  simp [decode]

/-- Bytes of a width tell a number up to the power of 256 that does not fit. -/
theorem decode_encode (width n : Nat) : decode (encode width n) = n % 256 ^ width := by
  induction width generalizing n with
  | zero => simp [encode, Nat.mod_one]
  | succ width ih =>
    rw [encode, decode_concat, ih, Nat.pow_succ, Nat.mul_comm (256 ^ width), Nat.mod_mul]
    simp only [UInt8.toNat_ofNat']
    omega

/-- A number that fits is read back. -/
theorem decode_encode_of_lt {width n : Nat} (h : n < 256 ^ width) :
    decode (encode width n) = n := by
  rw [decode_encode, Nat.mod_eq_of_lt h]

/-- Every byte string is its last byte after the rest, or empty. -/
private theorem encode_decode_reverse (bytes : Bytes) :
    encode bytes.length (decode bytes.reverse) = bytes.reverse := by
  induction bytes with
  | nil => rfl
  | cons b bytes ih =>
    have hb : b.toNat < 256 := b.toNat_lt_size
    simp only [List.length_cons, List.reverse_cons, encode, decode_concat]
    rw [show (256 * decode bytes.reverse + b.toNat) / 256 = decode bytes.reverse by omega, ih,
      List.append_cancel_left_eq]
    congr 1
    apply UInt8.toNat_inj.1
    simp only [UInt8.toNat_ofNat']
    omega

/-- Bytes are written again as they were read. -/
theorem encode_decode (bytes : Bytes) : encode bytes.length (decode bytes) = bytes := by
  simpa using encode_decode_reverse bytes.reverse

/-- Bytes tell a number that fits their width. -/
theorem decode_lt (bytes : Bytes) : decode bytes < 256 ^ bytes.length := by
  have h := decode_encode bytes.length (decode bytes)
  rw [encode_decode] at h
  rw [h]
  exact Nat.mod_lt _ (Nat.pow_pos (by decide))

end Keyring.BigEndian
