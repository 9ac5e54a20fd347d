import Keyring.Bytes.BigEndian
import Keyring.Cipher.Aes

/-!
# Counter mode

A message is added to a key stream, the encryptions of successive counter blocks. Counting happens
in the low `width` bits of the block only, and wraps there, so the bits above never change. Main
statement: adding the same key stream twice gives the message back (`apply_apply`).
-/

namespace Keyring.Counter

/-- The counter block `count` steps after the given one: its number goes up in the low `width` bits
and keeps the bits above. -/
def advance (width count : Nat) (block : Bytes) : Bytes :=
  let n := BigEndian.decode block
  BigEndian.encode block.length (n / 2 ^ width * 2 ^ width + (n + count) % 2 ^ width)

/-- The first `blocks` blocks of the key stream from the block `count` steps after `start` on. -/
def keyStream (width : Nat) (key : Aes.Block) (start : Bytes) : (blocks count : Nat) → Bytes
  | 0, _ => []
  | blocks + 1, count =>
    (Aes.encrypt key (.ofBytes (advance width count start))).toBytes
      ++ keyStream width key start blocks (count + 1)

/-- The message added to the key stream. -/
def apply (width : Nat) (key iv message : Bytes) : Bytes :=
  Bytes.xor message (keyStream width (.ofBytes key) iv ((message.length + 15) / 16) 0)

@[simp] theorem length_keyStream (width : Nat) (key : Aes.Block) (start : Bytes) (blocks count : Nat) :
    (keyStream width key start blocks count).length = 16 * blocks := by
  induction blocks generalizing count with
  | zero => rfl
  | succ blocks ih => simp [keyStream, ih]; omega

@[simp] theorem length_apply (width : Nat) (key iv message : Bytes) :
    (apply width key iv message).length = message.length := by
  simp [apply]; omega

/-- Adding bytes that are as long twice changes nothing. -/
theorem xor_xor_of_length_le : ∀ {a b : Bytes}, a.length ≤ b.length →
    Bytes.xor (Bytes.xor a b) b = a
  | [], _, _ => rfl
  | x :: a, [], h => by simp at h
  | x :: a, y :: b, h => by
    have ih := xor_xor_of_length_le (a := a) (b := b) (by simpa using h)
    simp only [Bytes.xor] at ih
    simp only [Bytes.xor, List.zipWith_cons_cons, ih, UInt8.xor_assoc, UInt8.xor_self, UInt8.xor_zero]

/-- What is encrypted twice is as before. -/
theorem apply_apply (width : Nat) (key iv message : Bytes) :
    apply width key iv (apply width key iv message) = message := by
  have h : (apply width key iv message).length = message.length := length_apply width key iv message
  unfold apply at h ⊢
  rw [h]
  exact xor_xor_of_length_le (by simp; omega)

end Keyring.Counter
