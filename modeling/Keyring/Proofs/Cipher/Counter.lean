import Mathlib.Data.List.Induction
import Mathlib.Tactic.Ring
import Keyring.Cipher.Counter
import Keyring.Proofs.Cipher.Aes

/-!
# Counters of half a block

Standard counter mode takes the whole block of sixteen bytes as one number (`advance_whole`). Counting in
the low half alone gives the same two blocks, unless all bits of the low half are set at the start: then the
carry is lost (`advance_one_eq_iff`). Different blocks are encrypted differently, so a message of two blocks
that was encrypted in the standard way gets its first half back in any case and its second half exactly if
nothing was to be carried (`apply_standard`).
-/

namespace Keyring

/-! ## Numbers of two halves -/

namespace BigEndian

/-- The bytes in front count for more by the width of those behind. -/
theorem decode_append (a b : Bytes) : decode (a ++ b) = 256 ^ b.length * decode a + decode b := by
  induction b using List.reverseRecOn with
  | nil => simp
  | append_singleton b last ih =>
    rw [← List.append_assoc, decode_concat, decode_concat, ih, List.length_append,
      List.length_singleton, Nat.pow_succ]
    ring

/-- Numbers that are written in as many digits tell their digits apart. -/
theorem decode_injective {a b : Bytes} (hlength : a.length = b.length) (h : decode a = decode b) :
    a = b := by
  rw [← encode_decode a, h, hlength, encode_decode]

/-- The low half of sixteen bytes is the remainder by the first number that does not fit in eight. -/
theorem decode_mod (block : FixedBytes 16) :
    decode block.toBytes % 2 ^ 64 = decode (block.toBytes.drop 8) := by
  have hlow : (block.toBytes.drop 8).length = 8 := by
    rw [List.length_drop, block.length_toBytes]
  have hlt := decode_lt (block.toBytes.drop 8)
  rw [hlow] at hlt
  conv_lhs => rw [← List.take_append_drop 8 block.toBytes, decode_append, hlow]
  omega

/-- A block tells a number below 2 ^ 128. -/
theorem decode_lt_of_block (block : FixedBytes 16) : decode block.toBytes < 2 ^ 128 := by
  have hlt := decode_lt block.toBytes
  rw [block.length_toBytes] at hlt
  exact hlt

end BigEndian

/-! ## Sums of byte strings -/

namespace Bytes

/-- Bytes are added piece by piece. -/
theorem xor_append {a b a' b' : Bytes} (h : a.length = b.length) :
    xor (a ++ a') (b ++ b') = xor a b ++ xor a' b' :=
  List.zipWith_append h

/-- Two streams added one after the other are without effect exactly if they are the same. -/
theorem xor_xor_eq_iff : ∀ {message s t : Bytes}, message.length = s.length → s.length = t.length →
    (xor (xor message s) t = message ↔ s = t)
  | [], [], [], _, _ => by simp [xor]
  | m :: message, x :: s, y :: t, hs, ht => by
    have ih : xor (xor message s) t = message ↔ s = t :=
      xor_xor_eq_iff (by simpa using hs) (by simpa using ht)
    have hbyte : m ^^^ x ^^^ y = m ↔ x = y := by
      constructor
      · intro h
        rw [← Aes.xor_xor_cancel m x, ← Aes.xor_xor_cancel (m ^^^ x) y, h, UInt8.xor_comm (m ^^^ x)]
      · rintro rfl
        rw [UInt8.xor_assoc, UInt8.xor_self, UInt8.xor_zero]
    simp only [xor, List.zipWith_cons_cons, List.cons.injEq, hbyte] at ih ⊢
    rw [ih]

end Bytes

namespace Counter

open BigEndian (decode decode_lt_of_block)

variable (width : Nat) (start : FixedBytes 16)

/-! ## Counter blocks -/

theorem length_advance (count : Nat) : (advance width count start.toBytes).length = 16 := by
  rw [advance, BigEndian.length_encode, start.length_toBytes]

/-- With all bits counting, the block is one number. -/
theorem advance_whole (count : Nat) : advance 128 count start.toBytes =
    BigEndian.encode 16 ((decode start.toBytes + count) % 2 ^ 128) := by
  rw [advance, start.length_toBytes, Nat.div_eq_of_lt (decode_lt_of_block start), Nat.zero_mul,
    Nat.zero_add]

/-- The first block is the one that is given. -/
theorem advance_zero : advance width 0 start.toBytes = start.toBytes := by
  rw [advance, Nat.add_zero, Nat.div_add_mod', BigEndian.encode_decode]

/-- All bits of the low half are set, so that the next step carries. -/
def Carries : Prop :=
  start.toBytes.drop 8 = List.replicate 8 0xff

instance : Decidable (Carries start) :=
  inferInstanceAs (Decidable (_ = _))

/-- A start carries exactly if its low half is the largest number. -/
theorem carries_iff : Carries start ↔ decode start.toBytes % 2 ^ 64 = 2 ^ 64 - 1 := by
  have hones : decode (List.replicate 8 0xff) = 2 ^ 64 - 1 := by decide
  rw [BigEndian.decode_mod, ← hones, Carries]
  refine ⟨fun h => by rw [h], BigEndian.decode_injective ?_⟩
  rw [List.length_drop, start.length_toBytes, List.length_replicate]

/-- The second block is the same unless there is a carry. -/
theorem advance_one_eq_iff :
    advance 128 1 start.toBytes = advance 64 1 start.toBytes ↔ ¬ Carries start := by
  have hlt := decode_lt_of_block start
  rw [carries_iff, advance_whole, advance, start.length_toBytes]
  generalize decode start.toBytes = n at hlt ⊢
  constructor
  · intro h
    have hnumber := congrArg decode h
    rw [BigEndian.decode_encode, BigEndian.decode_encode] at hnumber
    omega
  · intro h
    congr 1
    omega

/-! ## Messages of two blocks -/

variable (key : Bytes)

/-- The piece of the key stream that a counter block gives. -/
def piece (count : Nat) : Bytes :=
  (Aes.encrypt (.ofBytes key) (.ofBytes (advance width count start.toBytes))).toBytes

theorem length_piece (count : Nat) : (piece width start key count).length = 16 :=
  Aes.Block.length_toBytes _

/-- Pieces are the same exactly if the counter blocks are. -/
theorem piece_eq_iff {other count : Nat} : piece width start key count = piece other start key count ↔
    advance width count start.toBytes = advance other count start.toBytes := by
  refine ⟨fun h => ?_, fun h => by rw [piece, piece, h]⟩
  have hblock := Aes.encrypt_injective (Aes.Block.toBytes_injective h)
  rw [← Aes.Block.toBytes_ofBytes (length_advance width start count), hblock,
    Aes.Block.toBytes_ofBytes (length_advance other start count)]

variable {message : Bytes}

/-- Two blocks are added to two pieces. -/
theorem apply_two (h : message.length = 32) : apply width key start.toBytes message =
    Bytes.xor (message.take 16) (piece width start key 0) ++
      Bytes.xor (message.drop 16) (piece width start key 1) := by
  have hhalf : (message.take 16).length = (piece width start key 0).length := by
    rw [length_piece, List.length_take, h]
    rfl
  rw [← Bytes.xor_append hhalf, List.take_append_drop, apply, h]
  simp only [keyStream, piece, List.append_nil, Nat.reduceAdd, Nat.reduceDiv]

/-- What a message of two blocks that was encrypted in the standard way is decrypted to, with a counter of
half a block: the first half is right, and the second one exactly if nothing was to be carried. -/
theorem apply_standard (h : message.length = 32) :
    (apply 64 key start.toBytes (apply 128 key start.toBytes message)).take 16 = message.take 16 ∧
      ((apply 64 key start.toBytes (apply 128 key start.toBytes message)).drop 16 = message.drop 16 ↔
        ¬ Carries start) := by
  have hfirst : (message.take 16).length = 16 := by rw [List.length_take, h]; rfl
  have hsecond : (message.drop 16).length = 16 := by rw [List.length_drop, h]
  have hpiece (width count : Nat) := length_piece width start key count
  have hsum (part : Bytes) (hpart : part.length = 16) (width count : Nat) :
      (Bytes.xor part (piece width start key count)).length = 16 := by
    rw [Bytes.length_xor, hpart, hpiece]
    rfl
  have hencrypted : (apply 128 key start.toBytes message).length = 32 := by rw [length_apply, h]
  rw [apply_two 64 start key hencrypted, apply_two 128 start key h]
  rw [List.take_left' (hsum _ hfirst 128 0), List.drop_left' (hsum _ hfirst 128 0),
    List.take_left' (hsum _ (hsum _ hfirst 128 0) 64 0), List.drop_left' (hsum _ (hsum _ hfirst 128 0) 64 0)]
  constructor
  · rw [Bytes.xor_xor_eq_iff (hfirst.trans (hpiece 128 0).symm) ((hpiece 128 0).trans (hpiece 64 0).symm),
      piece_eq_iff, advance_zero, advance_zero]
  · rw [Bytes.xor_xor_eq_iff (hsecond.trans (hpiece 128 1).symm) ((hpiece 128 1).trans (hpiece 64 1).symm),
      piece_eq_iff, advance_one_eq_iff]

end Counter

end Keyring
