import Keyring.Hash.Scrypt

/-!
# The numbers and the memory of scrypt

Each check of the numbers rejects what it should reject over the integers (`Scrypt.Refusal.Rejects`), because
no product that is compared is too large for a word (`Scrypt.Params.ofNumbers_eq_ok_iff`).

There are two areas. The bytes that all lanes start from come from PBKDF2, `128 * r * p` of them
(`Scrypt.length_start`), and the values of one lane are kept while it is mixed, `128 * n * r` bytes
(`Scrypt.keptBytes_of_mem_lanes`).
-/

namespace Keyring.Scrypt

/-! ## Checked numbers -/

/-- What a check rejects, over the integers. -/
def Refusal.Rejects (logCost r p : Nat) : Refusal → Prop
  | range => r = 0 ∨ p = 0 ∨ 64 ≤ logCost
  | laneSize => 2 ^ 64 ≤ 128 * r
  | keptSize => 2 ^ 64 ≤ 128 * 2 ^ logCost * r
  | startSize => 2 ^ 64 ≤ 128 * r * p
  | cost => 16 * r ≤ logCost
  | lanes => 2 ^ 30 ≤ r * p

section
variable {logCost : UInt8} {r p : UInt32}

/-- A product is given if it fits a word, and refused if not. -/
theorem product_eq (refusal : Refusal) {a b : UInt64} {m : Nat} (h : a.toNat * b.toNat = m) :
    (m < 2 ^ 64 ∧ product refusal a b = .ok (a * b) ∧ (a * b).toNat = m) ∨
      (2 ^ 64 ≤ m ∧ product refusal a b = .error refusal) := by
  unfold product
  rw [h]
  by_cases hm : m < 2 ^ 64
  · refine .inl ⟨hm, if_pos hm, ?_⟩
    rw [UInt64.toNat_mul, h, Nat.mod_eq_of_lt hm]
  · exact .inr ⟨Nat.le_of_not_lt hm, if_neg hm⟩

/-- A one that is shifted by less than a word is the power of two. -/
theorem toNat_one_shiftLeft (h : logCost.toNat < 64) :
    ((1 : UInt64) <<< logCost.toUInt64).toNat = 2 ^ logCost.toNat := by
  have hpow : 2 ^ logCost.toNat < 2 ^ 64 := Nat.pow_lt_pow_right (by decide) h
  rw [UInt64.toNat_shiftLeft, UInt8.toNat_toUInt64, Nat.mod_eq_of_lt h, Nat.shiftLeft_eq]
  exact (congrArg (· % 2 ^ 64) (Nat.one_mul _)).trans (Nat.mod_eq_of_lt hpow)

/-- Sixteen times a number of thirty-two bits is compared as it is. -/
theorem mul_sixteen_le_iff :
    r.toUInt64 * 16 ≤ logCost.toUInt64 ↔ 16 * r.toNat ≤ logCost.toNat := by
  have hr := r.toNat_lt
  have hword : r.toNat * 16 < 2 ^ 64 := by omega
  have hproduct : (r.toUInt64 * 16).toNat = r.toNat * 16 := by
    rw [UInt64.toNat_mul, UInt32.toNat_toUInt64]
    exact Nat.mod_eq_of_lt hword
  rw [UInt64.le_iff_toNat_le, hproduct, UInt8.toNat_toUInt64, Nat.mul_comm]

/-- The product of two numbers of thirty-two bits is compared as it is. -/
theorem le_mul_iff : 0x40000000 ≤ r.toUInt64 * p.toUInt64 ↔ 2 ^ 30 ≤ r.toNat * p.toNat := by
  have hbound : r.toNat * p.toNat < 2 ^ 32 * 2 ^ 32 := Nat.mul_lt_mul'' r.toNat_lt p.toNat_lt
  have hword : r.toNat * p.toNat < 2 ^ 64 := hbound
  rw [UInt64.le_iff_toNat_le, UInt64.toNat_mul, UInt32.toNat_toUInt64, UInt32.toNat_toUInt64,
    Nat.mod_eq_of_lt hword]
  rfl

/-- Numbers are taken as they are, or refused by a check that rejects them. -/
theorem Params.ofNumbers_cases (logCost : UInt8) (r p : UInt32) :
    (ofNumbers logCost r p = .ok ⟨logCost, r, p⟩ ∧
        ∀ refusal : Refusal, ¬ refusal.Rejects logCost.toNat r.toNat p.toNat) ∨
      ∃ refusal : Refusal, ofNumbers logCost r p = .error refusal ∧
        refusal.Rejects logCost.toNat r.toNat p.toNat := by
  unfold ofNumbers
  by_cases hrange : r = 0 ∨ p = 0 ∨ 64 ≤ logCost.toNat
  · refine .inr ⟨.range, if_pos hrange, ?_⟩
    rwa [← UInt32.toNat_inj, ← UInt32.toNat_inj] at hrange
  rw [if_neg hrange]
  -- The sizes, in the order in which they are counted.
  obtain ⟨hlane, hok, hbytes⟩ | ⟨hlarge, herror⟩ :=
    product_eq .laneSize (a := r.toUInt64) (b := 128) (m := 128 * r.toNat)
      (by rw [UInt32.toNat_toUInt64]; exact Nat.mul_comm _ _)
  case inr => exact .inr ⟨.laneSize, by rw [herror]; rfl, hlarge⟩
  simp only [bind, Except.bind, hok]
  obtain ⟨hkept, hok, -⟩ | ⟨hlarge, herror⟩ :=
    product_eq .keptSize (a := r.toUInt64 * 128) (b := 1 <<< logCost.toUInt64)
      (m := 128 * 2 ^ logCost.toNat * r.toNat)
      (by rw [hbytes, toNat_one_shiftLeft (by omega), Nat.mul_right_comm])
  case inr => exact .inr ⟨.keptSize, by simp only [herror], hlarge⟩
  simp only [hok]
  obtain ⟨hstart, hok, -⟩ | ⟨hlarge, herror⟩ :=
    product_eq .startSize (a := r.toUInt64 * 128) (b := p.toUInt64) (m := 128 * r.toNat * p.toNat)
      (by rw [hbytes, UInt32.toNat_toUInt64])
  case inr => exact .inr ⟨.startSize, by simp only [herror], hlarge⟩
  simp only [hok]
  simp only [mul_sixteen_le_iff, le_mul_iff]
  by_cases hc : 16 * r.toNat ≤ logCost.toNat
  · exact .inr ⟨.cost, if_pos hc, hc⟩
  rw [if_neg hc]
  by_cases hl : 2 ^ 30 ≤ r.toNat * p.toNat
  · exact .inr ⟨.lanes, if_pos hl, hl⟩
  rw [if_neg hl]
  refine .inl ⟨rfl, fun refusal => ?_⟩
  cases refusal with
  | range => rwa [← UInt32.toNat_inj, ← UInt32.toNat_inj] at hrange
  | laneSize => exact Nat.not_le_of_lt hlane
  | keptSize => exact Nat.not_le_of_lt hkept
  | startSize => exact Nat.not_le_of_lt hstart
  | cost => exact hc
  | lanes => exact hl

/-- Numbers are taken exactly if no check rejects them. -/
theorem Params.ofNumbers_eq_ok_iff {params : Params} : ofNumbers logCost r p = .ok params ↔
    params = ⟨logCost, r, p⟩ ∧ ∀ refusal : Refusal, ¬ refusal.Rejects logCost.toNat r.toNat p.toNat := by
  rcases ofNumbers_cases logCost r p with ⟨hok, hnone⟩ | ⟨refusal, herror, hrejects⟩
  · rw [hok]
    exact ⟨fun h => ⟨(Except.ok.inj h).symm, hnone⟩, fun h => congrArg _ h.1.symm⟩
  · rw [herror]
    exact ⟨nofun, fun h => absurd hrejects (h.2 refusal)⟩

/-- A check that refuses numbers rejects them. -/
theorem Params.rejects_of_ofNumbers {refusal : Refusal} (h : ofNumbers logCost r p = .error refusal) :
    refusal.Rejects logCost.toNat r.toNat p.toNat := by
  rcases ofNumbers_cases logCost r p with ⟨hok, -⟩ | ⟨found, herror, hrejects⟩
  · rw [hok] at h
    cases h
  · rw [herror] at h
    cases h
    exact hrejects

end

/-! ## The start of the lanes -/

/-- The bytes that all lanes are made of before they are mixed. -/
def start (password salt : Bytes) (r p : Nat) : Bytes :=
  Pbkdf2.derive password salt 1 (128 * r * p)

@[simp] theorem length_start (password salt : Bytes) (r p : Nat) :
    (start password salt r p).length = 128 * r * p :=
  Pbkdf2.length_derive _ _ _ _

/-- The lanes are cut out of the start, and each is mixed by itself. -/
theorem derive_eq (password salt : Bytes) (n r p length : Nat) : derive password salt n r p length =
    Pbkdf2.derive password (((lanes (2 * r) p (start password salt r p)).map fun lane =>
      readBack n (keep n lane #[]).1 (keep n lane #[]).2).flatMap fun lane =>
        lane.toList.flatMap Block.toBytes) 1 length :=
  rfl

/-- Each four bytes are one word. -/
theorem length_wordsOnto (read : List UInt32) (bytes : Bytes) :
    (wordsOnto read bytes).length = read.length + bytes.length / 4 := by
  fun_induction wordsOnto read bytes with
  | case1 read b0 b1 b2 b3 rest ih =>
    rw [ih]
    simp only [List.length_cons]
    omega
  | case2 bytes read hshort =>
    have hlength : bytes.length < 4 := by
      match bytes with
      | [] | [_] | [_, _] | [_, _, _] => simp
      | b0 :: b1 :: b2 :: b3 :: rest => exact absurd rfl (hshort b0 b1 b2 b3 rest)
    omega

/-- Each sixteen words are one block. -/
theorem size_blocksOnto (read : Array Block) (words : List UInt32) :
    (blocksOnto read words).size = read.size + words.length / 16 := by
  fun_induction blocksOnto read words with
  | case1 read x0 x1 x2 x3 x4 x5 x6 x7 x8 x9 x10 x11 x12 x13 x14 x15 rest ih =>
    rw [ih, Array.size_push]
    simp only [List.length_cons]
    omega
  | case2 words read hshort =>
    have hlength : words.length < 16 := by
      refine Nat.lt_of_not_le fun hlong => ?_
      exact hshort words[0] words[1] words[2] words[3] words[4] words[5] words[6] words[7] words[8] words[9]
        words[10] words[11] words[12] words[13] words[14] words[15] (words.drop 16)
        (by simp only [List.getElem_cons_drop, List.drop_zero])
    omega

/-- The bytes of a lane. -/
def laneBytes (lane : Lane) : Nat :=
  64 * lane.size

/-- Lanes that are cut out of bytes have the size that they are cut with. -/
theorem size_of_mem_lanes {size count : Nat} {bytes : Bytes} (hbytes : bytes.length = 64 * (size * count))
    {lane : Lane} (h : lane ∈ lanes size count bytes) : lane.size = size := by
  have hblocks : (blocksOnto #[] (words bytes)).size = size * count := by
    rw [size_blocksOnto, words, List.length_reverse, length_wordsOnto, hbytes]
    simp only [List.length_nil, Array.size_empty]
    omega
  obtain ⟨i, hi, rfl⟩ := List.mem_map.1 h
  have hend : (i + 1) * size ≤ size * count := by
    rw [Nat.mul_comm size]
    exact Nat.mul_le_mul_right size (List.mem_range.1 hi)
  rw [Array.size_extract, hblocks, Nat.min_eq_left hend, Nat.succ_mul]
  omega

/-! ## The kept values -/

/-- Mixing keeps each block, on one of two sides. -/
theorem size_mixBlocks (blocks : List Block) (last : Block) (even : Bool) (evens odds : Lane) :
    (mixBlocks blocks last even evens odds).size = evens.size + odds.size + blocks.length := by
  fun_induction mixBlocks blocks last even evens odds with
  | case1 => simp
  | case2 b blocks last evens odds next ih =>
    rw [ih, Array.size_push, List.length_cons]
    omega
  | case3 b blocks last even evens odds next heven ih =>
    rw [ih, Array.size_push, List.length_cons]
    omega

/-- Mixing keeps the size of a lane. -/
theorem size_mixLane (lane : Lane) : (mixLane lane).size = lane.size := by
  rw [mixLane, size_mixBlocks]
  simp

/-- The bytes of kept values. -/
def keptBytes (kept : Array Lane) : Nat :=
  kept.foldl (fun bytes lane => bytes + laneBytes lane) 0

/-- One more lane that is kept takes its own bytes. -/
theorem keptBytes_push (kept : Array Lane) (lane : Lane) :
    keptBytes (kept.push lane) = keptBytes kept + laneBytes lane := by
  simp [keptBytes]

/-- Each time a lane is mixed, its bytes are kept once more. -/
theorem keptBytes_keep (count : Nat) (lane : Lane) (kept : Array Lane) :
    keptBytes (keep count lane kept).2 = keptBytes kept + count * laneBytes lane := by
  induction count generalizing lane kept with
  | zero => simp [keep]
  | succ count ih =>
    have hsame : laneBytes (mixLane lane) = laneBytes lane := by
      rw [laneBytes, laneBytes, size_mixLane]
    rw [keep, ih, keptBytes_push, hsame, Nat.succ_mul]
    omega

/-- While a lane is mixed, `128 * n * r` bytes are kept of it. -/
theorem keptBytes_of_mem_lanes {password salt : Bytes} {r p : Nat} {lane : Lane}
    (h : lane ∈ lanes (2 * r) p (start password salt r p)) (n : Nat) :
    keptBytes (keep n lane #[]).2 = 128 * n * r := by
  have hsize : lane.size = 2 * r := by
    refine size_of_mem_lanes ?_ h
    rw [length_start, ← Nat.mul_assoc, ← Nat.mul_assoc]
  calc keptBytes (keep n lane #[]).2
      = n * (64 * (2 * r)) := by rw [keptBytes_keep, laneBytes, hsize]; exact Nat.zero_add _
    _ = n * (128 * r) := by rw [← Nat.mul_assoc 64]
    _ = 128 * n * r := by rw [Nat.mul_left_comm, Nat.mul_assoc]

end Keyring.Scrypt
