import Keyring.Cipher.Aes

/-!
# Different blocks are encrypted differently

Every step of a round can be undone: the key is added, bytes are replaced by a table without repetitions,
rows are rotated, and the columns are multiplied by a matrix whose fourth power is the identity
(`Column.mix_mix_mix_mix`), because doubling goes through sums. So under any key two blocks that are encrypted
to the same one are the same (`encrypt_injective`).
-/

namespace Keyring.Aes

/-! ## Sums of bytes -/

/-- Sums of bytes may be taken in another order. -/
theorem xor_left_comm (a b c : UInt8) : a ^^^ (b ^^^ c) = b ^^^ (a ^^^ c) := by
  rw [← UInt8.xor_assoc, UInt8.xor_comm a b, UInt8.xor_assoc]

/-- Adding a byte twice changes nothing. -/
theorem xor_xor_cancel (a b : UInt8) : a ^^^ (a ^^^ b) = b := by
  rw [← UInt8.xor_assoc, UInt8.xor_self, UInt8.zero_xor]

/-- The first bit of a byte is set. -/
theorem lt_iff_msb (b : UInt8) : b < 0x80 ↔ b.toBitVec.msb = false := by
  rw [BitVec.msb_eq_decide, decide_eq_false_iff_not, UInt8.lt_iff_toNat_lt, Nat.not_le]
  rfl

/-- Doubling goes through sums. -/
theorem double_xor (a b : UInt8) : double (a ^^^ b) = double a ^^^ double b := by
  have hmsb : (a ^^^ b).toBitVec.msb = (a.toBitVec.msb ^^ b.toBitVec.msb) := by
    rw [UInt8.toBitVec_xor, BitVec.msb_xor]
  simp only [double, lt_iff_msb, hmsb, UInt8.shiftLeft_xor]
  cases a.toBitVec.msb <;> cases b.toBitVec.msb <;>
    simp [UInt8.xor_assoc, UInt8.xor_comm, xor_left_comm]

/-! ## Columns -/

namespace Column

/-- Adding a column twice changes nothing. -/
theorem xor_xor (u v : Column) : (u.xor v).xor v = u := by
  simp only [xor, UInt8.xor_assoc, UInt8.xor_self, UInt8.xor_zero]

/-- The first byte of a product, which tells the others by rotation. -/
def mixed (a b c d : UInt8) : UInt8 :=
  double a ^^^ double b ^^^ b ^^^ c ^^^ d

/-- A column is multiplied by the same sum four times, rotated. -/
theorem mix_eq (u : Column) : u.mix =
    ⟨mixed u.b0 u.b1 u.b2 u.b3, mixed u.b1 u.b2 u.b3 u.b0, mixed u.b2 u.b3 u.b0 u.b1,
      mixed u.b3 u.b0 u.b1 u.b2⟩ := by
  simp only [mix, mixed, UInt8.xor_assoc, UInt8.xor_comm, xor_left_comm]

/-- Twice multiplied, a byte is added to the fourfold of itself and of the one opposite. -/
theorem mixed_mixed (a b c d : UInt8) :
    mixed (mixed a b c d) (mixed b c d a) (mixed c d a b) (mixed d a b c) =
      double (double a) ^^^ a ^^^ double (double c) := by
  simp only [mixed, double_xor, UInt8.xor_assoc, UInt8.xor_comm, xor_left_comm, xor_xor_cancel]

/-- Twice multiplied, a column's bytes are added to the fourfold ones. -/
theorem mix_mix (u : Column) : u.mix.mix =
    ⟨double (double u.b0) ^^^ u.b0 ^^^ double (double u.b2),
      double (double u.b1) ^^^ u.b1 ^^^ double (double u.b3),
      double (double u.b2) ^^^ u.b2 ^^^ double (double u.b0),
      double (double u.b3) ^^^ u.b3 ^^^ double (double u.b1)⟩ := by
  simp only [mix_eq, mixed_mixed]

/-- Four times multiplied, a column is as before. -/
theorem mix_mix_mix_mix (u : Column) : u.mix.mix.mix.mix = u := by
  rw [mix_mix, mix_mix]
  simp only [double_xor, UInt8.xor_assoc, UInt8.xor_comm, xor_left_comm, xor_xor_cancel, UInt8.xor_self,
    UInt8.xor_zero]

/-- Different columns are multiplied to different ones. -/
theorem mix_injective {u v : Column} (h : u.mix = v.mix) : u = v := by
  rw [← mix_mix_mix_mix u, h, mix_mix_mix_mix]

end Column

/-! ## Blocks -/

/-- No number stands twice in the list, and none is the place of a bit that is set. -/
def areNew : (seen : Nat) → List Nat → Bool
  | _, [] => true
  | seen, n :: rest => !seen.testBit n && areNew (seen ||| 1 <<< n) rest

/-- Numbers that are marked one after the other, each while it is new, are distinct. -/
theorem nodup_of_areNew {numbers : List Nat} {seen : Nat} (h : areNew seen numbers = true) :
    numbers.Nodup ∧ ∀ n ∈ numbers, seen.testBit n = false := by
  induction numbers generalizing seen with
  | nil => simp
  | cons n rest ih =>
    simp only [areNew, Bool.and_eq_true, Bool.not_eq_true'] at h
    obtain ⟨hn, hrest⟩ := h
    obtain ⟨hnodup, hnew⟩ := ih hrest
    -- The bit of what was seen is set from then on.
    have hbits (m : Nat) (hm : m ∈ rest) : seen.testBit m = false ∧ n ≠ m := by
      simpa [Nat.testBit_or, Nat.one_shiftLeft, Nat.testBit_two_pow] using hnew m hm
    refine ⟨List.nodup_cons.2 ⟨fun hmem => (hbits n hmem).2 rfl, hnodup⟩, fun m hm => ?_⟩
    rcases List.mem_cons.1 hm with rfl | hm
    · exact hn
    · exact (hbits m hm).1

/-- No byte stands twice in the table. -/
theorem nodup_substitutionTable : (substitutionTable.toList.map UInt8.toNat).Nodup :=
  (nodup_of_areNew (show areNew 0 _ = true by decide +kernel)).1

/-- Different bytes are replaced by different ones. -/
theorem substitute_injective {a b : UInt8} (h : substitute a = substitute b) : a = b := by
  have hsize : substitutionTable.size = 256 := by decide +kernel
  have hget (c : UInt8) : (substitutionTable.toList.map UInt8.toNat)[c.toNat]? =
      some (substitute c).toNat := by
    have hc : c.toNat < substitutionTable.size := by
      rw [hsize]
      exact c.toNat_lt
    rw [List.getElem?_map, Array.getElem?_toList, substitute, Array.getD_eq_getD_getElem?,
      Array.getElem?_eq_getElem hc]
    rfl
  have hlt : a.toNat < (substitutionTable.toList.map UInt8.toNat).length :=
    (List.getElem?_eq_some_iff.1 (hget a)).1
  refine UInt8.toNat_inj.1 ((List.getElem?_inj hlt nodup_substitutionTable).1 ?_)
  rw [hget, hget, h]

namespace Block

/-- Blocks that differ still differ after a key is added. -/
theorem xor_injective {s t key : Block} (h : s.xor key = t.xor key) : s = t := by
  have hsum (s : Block) : (s.xor key).xor key = s := by simp [xor, Column.xor_xor]
  rw [← hsum s, h, hsum]

/-- Different blocks are replaced and rotated to different ones. -/
theorem substituteAndShift_injective {s t : Block} (h : s.substituteAndShift = t.substituteAndShift) :
    s = t := by
  obtain ⟨⟨_, _, _, _⟩, ⟨_, _, _, _⟩, ⟨_, _, _, _⟩, ⟨_, _, _, _⟩⟩ := s
  obtain ⟨⟨_, _, _, _⟩, ⟨_, _, _, _⟩, ⟨_, _, _, _⟩, ⟨_, _, _, _⟩⟩ := t
  simp only [substituteAndShift, mk.injEq, Column.mk.injEq] at h ⊢
  obtain ⟨⟨h00, h11, h22, h33⟩, ⟨h10, h21, h32, h03⟩, ⟨h20, h31, h02, h13⟩, h30, h01, h12, h23⟩ := h
  exact ⟨⟨substitute_injective h00, substitute_injective h01, substitute_injective h02,
      substitute_injective h03⟩,
    ⟨substitute_injective h10, substitute_injective h11, substitute_injective h12,
      substitute_injective h13⟩,
    ⟨substitute_injective h20, substitute_injective h21, substitute_injective h22,
      substitute_injective h23⟩,
    substitute_injective h30, substitute_injective h31, substitute_injective h32,
    substitute_injective h33⟩

/-- Different blocks are multiplied to different ones. -/
theorem mix_injective {s t : Block} (h : s.mix = t.mix) : s = t := by
  obtain ⟨_, _, _, _⟩ := s
  obtain ⟨_, _, _, _⟩ := t
  simp only [mix, mk.injEq] at h ⊢
  obtain ⟨h0, h1, h2, h3⟩ := h
  exact ⟨Column.mix_injective h0, Column.mix_injective h1, Column.mix_injective h2,
    Column.mix_injective h3⟩

/-- The sixteen bytes tell the block. -/
theorem toBytes_injective {s t : Block} (h : s.toBytes = t.toBytes) : s = t := by
  obtain ⟨⟨_, _, _, _⟩, ⟨_, _, _, _⟩, ⟨_, _, _, _⟩, ⟨_, _, _, _⟩⟩ := s
  obtain ⟨⟨_, _, _, _⟩, ⟨_, _, _, _⟩, ⟨_, _, _, _⟩, ⟨_, _, _, _⟩⟩ := t
  simpa [toBytes, Column.toBytes, and_assoc] using h

/-- Sixteen bytes are those of their block. -/
theorem toBytes_ofBytes : ∀ {bytes : Bytes}, bytes.length = 16 → (ofBytes bytes).toBytes = bytes
  | [_, _, _, _, _, _, _, _, _, _, _, _, _, _, _, _], _ => rfl

end Block

/-! ## Rounds -/

/-- Different blocks come out of any number of rounds as different ones. -/
theorem rounds_injective {constants : List UInt8} {key s t : Block}
    (h : rounds constants key s = rounds constants key t) : s = t := by
  induction constants generalizing key s t with
  | nil => exact h
  | cons constant constants ih =>
    simp only [rounds] at h
    have hmixed := Block.xor_injective (ih h)
    split at hmixed
    · exact Block.substituteAndShift_injective hmixed
    · exact Block.substituteAndShift_injective (Block.mix_injective hmixed)

/-- Different blocks are encrypted differently. -/
theorem encrypt_injective {key s t : Block} (h : encrypt key s = encrypt key t) : s = t :=
  Block.xor_injective (rounds_injective h)

end Keyring.Aes
