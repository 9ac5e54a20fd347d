import Keyring.Curve.Signature

/-!
# Signatures and what is written of them

Three conventions tell the parity by the last byte: the bare parity, 27 and the parity, and 35, twice a
chain and the parity (`Signature.Conveys`). Reading takes all of them (`Signature.ofBytes_eq_ok_iff`), and
writing uses the second alone. So what is written is read back, and what is read and written again keeps its
numbers and its parity and settles on the second convention (`Signature.bytes_correspond`).
-/

namespace Keyring.Signature

/-! ## The last byte -/

/-- The byte stands for the parity by one of the three conventions. -/
def Conveys (v : UInt8) (oddY : Bool) : Prop :=
  v.toNat = oddY.toNat ∨ v.toNat = 27 + oddY.toNat ∨ ∃ chain, v.toNat = 35 + 2 * chain + oddY.toNat

/-- From 35 on the parity is the opposite of the byte's own. -/
theorem conveys_of_le {v : UInt8} (h : 35 ≤ v.toNat) (oddY : Bool) :
    Conveys v oddY ↔ (v.toNat - 35) % 2 = oddY.toNat := by
  have hparity : oddY.toNat ≤ 1 := Bool.toNat_le oddY
  unfold Conveys
  constructor
  · rintro (hbare | hplain | ⟨chain, hchain⟩) <;> omega
  · intro hrest
    exact .inr (.inr ⟨(v.toNat - 35) / 2, by omega⟩)

/-- Below that, two bytes stand for each parity. -/
theorem conveys_of_lt {v : UInt8} (h : v.toNat < 35) (oddY : Bool) :
    Conveys v oddY ↔ v.toNat = oddY.toNat ∨ v.toNat = 27 + oddY.toNat := by
  unfold Conveys
  constructor
  · rintro (hbare | hplain | ⟨chain, hchain⟩)
    · exact .inl hbare
    · exact .inr hplain
    · omega
  · rintro (hbare | hplain)
    · exact .inl hbare
    · exact .inr (.inl hplain)

/-- The bytes that are read as even and as odd below 35, and the parity of those from 35 on. -/
theorem parity?_eq (v : UInt8) : parity? v =
    if v.toNat = 0 ∨ v.toNat = 27 then some false
    else if v.toNat = 1 ∨ v.toNat = 28 then some true
    else if 35 ≤ v.toNat then some ((v.toNat - 35) % 2 = 1)
    else none := by
  have hodd (h : 35 ≤ v) : (v - 35) % 2 = 1 ↔ (v.toNat - 35) % 2 = 1 := by
    rw [← UInt8.toNat_inj, UInt8.toNat_mod, UInt8.toNat_sub_of_le _ _ h]
    rfl
  have hbyte (n : UInt8) : v.toNat = n.toNat ↔ v = n := UInt8.toNat_inj
  have hle : (35 : UInt8).toNat ≤ v.toNat ↔ 35 ≤ v := UInt8.le_iff_toNat_le.symm
  unfold parity?
  rw [show (35 : UInt8).toNat = 35 from rfl] at hle
  simp only [← hbyte, hle, UInt8.reduceToNat]
  by_cases h : 35 ≤ v
  · simp only [h, if_true, hodd h]
  · simp only [h, if_false]

/-- The parity that is read is the one that the byte stands for. -/
theorem parity?_eq_some_iff {v : UInt8} {oddY : Bool} : parity? v = some oddY ↔ Conveys v oddY := by
  rw [parity?_eq]
  by_cases h : 35 ≤ v.toNat
  · rw [conveys_of_le h, if_neg (by omega), if_neg (by omega), if_pos h, Option.some.injEq]
    cases oddY <;> simp
  · rw [conveys_of_lt (Nat.lt_of_not_le h), if_neg h]
    cases oddY <;> simp only [Bool.toNat_false, Bool.toNat_true] <;> split <;> grind

/-- The bytes that stand for a parity. -/
theorem exists_conveys_iff {v : UInt8} :
    (∃ oddY, Conveys v oddY) ↔ v = 0 ∨ v = 1 ∨ v = 27 ∨ v = 28 ∨ 35 ≤ v := by
  simp only [← UInt8.toNat_inj, UInt8.le_iff_toNat_le, UInt8.reduceToNat]
  by_cases h : 35 ≤ v.toNat
  · simp only [conveys_of_le h, Bool.exists_bool, Bool.toNat_false, Bool.toNat_true]
    omega
  · simp only [conveys_of_lt (Nat.lt_of_not_le h), Bool.exists_bool, Bool.toNat_false, Bool.toNat_true]
    omega

/-- The last byte that is written for a parity. -/
def lastByte (oddY : Bool) : UInt8 :=
  if oddY then 28 else 27

/-- The byte that is written for a parity stands for it. -/
theorem conveys_lastByte (oddY : Bool) : Conveys (lastByte oddY) oddY := by
  cases oddY <;> exact .inr (.inl rfl)

/-! ## The two numbers -/

@[simp] theorem length_word (n : BitVec 256) : (word n).length = 32 :=
  BigEndian.length_encode 32 n.toNat

/-- A number is read back from its 32 bytes. -/
theorem ofNat_decode_word (n : BitVec 256) : BitVec.ofNat 256 (BigEndian.decode (word n)) = n := by
  have hlt : n.toNat < 256 ^ 32 := n.isLt
  rw [word, BigEndian.decode_encode_of_lt hlt, BitVec.ofNat_toNat, BitVec.setWidth_eq]

/-- Thirty-two bytes are those of a number. -/
theorem exists_word {bytes : Bytes} (h : bytes.length = 32) : ∃ n, bytes = word n := by
  have hlt : BigEndian.decode bytes < 2 ^ 256 := by
    have hdecode := BigEndian.decode_lt bytes
    rw [h] at hdecode
    exact hdecode
  refine ⟨BitVec.ofNat 256 (BigEndian.decode bytes), ?_⟩
  rw [word, BitVec.toNat_ofNat, Nat.mod_eq_of_lt hlt, ← h, BigEndian.encode_decode]

/-! ## Reading -/

/-- A signature is written as its two numbers and the byte of its parity. -/
theorem toBytes_eq (sig : Signature) : sig.toBytes = word sig.r ++ word sig.s ++ [lastByte sig.oddY] :=
  rfl

/-- Sixty-five bytes are two numbers and a last byte. -/
theorem exists_words {bytes : Bytes} (h : bytes.length = 65) :
    ∃ r s v, bytes = word r ++ word s ++ [v] := by
  have hfirst : (bytes.take 32).length = 32 := by rw [List.length_take, h]; rfl
  have hsecond : ((bytes.drop 32).take 32).length = 32 := by
    rw [List.length_take, List.length_drop, h]; rfl
  have hlast : ((bytes.drop 32).drop 32).length = 1 := by rw [List.length_drop, List.length_drop, h]
  obtain ⟨v, hv⟩ := List.length_eq_one_iff.1 hlast
  obtain ⟨r, hr⟩ := exists_word hfirst
  obtain ⟨s, hs⟩ := exists_word hsecond
  refine ⟨r, s, v, ?_⟩
  rw [← hr, ← hs, ← hv, List.append_assoc, List.take_append_drop, List.take_append_drop]

/-- Two numbers are read whatever they are, and so is a last byte that stands for a parity. -/
theorem ofBytes_append (r s : BitVec 256) (v : UInt8) :
    ofBytes (word r ++ word s ++ [v]) =
      match parity? v with
      | some oddY => .ok ⟨r, s, oddY⟩
      | none => .error (.lastByte v) := by
  have hlength : (word r ++ word s ++ [v]).length = 65 := by simp
  have hlast : (word r ++ word s ++ [v]).getLastD 0 = v := by simp
  have hr : (word r ++ word s ++ [v]).take 32 = word r := by
    rw [List.append_assoc, List.take_left' (length_word r)]
  have hs : ((word r ++ word s ++ [v]).drop 32).take 32 = word s := by
    rw [List.append_assoc, List.drop_left' (length_word r), List.take_left' (length_word s)]
  unfold ofBytes
  rw [if_pos hlength]
  cases hparity : parity? v <;> simp only [hlast, hr, hs, ofNat_decode_word, hparity]

/-- A signature is read exactly from its two numbers and a byte that stands for its parity. -/
theorem ofBytes_eq_ok_iff {bytes : Bytes} {sig : Signature} :
    ofBytes bytes = .ok sig ↔ ∃ v, bytes = word sig.r ++ word sig.s ++ [v] ∧ Conveys v sig.oddY := by
  constructor
  · intro h
    by_cases hlength : bytes.length = 65
    · obtain ⟨r, s, v, hbytes⟩ := exists_words hlength
      rw [hbytes, ofBytes_append] at h
      cases hparity : parity? v with
      | none => rw [hparity] at h; cases h
      | some oddY =>
        rw [hparity] at h
        cases h
        exact ⟨v, hbytes, parity?_eq_some_iff.1 hparity⟩
    · rw [ofBytes, if_neg hlength] at h
      cases h
  · rintro ⟨v, hbytes, hv⟩
    rw [hbytes, ofBytes_append, parity?_eq_some_iff.2 hv]

/-- What is written of a signature is read back as it. -/
theorem ofBytes_toBytes (sig : Signature) : ofBytes sig.toBytes = .ok sig := by
  rw [toBytes_eq, ofBytes_append, parity?_eq_some_iff.2 (conveys_lastByte sig.oddY)]

/-! ## Parts of bytes -/

/-- Both numbers stand in the first sixty-four bytes and the parity in the last one. -/
theorem append_parts (r s : BitVec 256) (v : UInt8) :
    (word r ++ word s ++ [v]).length = 65 ∧ (word r ++ word s ++ [v]).take 64 = word r ++ word s ∧
      (word r ++ word s ++ [v]).getLast? = some v := by
  have hlength : (word r ++ word s).length = 64 := by rw [List.length_append, length_word, length_word]
  refine ⟨?_, List.take_left' hlength, List.getLast?_concat⟩
  rw [List.length_append, hlength, List.length_singleton]

/-- A signature is read exactly from sixty-five bytes that have its numbers in front and end with a byte that
stands for its parity. -/
theorem ofBytes_eq_ok_iff_parts {bytes : Bytes} {sig : Signature} :
    ofBytes bytes = .ok sig ↔ bytes.length = 65 ∧ bytes.take 64 = sig.toBytes.take 64 ∧
      ∃ v, bytes.getLast? = some v ∧ Conveys v sig.oddY := by
  obtain ⟨-, hnumbers, -⟩ := append_parts sig.r sig.s (lastByte sig.oddY)
  rw [ofBytes_eq_ok_iff, toBytes_eq, hnumbers]
  constructor
  · rintro ⟨v, hbytes, hv⟩
    obtain ⟨hlength, htake, hlast⟩ := append_parts sig.r sig.s v
    rw [← hbytes] at hlength htake hlast
    exact ⟨hlength, htake, v, hlast, hv⟩
  · rintro ⟨hlength, htake, v, hlast, hv⟩
    obtain ⟨r, s, v', hbytes⟩ := exists_words hlength
    obtain ⟨-, htake', hlast'⟩ := append_parts r s v'
    rw [← hbytes] at htake' hlast'
    rw [hlast', Option.some.injEq] at hlast
    rw [htake] at htake'
    exact ⟨v, by rw [hbytes, ← htake', hlast], hv⟩

/-- Sixty-five bytes are read if the last one stands for some parity. -/
theorem exists_ofBytes_eq_ok_iff {bytes : Bytes} :
    (∃ sig, ofBytes bytes = .ok sig) ↔
      bytes.length = 65 ∧ ∃ v, bytes.getLast? = some v ∧ ∃ oddY, Conveys v oddY := by
  constructor
  · rintro ⟨sig, hread⟩
    obtain ⟨hlength, -, v, hlast, hv⟩ := ofBytes_eq_ok_iff_parts.1 hread
    exact ⟨hlength, v, hlast, sig.oddY, hv⟩
  · rintro ⟨hlength, v, hlast, oddY, hv⟩
    obtain ⟨r, s, v', hbytes⟩ := exists_words hlength
    obtain ⟨-, -, hlast'⟩ := append_parts r s v'
    rw [← hbytes, hlast, Option.some.injEq] at hlast'
    exact ⟨⟨r, s, oddY⟩, ofBytes_eq_ok_iff.2 ⟨v, by rw [hbytes, hlast'], hv⟩⟩

/-! ## Writing what was read -/

/-- What is written of the signature that is read. -/
def rewritten (bytes : Bytes) : Except Error Bytes :=
  (ofBytes bytes).map toBytes

/-- What is written of a signature is written again as it is. -/
theorem rewritten_toBytes (sig : Signature) : rewritten sig.toBytes = .ok sig.toBytes := by
  rw [rewritten, ofBytes_toBytes]
  rfl

/-- Bytes are written as they were read exactly if they are what is written of a signature. -/
theorem rewritten_eq_self_iff {bytes : Bytes} :
    rewritten bytes = .ok bytes ↔ ∃ sig : Signature, bytes = sig.toBytes := by
  constructor
  · intro h
    unfold rewritten at h
    cases hread : ofBytes bytes with
    | error e => rw [hread] at h; cases h
    | ok sig =>
      rw [hread] at h
      injection h with h
      exact ⟨sig, h.symm⟩
  · rintro ⟨sig, hbytes⟩
    rw [hbytes, rewritten_toBytes]

/-- What is written of signatures are the strings of sixty-five bytes that end with 27 or 28. -/
theorem exists_eq_toBytes_iff {bytes : Bytes} : (∃ sig : Signature, bytes = sig.toBytes) ↔
    bytes.length = 65 ∧ (bytes.getLast? = some 27 ∨ bytes.getLast? = some 28) := by
  constructor
  · rintro ⟨sig, hbytes⟩
    obtain ⟨hlength, -, hlast⟩ := append_parts sig.r sig.s (lastByte sig.oddY)
    rw [← toBytes_eq, ← hbytes] at hlength hlast
    refine ⟨hlength, ?_⟩
    rw [hlast]
    cases sig.oddY
    · exact .inl rfl
    · exact .inr rfl
  · rintro ⟨hlength, hlast⟩
    obtain ⟨r, s, v, hbytes⟩ := exists_words hlength
    obtain ⟨-, -, hlast'⟩ := append_parts r s v
    rw [← hbytes] at hlast'
    rw [hlast', Option.some.injEq, Option.some.injEq] at hlast
    rcases hlast with rfl | rfl
    · exact ⟨⟨r, s, false⟩, hbytes⟩
    · exact ⟨⟨r, s, true⟩, hbytes⟩

/-- Writing a second time changes nothing. -/
theorem rewritten_bind_rewritten (bytes : Bytes) :
    (rewritten bytes).bind rewritten = rewritten bytes := by
  cases hread : ofBytes bytes with
  | error e =>
    have hnone : rewritten bytes = .error e := by rw [rewritten, hread]; rfl
    rw [hnone, Except.bind]
  | ok sig =>
    have hwritten : rewritten bytes = .ok sig.toBytes := by rw [rewritten, hread]; rfl
    rw [hwritten, Except.bind, rewritten_toBytes]

/-- A signature is read back from what is written of it, which has sixty-five bytes and ends with 27 or 28.
Bytes are read exactly if there are sixty-five and the last one is 0, 1, 27, 28 or at least 35. The signature
that is read is the one whose numbers stand in the first sixty-four bytes and whose parity the last byte
stands for; so writing it keeps these bytes and may change the last one. Reading and writing undo each other
exactly on the strings that end with 27 or 28, and writing what was read a second time changes nothing. -/
theorem bytes_correspond (sig : Signature) (bytes : Bytes) :
    ofBytes sig.toBytes = .ok sig ∧
    (sig.toBytes.length = 65 ∧ sig.toBytes.getLast? = some (if sig.oddY then 28 else 27)) ∧
    ((∃ found, ofBytes bytes = .ok found) ↔ bytes.length = 65 ∧
      ∃ v, bytes.getLast? = some v ∧ (v = 0 ∨ v = 1 ∨ v = 27 ∨ v = 28 ∨ 35 ≤ v)) ∧
    (ofBytes bytes = .ok sig ↔ bytes.length = 65 ∧ bytes.take 64 = sig.toBytes.take 64 ∧
      ∃ v, bytes.getLast? = some v ∧ Conveys v sig.oddY) ∧
    (rewritten bytes = .ok bytes ↔
      bytes.length = 65 ∧ (bytes.getLast? = some 27 ∨ bytes.getLast? = some 28)) ∧
    (rewritten bytes).bind rewritten = rewritten bytes := by
  obtain ⟨hlength, -, hlast⟩ := append_parts sig.r sig.s (lastByte sig.oddY)
  rw [← toBytes_eq] at hlength hlast
  refine ⟨ofBytes_toBytes sig, ⟨hlength, hlast⟩, ?_, ofBytes_eq_ok_iff_parts,
    rewritten_eq_self_iff.trans exists_eq_toBytes_iff, rewritten_bind_rewritten bytes⟩
  rw [exists_ofBytes_eq_ok_iff]
  simp only [exists_conveys_iff]

end Keyring.Signature
