import Keyring.Text.Utf8

/-!
# UTF-8 loses nothing

Cutting the bytes of a text gives its characters back (`decode?_encode`), and the pieces of any byte
string are the bytes that they were cut from (`bytes_pieces`). So the bytes of a text and the text of
bytes correspond exactly (`decode?_eq_some_iff`). Both directions go through the four lengths of a
sequence: what the lead byte tells (`sequenceLength?_eq`) and which second bytes may follow it
(`isSecond_iff`) are stated on numbers first.
-/

namespace Keyring.Utf8

/-- A number below 256 is that of its byte. -/
theorem toNat_ofNat {n : Nat} (h : n < 256) : (UInt8.ofNat n).toNat = n := by
  simp [UInt8.toNat_ofNat', Nat.mod_eq_of_lt h]

/-- A byte is told by its number. -/
theorem ofNat_eq {n : Nat} {b : UInt8} (h : n = b.toNat) : UInt8.ofNat n = b := by
  rw [h, UInt8.ofNat_toNat]

/-- A lead byte tells the length by its number. -/
theorem sequenceLength?_eq (b : UInt8) :
    sequenceLength? b =
      if b.toNat < 0x80 then some 1
      else if 0xc2 ≤ b.toNat ∧ b.toNat ≤ 0xdf then some 2
      else if 0xe0 ≤ b.toNat ∧ b.toNat ≤ 0xef then some 3
      else if 0xf0 ≤ b.toNat ∧ b.toNat ≤ 0xf4 then some 4
      else none := by
  simp [sequenceLength?, UInt8.lt_iff_toNat_lt, UInt8.le_iff_toNat_le]

/-- A continuation is one of the 64 bytes behind the ASCII ones. -/
theorem isContinuation_iff {b : UInt8} :
    isContinuation b = true ↔ 0x80 ≤ b.toNat ∧ b.toNat ≤ 0xbf := by
  simp [isContinuation, UInt8.le_iff_toNat_le]

/-- The second byte continues any sequence, but four lead bytes leave less room. -/
theorem isSecond_iff {first second : UInt8} :
    isSecond first second = true ↔
      0x80 ≤ second.toNat ∧ second.toNat ≤ 0xbf ∧ (first.toNat = 0xe0 → 0xa0 ≤ second.toNat) ∧
      (first.toNat = 0xf0 → 0x90 ≤ second.toNat) ∧ (first.toNat = 0xed → second.toNat ≤ 0x9f) ∧
      (first.toNat = 0xf4 → second.toNat ≤ 0x8f) := by
  have h (k : UInt8) : first = k ↔ first.toNat = k.toNat := UInt8.toNat_inj.symm
  simp only [isSecond, UInt8.le_iff_toNat_le, Bool.and_eq_true, decide_eq_true_eq, h,
    apply_ite UInt8.toNat, UInt8.reduceToNat]
  grind

/-! ## One sequence at the front -/

section
variable {read : List Piece} {b0 b1 b2 b3 : UInt8} {rest : Bytes}

/-- A byte of its own is read as one character. -/
theorem piecesOnto_one (hl : sequenceLength? b0 = some 1) :
    piecesOnto read (b0 :: rest) = piecesOnto (.char (join b0 128 []) :: read) rest := by
  rw [piecesOnto]
  simp only [hl]

/-- Two bytes that belong together are read as one character. -/
theorem piecesOnto_two (hl : sequenceLength? b0 = some 2) (hs : isSecond b0 b1 = true) :
    piecesOnto read (b0 :: b1 :: rest) = piecesOnto (.char (join b0 32 [b1]) :: read) rest := by
  rw [piecesOnto]
  simp [hl, hs]

/-- Three bytes that belong together are read as one character. -/
theorem piecesOnto_three (hl : sequenceLength? b0 = some 3) (hs : isSecond b0 b1 = true)
    (h2 : isContinuation b2 = true) :
    piecesOnto read (b0 :: b1 :: b2 :: rest) =
      piecesOnto (.char (join b0 16 [b1, b2]) :: read) rest := by
  rw [piecesOnto]
  simp [hl, hs, h2]

/-- Four bytes that belong together are read as one character. -/
theorem piecesOnto_four (hl : sequenceLength? b0 = some 4) (hs : isSecond b0 b1 = true)
    (h2 : isContinuation b2 = true) (h3 : isContinuation b3 = true) :
    piecesOnto read (b0 :: b1 :: b2 :: b3 :: rest) =
      piecesOnto (.char (join b0 8 [b1, b2, b3]) :: read) rest := by
  rw [piecesOnto]
  simp [hl, hs, h2, h3]

end

/-! ## Cutting what was written -/

/-- The bytes of a character are cut off as that character. -/
theorem piecesOnto_encodeChar (read : List Piece) (c : Char) (rest : Bytes) :
    piecesOnto read (encodeChar c ++ rest) = piecesOnto (.char c :: read) rest := by
  have hn : c.toNat < 0xd800 ∨ 0xdfff < c.toNat ∧ c.toNat < 0x110000 := c.valid
  have hc : Char.ofNat c.toNat = c := Char.ofNat_toNat c
  simp only [encodeChar]
  generalize c.toNat = n at hn hc
  subst hc
  split
  · next h =>
    have h0 := toNat_ofNat (n := n) (by omega)
    rw [List.singleton_append, piecesOnto_one (by rw [sequenceLength?_eq, h0, if_pos h])]
    simp only [join, List.foldl_nil, h0]
    rw [Nat.mod_eq_of_lt h]
  split
  · have h0 := toNat_ofNat (n := 0xc0 + n / 64) (by omega)
    have h1 := toNat_ofNat (n := 0x80 + n % 64) (by omega)
    rw [List.cons_append, List.singleton_append, piecesOnto_two]
    · simp only [join, List.foldl_cons, List.foldl_nil, h0, h1]
      congr 4
      omega
    · rw [sequenceLength?_eq, h0, if_neg (by omega), if_pos (by omega)]
    · rw [isSecond_iff, h0, h1]
      omega
  split
  · have h0 := toNat_ofNat (n := 0xe0 + n / 4096) (by omega)
    have h1 := toNat_ofNat (n := 0x80 + n / 64 % 64) (by omega)
    have h2 := toNat_ofNat (n := 0x80 + n % 64) (by omega)
    rw [List.cons_append, List.cons_append, List.singleton_append, piecesOnto_three]
    · simp only [join, List.foldl_cons, List.foldl_nil, h0, h1, h2]
      congr 4
      omega
    · rw [sequenceLength?_eq, h0, if_neg (by omega), if_neg (by omega), if_pos (by omega)]
    · rw [isSecond_iff, h0, h1]
      omega
    · rw [isContinuation_iff, h2]
      omega
  · have h0 := toNat_ofNat (n := 0xf0 + n / 262144) (by omega)
    have h1 := toNat_ofNat (n := 0x80 + n / 4096 % 64) (by omega)
    have h2 := toNat_ofNat (n := 0x80 + n / 64 % 64) (by omega)
    have h3 := toNat_ofNat (n := 0x80 + n % 64) (by omega)
    rw [List.cons_append, List.cons_append, List.cons_append, List.singleton_append, piecesOnto_four]
    · simp only [join, List.foldl_cons, List.foldl_nil, h0, h1, h2, h3]
      congr 4
      omega
    · rw [sequenceLength?_eq, h0, if_neg (by omega), if_neg (by omega), if_neg (by omega),
        if_pos (by omega)]
    · rw [isSecond_iff, h0, h1]
      omega
    · rw [isContinuation_iff, h2]
      omega
    · rw [isContinuation_iff, h3]
      omega

/-- The pieces of a text's bytes are its characters. -/
theorem pieces_encode (s : String) : pieces (encode s) = s.toList.map Piece.char := by
  have h (read : List Piece) (cs : List Char) :
      piecesOnto read (cs.flatMap encodeChar) = (cs.map Piece.char).reverse ++ read := by
    induction cs generalizing read with
    | nil => rfl
    | cons c cs ih =>
      rw [List.flatMap_cons, piecesOnto_encodeChar, ih]
      simp
  rw [pieces, encode, h]
  simp

/-- Reading the bytes of a text gives the text back. -/
theorem decode?_encode (s : String) : decode? (encode s) = some s := by
  have h (cs : List Char) : (cs.map Piece.char).mapM Piece.char? = some cs := by
    induction cs with
    | nil => rfl
    | cons c cs ih => simp [List.mapM_cons, Piece.char?, ih]
  rw [decode?, pieces_encode, h]
  simp [String.ofList_toList]

/-! ## Writing what was cut -/

/-- The bytes that a piece was cut from. -/
def Piece.bytes : Piece → Bytes
  | .char c => encodeChar c
  | .stray bytes => bytes

/-- A number that is no surrogate and not too large is that of its character. -/
theorem toNat_charOfNat {n : Nat} (h : n < 0xd800 ∨ 0xdfff < n ∧ n < 0x110000) :
    (Char.ofNat n).toNat = n := by
  rw [Char.ofNat, dif_pos h]
  rfl

/-- The bits of a sequence are the number of its character, if they are one. -/
theorem toNat_join (lead : UInt8) (mask : Nat) (rest : List UInt8) {n : Nat}
    (hn : rest.foldl (fun n b => 64 * n + b.toNat % 64) (lead.toNat % mask) = n)
    (hv : n < 0xd800 ∨ 0xdfff < n ∧ n < 0x110000) : (join lead mask rest).toNat = n := by
  rw [join, hn]
  exact toNat_charOfNat hv

section
variable {b0 b1 b2 b3 : UInt8}

/-- A character of one byte is written as that byte. -/
theorem encodeChar_join_one (hl : sequenceLength? b0 = some 1) :
    encodeChar (join b0 128 []) = [b0] := by
  rw [sequenceLength?_eq] at hl
  have hb : b0.toNat < 0x80 := by grind
  have hn : (join b0 128 []).toNat = b0.toNat := toNat_join _ _ _ (Nat.mod_eq_of_lt hb) (by omega)
  simp only [encodeChar, hn]
  rw [if_pos hb, UInt8.ofNat_toNat]

/-- A character of two bytes is written as those. -/
theorem encodeChar_join_two (hl : sequenceLength? b0 = some 2) (hs : isSecond b0 b1 = true) :
    encodeChar (join b0 32 [b1]) = [b0, b1] := by
  rw [sequenceLength?_eq] at hl
  have hb : 0xc2 ≤ b0.toNat ∧ b0.toNat ≤ 0xdf := by grind
  rw [isSecond_iff] at hs
  have hn := toNat_join b0 32 [b1] rfl (by simp; omega)
  simp only [List.foldl_cons, List.foldl_nil] at hn
  simp only [encodeChar, hn]
  rw [if_neg (by omega), if_pos (by omega), ofNat_eq (b := b0) (by omega),
    ofNat_eq (b := b1) (by omega)]

/-- A character of three bytes is written as those. -/
theorem encodeChar_join_three (hl : sequenceLength? b0 = some 3) (hs : isSecond b0 b1 = true)
    (h2 : isContinuation b2 = true) : encodeChar (join b0 16 [b1, b2]) = [b0, b1, b2] := by
  rw [sequenceLength?_eq] at hl
  have hb : 0xe0 ≤ b0.toNat ∧ b0.toNat ≤ 0xef := by grind
  rw [isSecond_iff] at hs
  rw [isContinuation_iff] at h2
  have hn := toNat_join b0 16 [b1, b2] rfl (by simp; omega)
  simp only [List.foldl_cons, List.foldl_nil] at hn
  simp only [encodeChar, hn]
  rw [if_neg (by omega), if_neg (by omega), if_pos (by omega), ofNat_eq (b := b0) (by omega),
    ofNat_eq (b := b1) (by omega), ofNat_eq (b := b2) (by omega)]

/-- A character of four bytes is written as those. -/
theorem encodeChar_join_four (hl : sequenceLength? b0 = some 4) (hs : isSecond b0 b1 = true)
    (h2 : isContinuation b2 = true) (h3 : isContinuation b3 = true) :
    encodeChar (join b0 8 [b1, b2, b3]) = [b0, b1, b2, b3] := by
  rw [sequenceLength?_eq] at hl
  have hb : 0xf0 ≤ b0.toNat ∧ b0.toNat ≤ 0xf4 := by grind
  rw [isSecond_iff] at hs
  rw [isContinuation_iff] at h2 h3
  have hn := toNat_join b0 8 [b1, b2, b3] rfl (by simp; omega)
  simp only [List.foldl_cons, List.foldl_nil] at hn
  simp only [encodeChar, hn]
  rw [if_neg (by omega), if_neg (by omega), if_neg (by omega), ofNat_eq (b := b0) (by omega),
    ofNat_eq (b := b1) (by omega), ofNat_eq (b := b2) (by omega), ofNat_eq (b := b3) (by omega)]

end

/-- There are four lengths. -/
theorem sequenceLength?_eq_four {b : UInt8} {length : Nat} (h : sequenceLength? b = some length)
    (hone : length = 1 → False) (htwo : ¬ length = 2) (hthree : ¬ length = 3) : length = 4 := by
  rw [sequenceLength?_eq] at h
  grind

/-- The pieces hold the bytes that they were cut from. A sequence that is cut short or broken off is a
stray piece, which holds its bytes as they are; the characters are written back by their lengths. -/
theorem bytes_piecesOnto (read : List Piece) (bytes : Bytes) :
    (piecesOnto read bytes).reverse.flatMap Piece.bytes =
      read.reverse.flatMap Piece.bytes ++ bytes := by
  fun_induction piecesOnto read bytes with
  | case1 => simp
  | case2 _ _ _ _ ih => simp [ih, Piece.bytes]
  | case3 _ _ _ hl ih => simp [ih, Piece.bytes, encodeChar_join_one hl]
  | case4 => simp [Piece.bytes]
  | case5 _ _ _ _ _ _ _ _ ih => simp [ih, Piece.bytes]
  | case6 _ b0 b1 r1 hs _ hl ih =>
    simp only [Bool.not_eq_true, Bool.not_eq_false'] at hs
    simp [ih, Piece.bytes, encodeChar_join_two hl hs]
  | case7 => simp [Piece.bytes]
  | case8 _ _ _ _ _ _ _ _ _ _ _ ih => simp [ih, Piece.bytes]
  | case9 _ b0 b1 hs b2 r2 h2 _ hl _ ih =>
    simp only [Bool.not_eq_true, Bool.not_eq_false'] at hs h2
    simp [ih, Piece.bytes, encodeChar_join_three hl hs h2]
  | case10 => simp [Piece.bytes]
  | case11 _ _ _ _ _ _ _ _ _ _ _ _ _ _ ih => simp [ih, Piece.bytes]
  | case12 _ b0 length hlen hl b1 hs htwo b2 h2 hthree b3 r3 h3 ih =>
    simp only [Bool.not_eq_true, Bool.not_eq_false'] at hs h2 h3
    cases sequenceLength?_eq_four hl hlen htwo hthree
    simp [ih, Piece.bytes, encodeChar_join_four hl hs h2 h3]

/-- Nothing is lost in cutting. -/
theorem bytes_pieces (bytes : Bytes) : (pieces bytes).flatMap Piece.bytes = bytes := by
  rw [pieces, bytes_piecesOnto]
  rfl

/-- Bytes are a text exactly if they are that text's bytes. -/
theorem decode?_eq_some_iff {bytes : Bytes} {s : String} :
    decode? bytes = some s ↔ bytes = encode s := by
  constructor
  · intro h
    have hall (ps : List Piece) (cs : List Char) (hcs : ps.mapM Piece.char? = some cs) :
        ps = cs.map Piece.char := by
      induction ps generalizing cs with
      | nil => cases hcs; rfl
      | cons p ps ih =>
        cases p with
        | stray => simp [List.mapM_cons, Piece.char?] at hcs
        | char c =>
          simp only [List.mapM_cons, Piece.char?, Option.pure_def, Option.bind_eq_bind,
            Option.bind_some, Option.bind_eq_some_iff, Option.some.injEq] at hcs
          obtain ⟨cs', hcs', rfl⟩ := hcs
          rw [ih cs' hcs', List.map_cons]
    rw [decode?] at h
    obtain ⟨cs, hcs, rfl⟩ := Option.map_eq_some_iff.1 h
    have hbytes := bytes_pieces bytes
    rw [hall _ _ hcs, List.flatMap_map] at hbytes
    rw [encode, String.toList_ofList, ← hbytes]
    rfl
  · rintro rfl
    exact decode?_encode s

end Keyring.Utf8
