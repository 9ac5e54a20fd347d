import Keyring.Json.Skip
import Keyring.Proofs.Json.Layout
import Keyring.Proofs.Json.Tokens

/-!
# Reading strings, however they are spelled

A string is read from between its quotes as the characters that its parts stand for, and refused exactly
if a surrogate stands alone in it (`gives_stringRest`). Each kind of part has its step: a character that
stands for itself, a letter after a backslash, a number, and a pair of numbers. Skipping a string does not
look at surrogates (`skipStringBytes_pieces`).
-/

namespace Keyring.Json

/-- A hexadecimal digit is read as its value. -/
theorem HexDigit.hexValue?_byte (d : HexDigit) : Reader.hexValue? d.byte = some d.value.val := by
  have h : ∀ (value : Fin 16) (isCapital : Bool),
      Reader.hexValue? (HexDigit.mk value isCapital).byte = some value.val := by decide
  exact h d.value d.isCapital

/-- Four hexadecimal digits are read as the value of their code unit. -/
theorem CodeUnit.hexValue4? (u : CodeUnit) :
    Reader.hexValue4? u.d0.byte u.d1.byte u.d2.byte u.d3.byte = some u.value := by
  have h : ((u.d0.value.val * 16 + u.d1.value) * 16 + u.d2.value) * 16 + u.d3.value = u.value := by
    rw [CodeUnit.value]
    omega
  simp only [Reader.hexValue4?, HexDigit.hexValue?_byte, h]

namespace Escape

/-- The letter of an escape is read as its character. -/
theorem shortEscape?_letter (e : Escape) :
    Reader.shortEscape? (UInt8.ofNat e.letter.toNat) = some (UInt8.ofNat e.char.toNat) := by
  cases e <;> rfl

/-- No letter of an escape is the one of code units. -/
theorem letter_ne (e : Escape) : UInt8.ofNat e.letter.toNat ≠ 0x75 := by
  cases e <;> decide

/-- The character of an escape is one byte. -/
theorem encodeChar_char (e : Escape) : Utf8.encodeChar e.char = [UInt8.ofNat e.char.toNat] := by
  cases e <;> rfl

end Escape

/-- A character is written with at least one byte. -/
theorem Reader.encodeChar_ne_nil (c : Char) : Utf8.encodeChar c ≠ [] := by
  rw [Utf8.encodeChar]
  grind

namespace Reader

/-! ## One part of a string -/

/-- A low surrogate, by its number. -/
theorem isLowSurrogate_iff {n : Nat} : isLowSurrogate n = true ↔ 0xdc00 ≤ n ∧ n ≤ 0xdfff := by
  simp [isLowSurrogate]

/-- A high surrogate is none of the low ones. -/
theorem isHighSurrogate_of {n : Nat} (h : 0xd800 ≤ n ∧ n ≤ 0xdbff) :
    isHighSurrogate n = true ∧ isLowSurrogate n = false := by
  simp only [isHighSurrogate, isLowSurrogate, Bool.and_eq_true, Bool.and_eq_false_iff, decide_eq_true_eq,
    decide_eq_false_iff_not]
  omega

section
variable (read rest : Bytes)

/-- A character that may stand for itself is written of plain bytes. -/
theorem isPlain_of_mem_raw {c : Char} (h : IsRaw c) {b : UInt8} (hb : b ∈ Utf8.encodeChar c) :
    IsPlain b :=
  isPlain_of_mem_encodeChar h.1 h.2.1 (Nat.not_lt.2 h.2.2) hb

/-- A character that stands for itself is read. -/
theorem stringBytes_raw {c : Char} (h : IsRaw c) :
    stringBytes read (Utf8.encodeChar c ++ rest) =
      stringBytes ((Utf8.encodeChar c).reverse ++ read) rest :=
  stringBytes_plain (fun _ hb => isPlain_of_mem_raw h hb) read rest

/-- An escape is read as its character. -/
theorem stringBytes_escape (e : Escape) :
    stringBytes read ((Piece.short e).bytes ++ rest) =
      stringBytes ((Utf8.encodeChar e.char).reverse ++ read) rest := by
  rw [e.encodeChar_char]
  exact stringBytes_short e.shortEscape?_letter read rest

/-- A number of sixteen bits is read as the character of that number, or with the number after it, by which
half of a pair of surrogates it is. -/
theorem stringBytes_number (u : CodeUnit) :
    stringBytes read (u.bytes ++ rest) =
      if isLowSurrogate u.value then fail .loneSurrogate rest
      else if !isHighSurrogate u.value then stringBytes (pushChar read u.value) rest
      else
        match rest with
        | [] => fail .endInString []
        | backslash :: rest =>
          if backslash ≠ 0x5c then fail .unpairedSurrogate rest
          else
            match rest with
            | [] => fail .endInString []
            | letter :: rest =>
              if letter ≠ 0x75 then fail .unpairedSurrogate rest
              else
                match rest with
                | e0 :: e1 :: e2 :: e3 :: rest =>
                  match hexValue4? e0 e1 e2 e3 with
                  | none => fail .badEscape rest
                  | some low =>
                    if !isLowSurrogate low then fail .loneSurrogate rest
                    else stringBytes (pushChar read (joinSurrogates u.value low)) rest
                | _ => fail .endInString [] := by
  rw [CodeUnit.bytes, stringBytes.eq_def]
  simp only [shortEscape?, List.cons_append, List.nil_append, u.hexValue4?]
  rfl

/-- A number that is no surrogate is read as the character of that number. -/
theorem stringBytes_unit {u : CodeUnit} (h : u.value < 0xd800 ∨ 0xdfff < u.value) :
    stringBytes read (u.bytes ++ rest) =
      stringBytes ((Utf8.encodeChar (Char.ofNat u.value)).reverse ++ read) rest := by
  have hlow : isLowSurrogate u.value = false := by simp [isLowSurrogate]; omega
  have hhigh : isHighSurrogate u.value = false := by simp [isHighSurrogate]; omega
  rw [stringBytes_number]
  simp [hlow, hhigh, pushChar]

/-- A high surrogate and a low one after it are read as the character that they stand for. -/
theorem stringBytes_pair {u v : CodeUnit} (hu : 0xd800 ≤ u.value ∧ u.value ≤ 0xdbff)
    (hv : 0xdc00 ≤ v.value ∧ v.value ≤ 0xdfff) :
    stringBytes read (u.bytes ++ (v.bytes ++ rest)) =
      stringBytes ((Utf8.encodeChar (u.joined v)).reverse ++ read) rest := by
  have hread : pushChar read (joinSurrogates u.value v.value) =
      (Utf8.encodeChar (u.joined v)).reverse ++ read := rfl
  obtain ⟨hhigh, hlow⟩ := isHighSurrogate_of hu
  have hsecond := isLowSurrogate_iff.2 hv
  rw [stringBytes_number, CodeUnit.bytes]
  simp [v.hexValue4?, hlow, hhigh, hsecond, hread]

/-- A low surrogate that comes first is refused. -/
theorem stringBytes_low {u : CodeUnit} (hu : 0xdc00 ≤ u.value ∧ u.value ≤ 0xdfff) :
    stringBytes read (u.bytes ++ rest) = fail .loneSurrogate rest := by
  have hlow := isLowSurrogate_iff.2 hu
  rw [stringBytes_number]
  simp [hlow]

/-- So is a high surrogate before a number that is no low one. -/
theorem stringBytes_high_unit {u v : CodeUnit} (hu : 0xd800 ≤ u.value ∧ u.value ≤ 0xdbff)
    (hv : ¬ (0xdc00 ≤ v.value ∧ v.value ≤ 0xdfff)) :
    stringBytes read (u.bytes ++ (v.bytes ++ rest)) = fail .loneSurrogate rest := by
  obtain ⟨hhigh, hlow⟩ := isHighSurrogate_of hu
  have hsecond := Bool.eq_false_iff.2 (mt isLowSurrogate_iff.1 hv)
  rw [stringBytes_number, CodeUnit.bytes]
  simp [v.hexValue4?, hlow, hhigh, hsecond]

/-- So is a high surrogate before a byte that starts no escape. -/
theorem stringBytes_high_plain {u : CodeUnit} (hu : 0xd800 ≤ u.value ∧ u.value ≤ 0xdbff) {b : UInt8}
    (hb : b ≠ 0x5c) : stringBytes read (u.bytes ++ b :: rest) = fail .unpairedSurrogate rest := by
  obtain ⟨hhigh, hlow⟩ := isHighSurrogate_of hu
  rw [stringBytes_number]
  simp [hlow, hhigh, hb]

/-- So is a high surrogate before an escape that is no number. -/
theorem stringBytes_high_escape {u : CodeUnit} (hu : 0xd800 ≤ u.value ∧ u.value ≤ 0xdbff) (e : Escape) :
    stringBytes read (u.bytes ++ ((Piece.short e).bytes ++ rest)) = fail .unpairedSurrogate rest := by
  obtain ⟨hhigh, hlow⟩ := isHighSurrogate_of hu
  rw [stringBytes_number, Piece.bytes]
  simp [hlow, hhigh, e.letter_ne]

end

/-! ## Whole strings -/

/-- A surrogate that stands alone is refused, whatever comes after it. -/
theorem gives_stringBytes_surrogate {u : CodeUnit} (hu : 0xd800 ≤ u.value ∧ u.value ≤ 0xdfff)
    (pieces : List Piece) (hpieces : ∀ v more, pieces = .unit v :: more → u.value ≤ 0xdbff →
      ¬ (0xdc00 ≤ v.value ∧ v.value ≤ 0xdfff)) (read rest : Bytes) :
    Gives (stringBytes read (u.bytes ++ (pieceBytes pieces ++ 0x22 :: rest))) none rest := by
  by_cases hhigh : u.value ≤ 0xdbff
  · have hu : 0xd800 ≤ u.value ∧ u.value ≤ 0xdbff := ⟨hu.1, hhigh⟩
    cases pieces with
    | nil =>
      rw [pieceBytes, List.flatMap_nil, List.nil_append, stringBytes_high_plain _ _ hu (by decide)]
      exact gives_error
    | cons piece more =>
      rw [pieceBytes, List.flatMap_cons, List.append_assoc]
      cases piece with
      | raw c h =>
        obtain ⟨b, bytes, hbytes⟩ := List.exists_cons_of_ne_nil (encodeChar_ne_nil c)
        have hplain := isPlain_of_mem_raw h (b := b) (by rw [hbytes]; exact List.mem_cons_self ..)
        rw [Piece.bytes, hbytes, List.cons_append, stringBytes_high_plain _ _ hu hplain.2.2]
        exact gives_error
      | short e =>
        rw [stringBytes_high_escape _ _ hu]
        exact gives_error
      | unit v =>
        rw [Piece.bytes, stringBytes_high_unit _ _ hu (hpieces v more rfl hhigh)]
        exact gives_error
  · rw [stringBytes_low _ _ ⟨by omega, hu.2⟩]
    exact gives_error

/-- The bytes of a string are read from its parts. -/
theorem gives_stringBytes (pieces : List Piece) (read rest : Bytes) :
    Gives (stringBytes read (pieceBytes pieces ++ 0x22 :: rest))
      ((chars? pieces).map fun cs => read.reverse ++ cs.flatMap Utf8.encodeChar) rest := by
  fun_induction chars? pieces generalizing read with
  | case1 =>
    rw [pieceBytes, List.flatMap_nil, List.nil_append, stringBytes.eq_def]
    simp [Gives]
  | case2 c h pieces ih =>
    have hstep := ih ((Utf8.encodeChar c).reverse ++ read)
    rw [pieceBytes, List.flatMap_cons, List.append_assoc, Piece.bytes, stringBytes_raw _ _ h]
    simpa [pieceBytes, Function.comp_def] using hstep
  | case3 e pieces ih =>
    have hstep := ih ((Utf8.encodeChar e.char).reverse ++ read)
    rw [pieceBytes, List.flatMap_cons, List.append_assoc, stringBytes_escape]
    simpa [pieceBytes, Function.comp_def] using hstep
  | case4 u pieces h ih =>
    have hstep := ih ((Utf8.encodeChar (Char.ofNat u.value)).reverse ++ read)
    rw [pieceBytes, List.flatMap_cons, List.append_assoc, Piece.bytes, stringBytes_unit _ _ h]
    simpa [pieceBytes, Function.comp_def] using hstep
  | case5 u h v pieces hpair ih =>
    have hstep := ih ((Utf8.encodeChar (u.joined v)).reverse ++ read)
    rw [pieceBytes, List.flatMap_cons, List.flatMap_cons, List.append_assoc, List.append_assoc,
      Piece.bytes, Piece.bytes, stringBytes_pair _ _ ⟨by omega, hpair.1⟩ hpair.2]
    simpa [pieceBytes, Function.comp_def] using hstep
  | case6 u h v pieces hpair =>
    refine gives_stringBytes_surrogate (by omega) (.unit v :: pieces) ?_ read rest
    rintro w more ⟨⟩ hhigh hw
    exact hpair ⟨hhigh, hw⟩
  | case7 u pieces h hpieces =>
    refine gives_stringBytes_surrogate (by omega) pieces ?_ read rest
    rintro v more rfl
    exact absurd rfl (hpieces v more)

/-- A string is read from between its quotes, its opening quote being read already. -/
theorem gives_stringRest (pieces : List Piece) (rest : Bytes) :
    Gives (stringRest (pieceBytes pieces ++ 0x22 :: rest)) (string? pieces) rest := by
  have h := gives_stringBytes pieces [] rest
  rw [string?]
  cases hchars : chars? pieces with
  | none =>
    rw [hchars] at h
    obtain ⟨problem, left, hread⟩ := h
    simp only [stringRest, hread]
    exact gives_error
  | some cs =>
    rw [hchars] at h
    have hread : stringBytes [] (pieceBytes pieces ++ 0x22 :: rest) =
        .ok (Utf8.encode (String.ofList cs)) rest := by
      rw [Utf8.encode, String.toList_ofList]
      exact h
    simp only [stringRest, hread, Utf8.decode?_encode]
    exact gives_ok

/-! ## Skipping a string -/

/-- Plain bytes are passed over. -/
theorem skipStringBytes_plain {plain : Bytes} (hp : ∀ b ∈ plain, IsPlain b) (rest : Bytes) :
    skipStringBytes (plain ++ rest) = skipStringBytes rest := by
  induction plain with
  | nil => rfl
  | cons b plain ih =>
    have ⟨hquote, hcontrol, hslash⟩ := hp b (List.mem_cons_self ..)
    rw [List.cons_append, skipStringBytes.eq_def]
    simp only [if_neg hquote, if_neg hcontrol, if_pos hslash]
    exact ih fun c hc => hp c (List.mem_cons_of_mem _ hc)

/-- A string is skipped whatever its parts are. -/
theorem skipStringBytes_pieces (pieces : List Piece) (rest : Bytes) :
    skipStringBytes (pieceBytes pieces ++ 0x22 :: rest) = .ok () rest := by
  induction pieces with
  | nil =>
    rw [pieceBytes, List.flatMap_nil, List.nil_append, skipStringBytes.eq_def]
    simp
  | cons piece pieces ih =>
    rw [pieceBytes, List.flatMap_cons, List.append_assoc]
    cases piece with
    | raw c h =>
      rw [Piece.bytes, skipStringBytes_plain fun _ hb => isPlain_of_mem_raw h hb]
      exact ih
    | short e =>
      rw [Piece.bytes, List.cons_append, List.cons_append, skipStringBytes.eq_def]
      simpa [e.shortEscape?_letter, pieceBytes] using ih
    | unit u =>
      rw [Piece.bytes, CodeUnit.bytes, skipStringBytes.eq_def]
      simpa [shortEscape?, u.hexValue4?, pieceBytes] using ih

end Reader

end Keyring.Json
