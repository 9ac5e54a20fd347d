import Mathlib.Data.List.Forall2
import Keyring.Bytes.Hex

/-!
# Hexadecimal text in either case

Each digit of a hexadecimal text may be written in either case: texts that are the same in lowercase are
read as the same bytes (`Hex.decode?_map_toLower`). So what is read as some bytes are the spellings of what is
written for them (`Hex.decode?_eq_some_iff`): the digits that denote the bytes by their places in the alphabet
(`Hex.spells_iff_denotes`), and all digits in pairs denote some bytes.
-/

namespace Keyring.Hex

/-- The text is what is written for the bytes, with each digit in either case. -/
def Spells (text : List Char) (bytes : Bytes) : Prop :=
  text.map Char.toLower = encode bytes

/-- Digits whose letters are capitals. -/
def capitals (bytes : Bytes) : List Char :=
  (encode bytes).map Char.toUpper

/-! ## Digits -/

/-- A digit is a character of one byte, and no slash. -/
theorem toNat_of_digitValue? {c : Char} {n : Nat} (h : digitValue? c = some n) :
    48 ≤ c.toNat ∧ c.toNat < 128 := by
  have hle (a b : Char) : a ≤ b ↔ a.toNat ≤ b.toNat := by
    rw [Char.le_def, UInt32.le_iff_toNat_le]
    rfl
  simp only [digitValue?, hle] at h
  simp only [show '0'.toNat = 48 from rfl, show '9'.toNat = 57 from rfl, show 'a'.toNat = 97 from rfl,
    show 'f'.toNat = 102 from rfl, show 'A'.toNat = 65 from rfl, show 'F'.toNat = 70 from rfl] at h
  split at h
  · omega
  · split at h
    · omega
    · split at h
      · omega
      · cases h

/-- What is read as bytes is digits, two for each byte. -/
theorem of_decode? {text : List Char} {bytes : Bytes} (h : decode? text = some bytes) :
    text.length = 2 * bytes.length ∧ ∀ c ∈ text, ∃ n, digitValue? c = some n := by
  fun_induction decode? text generalizing bytes with
  | case1 => cases h; simp
  | case2 => cases h
  | case3 high low rest _ _ _ hread hlow hhigh ih =>
    cases h
    obtain ⟨hlength, hdigits⟩ := ih hread
    refine ⟨by simp [hlength]; omega, fun c hc => ?_⟩
    rcases List.mem_cons.1 hc with rfl | hc
    · exact ⟨_, hhigh⟩
    · rcases List.mem_cons.1 hc with rfl | hc
      · exact ⟨_, hlow⟩
      · exact hdigits c hc
  | case4 => cases h

/-! ## Spellings -/

/-- A capital has the value of its small letter. -/
private theorem digitValue?_capital : ∀ n ∈ List.range 26,
    digitValue? (Char.ofNat (65 + n)).toLower = digitValue? (Char.ofNat (65 + n)) := by
  decide

/-- The value of a digit is the same in either case, and no letter becomes a digit. -/
theorem digitValue?_toLower (c : Char) : digitValue? c.toLower = digitValue? c := by
  -- Only the twenty-six capitals change, and of these six are digits before and after.
  by_cases h : c.val ≥ 'A'.val ∧ c.val ≤ 'Z'.val
  · have hlow : 65 ≤ c.toNat := h.1
    have hhigh : c.toNat ≤ 90 := h.2
    have hchar : Char.ofNat (65 + (c.toNat - 65)) = c := by
      rw [show 65 + (c.toNat - 65) = c.toNat by omega, Char.ofNat_toNat]
    rw [← hchar]
    exact digitValue?_capital _ (List.mem_range.2 (by omega))
  · have hsame : c.toLower = c := dif_neg h
    rw [hsame]

/-- Texts that differ in case alone are read alike. -/
theorem decode?_map_toLower : ∀ text : List Char, decode? (text.map Char.toLower) = decode? text
  | [] => rfl
  | [_] => rfl
  | high :: low :: rest => by
    have ih := decode?_map_toLower rest
    rw [List.map_cons, List.map_cons, decode?, decode?, digitValue?_toLower, digitValue?_toLower, ih]

/-- Digits that spell bytes are read as them. -/
theorem decode?_of_spells {text : List Char} {bytes : Bytes} (h : Spells text bytes) :
    decode? text = some bytes := by
  rw [← decode?_map_toLower, h, decode?_encode]

/-- A digit is the one of its value, in capitals or not. -/
private theorem toLower_of_value : ∀ m ∈ List.range 128,
    (digitValue? (Char.ofNat m)).all fun n => n < 16 ∧ (Char.ofNat m).toLower = digit n := by
  decide +kernel

/-- The value of a digit tells its lowercase. -/
theorem toLower_of_digitValue? {c : Char} {n : Nat} (h : digitValue? c = some n) :
    n < 16 ∧ c.toLower = digit n := by
  have hc := toLower_of_value c.toNat (List.mem_range.2 (toNat_of_digitValue? h).2)
  rw [Char.ofNat_toNat, h] at hc
  exact of_decide_eq_true hc

/-- Digits are read only as the bytes that they spell. -/
theorem spells_of_decode? {text : List Char} {bytes : Bytes} (h : decode? text = some bytes) :
    Spells text bytes := by
  fun_induction decode? text generalizing bytes with
  | case1 => cases h; rfl
  | case2 => cases h
  | case3 high low rest n m tail hread hlow hhigh ih =>
    cases h
    obtain ⟨hn, hhigh⟩ := toLower_of_digitValue? hhigh
    obtain ⟨hm, hlow⟩ := toLower_of_digitValue? hlow
    have hbyte : (UInt8.ofNat (16 * n + m)).toNat = 16 * n + m := by
      rw [UInt8.toNat_ofNat']
      omega
    rw [Spells, List.map_cons, List.map_cons, ih hread, hhigh, hlow, encode_cons, hbyte,
      show (16 * n + m) / 16 = n by omega, show (16 * n + m) % 16 = m by omega]
  | case4 => cases h

/-- A text is read as the bytes that it spells. -/
theorem decode?_eq_some_iff {text : List Char} {bytes : Bytes} :
    decode? text = some bytes ↔ Spells text bytes :=
  ⟨spells_of_decode?, decode?_of_spells⟩

/-- A text that spells bytes is read as them. -/
theorem ofText?_of_spells {text : String} {bytes : Bytes} (h : Spells text.toList bytes) :
    ofText? text = some bytes :=
  decode?_of_spells h

/-- A digit has no capitals, and is that of its capital. -/
private theorem toLower_digit : ∀ n ∈ List.range 16,
    (digit n).toLower = digit n ∧ (digit n).toUpper.toLower = digit n := by
  decide

/-- What is written are digits of values below sixteen. -/
theorem exists_digit_of_mem_encode {bytes : Bytes} {c : Char} (h : c ∈ encode bytes) :
    ∃ n < 16, c = digit n := by
  rw [encode, List.mem_flatMap] at h
  obtain ⟨b, -, hc⟩ := h
  have hb : b.toNat < 256 := b.toNat_lt_size
  rcases List.mem_cons.1 hc with rfl | hc
  · exact ⟨_, by omega, rfl⟩
  · exact ⟨_, by omega, List.mem_singleton.1 hc⟩

/-- What is written is in lowercase, and is so again after its letters were made capitals. -/
theorem toLower_of_mem_encode {bytes : Bytes} {c : Char} (h : c ∈ encode bytes) :
    c.toLower = c ∧ c.toUpper.toLower = c := by
  obtain ⟨n, hn, rfl⟩ := exists_digit_of_mem_encode h
  exact toLower_digit n (List.mem_range.2 hn)

/-- The digits that are written. -/
def lowercaseDigits : List Char :=
  ['0', '1', '2', '3', '4', '5', '6', '7', '8', '9', 'a', 'b', 'c', 'd', 'e', 'f']

/-- The digits that are written are lowercase ones. -/
private theorem digit_mem_lowercaseDigits : ∀ n ∈ List.range 16, digit n ∈ lowercaseDigits := by
  decide

/-- So bytes are written in lowercase digits. -/
theorem mem_lowercaseDigits_of_mem_encode {bytes : Bytes} {c : Char} (h : c ∈ encode bytes) :
    c ∈ lowercaseDigits := by
  obtain ⟨n, hn, rfl⟩ := exists_digit_of_mem_encode h
  exact digit_mem_lowercaseDigits n (List.mem_range.2 hn)

/-- What is written of bytes spells them. -/
theorem spells_encode (bytes : Bytes) : Spells (encode bytes) bytes := by
  rw [Spells, List.map_congr_left fun c hc => (toLower_of_mem_encode hc).1, List.map_id']

/-- So do the same digits in capitals. -/
theorem spells_capitals (bytes : Bytes) : Spells (capitals bytes) bytes := by
  rw [Spells, capitals, List.map_map]
  exact (List.map_congr_left fun c hc => (toLower_of_mem_encode hc).2).trans (List.map_id' _)

/-- And the text that is written of them. -/
theorem spells_text (bytes : Bytes) : Spells (text bytes).toList bytes := by
  rw [text, String.toList_ofList]
  exact spells_encode bytes

/-! ## The alphabet -/

/-- The character is a digit, in either case. -/
def IsDigit (c : Char) : Prop :=
  c.toLower ∈ lowercaseDigits

instance (c : Char) : Decidable (IsDigit c) :=
  inferInstanceAs (Decidable (_ ∈ _))

/-- The digits denote the bytes, two for each byte: by its place in the alphabet the first one tells how often
sixteen goes into the byte, and the second one what is left. -/
def Denotes : (digits : List Char) → (bytes : Bytes) → Prop
  | [], [] => True
  | high :: low :: digits, b :: bytes =>
    lowercaseDigits[b.toNat / 16]? = some high.toLower ∧
      lowercaseDigits[b.toNat % 16]? = some low.toLower ∧ Denotes digits bytes
  | _, _ => False

/-- A lowercase digit stands in its place among them. -/
private theorem getElem?_lowercaseDigits : ∀ n ∈ List.range 16, lowercaseDigits[n]? = some (digit n) := by
  decide

/-- Digits spell bytes exactly if each pair of them denotes the byte. -/
theorem spells_iff_denotes : ∀ {text : List Char} {bytes : Bytes}, Spells text bytes ↔ Denotes text bytes
  | [], [] => ⟨fun _ => trivial, fun _ => rfl⟩
  | [], _ :: _ => ⟨nofun, nofun⟩
  | [_], [] => ⟨nofun, nofun⟩
  | [_], _ :: _ => ⟨fun h => absurd (List.cons.inj h).2 nofun, nofun⟩
  | _ :: _ :: _, [] => ⟨nofun, nofun⟩
  | high :: low :: text, b :: bytes => by
    have hb : b.toNat < 256 := b.toNat_lt_size
    rw [Denotes, ← spells_iff_denotes, getElem?_lowercaseDigits _ (List.mem_range.2 (by omega)),
      getElem?_lowercaseDigits _ (List.mem_range.2 (by omega)), Spells, Spells, List.map_cons,
      List.map_cons, encode_cons, List.cons.injEq, List.cons.injEq, Option.some.injEq, Option.some.injEq,
      @eq_comm _ (digit _), @eq_comm _ (digit _)]

/-- Two digits stand for each byte. -/
theorem Spells.length_eq {text : List Char} {bytes : Bytes} (h : Spells text bytes) :
    text.length = 2 * bytes.length := by
  rw [← length_encode, ← h, List.length_map]

/-- Only digits spell bytes. -/
theorem Spells.isDigit {text : List Char} {bytes : Bytes} (h : Spells text bytes) {c : Char} (hc : c ∈ text) :
    IsDigit c := by
  have hlower : c.toLower ∈ text.map Char.toLower := List.mem_map_of_mem hc
  rw [h] at hlower
  exact mem_lowercaseDigits_of_mem_encode hlower

/-- Each lowercase digit has a value. -/
private theorem isSome_value : (lowercaseDigits.all fun c => (digitValue? c).isSome) = true := by
  decide

/-- Every digit has a value. -/
theorem IsDigit.exists_value {c : Char} (h : IsDigit c) : ∃ n, digitValue? c = some n := by
  rw [← digitValue?_toLower]
  exact Option.isSome_iff_exists.1 (List.all_eq_true.1 isSome_value _ h)

/-- Digits in pairs spell some bytes. -/
theorem exists_spells {count : Nat} {text : List Char} (hlength : text.length = 2 * count)
    (hdigits : ∀ c ∈ text, IsDigit c) : ∃ bytes, Spells text bytes := by
  induction count generalizing text with
  | zero => exact ⟨[], by rw [List.length_eq_zero_iff.1 hlength]; rfl⟩
  | succ count ih =>
    match text with
    | [] => cases hlength
    | [_] => simp at hlength; omega
    | high :: low :: text =>
      have hrest : text.length = 2 * count := by
        simp only [List.length_cons] at hlength
        omega
      obtain ⟨bytes, hbytes⟩ := ih hrest
        fun c hc => hdigits c (List.mem_cons_of_mem _ (List.mem_cons_of_mem _ hc))
      obtain ⟨h, hhigh⟩ := (hdigits high List.mem_cons_self).exists_value
      obtain ⟨l, hlow⟩ := (hdigits low (List.mem_cons_of_mem _ List.mem_cons_self)).exists_value
      refine ⟨UInt8.ofNat (16 * h + l) :: bytes, spells_of_decode? ?_⟩
      rw [decode?, hhigh, hlow, decode?_of_spells hbytes]

/-- The text is digits in pairs. -/
def IsText (text : List Char) : Prop :=
  text.length % 2 = 0 ∧ ∀ c ∈ text, IsDigit c

-- Looked through character by character of the text, and not over all characters that there are.
instance (text : List Char) : Decidable (IsText text) :=
  @instDecidableAnd _ _ _ (List.decidableBAll IsDigit text)

/-- What is read as some bytes is digits in pairs. -/
theorem exists_decode?_iff {text : List Char} : (∃ bytes, decode? text = some bytes) ↔ IsText text := by
  simp only [decode?_eq_some_iff]
  constructor
  · rintro ⟨bytes, h⟩
    refine ⟨?_, fun c => h.isDigit⟩
    rw [h.length_eq, Nat.mul_mod_right]
  · rintro ⟨heven, hdigits⟩
    have htwice : text.length = 2 * (text.length / 2) := by omega
    exact exists_spells htwice hdigits

/-! ## Case -/

/-- The texts are the same but for the case of digits. -/
def SameButCase (text other : List Char) : Prop :=
  List.Forall₂ (fun c d => c = d ∨ IsDigit c ∧ IsDigit d ∧ c.toLower = d.toLower) text other

/-- Texts that are the same but for case are the same in lowercase. -/
theorem SameButCase.map_toLower {text other : List Char} (h : SameButCase text other) :
    text.map Char.toLower = other.map Char.toLower := by
  induction h with
  | nil => rfl
  | @cons c d text other hcd _ ih =>
    have hsame : c.toLower = d.toLower := by
      rcases hcd with rfl | ⟨-, -, hsame⟩
      · rfl
      · exact hsame
    rw [List.map_cons, List.map_cons, hsame, ih]

/-- A text is the same as itself but for case. -/
theorem SameButCase.refl (text : List Char) : SameButCase text text :=
  List.forall₂_same.2 fun _ _ => .inl rfl

/-- Texts that are the same but for case may be put together. -/
theorem SameButCase.append {text other text' other' : List Char} (h : SameButCase text other)
    (h' : SameButCase text' other') : SameButCase (text ++ text') (other ++ other') :=
  List.rel_append h h'

/-- Texts that spell the same bytes differ in case at most. -/
theorem Spells.sameButCase {text other : List Char} {bytes : Bytes} (h : Spells text bytes)
    (hother : Spells other bytes) : SameButCase text other := by
  have hsame : List.Forall₂ Eq (text.map Char.toLower) (other.map Char.toLower) := by
    rw [List.forall₂_eq_eq_eq]
    exact h.trans hother.symm
  rw [List.forall₂_map_left_iff, List.forall₂_map_right_iff] at hsame
  refine ((List.forall₂_and_left _ _).2 ⟨fun c hc => h.isDigit hc, hsame⟩).imp fun c d hcd => ?_
  obtain ⟨hc, hlower⟩ := hcd
  exact .inr ⟨hc, by rwa [IsDigit, ← hlower], hlower⟩

end Keyring.Hex
