import Keyring.Proofs.Json.Layout

/-!
# What is printed is a text of the grammar

The bytes of a value in the wide form have a tree that shows the value (`Prints`): strings are spelled
character by character (`Piece.ofChar`), natural numbers are in plain decimal, and the members of an
object stand in their order, each on its line (`Members.wide`).
-/

namespace Keyring.Json

/-! ## Strings -/

/-- A number below 256 as four digits. -/
def CodeUnit.ofNat (n : Nat) : CodeUnit :=
  ⟨⟨0, false⟩, ⟨0, false⟩, ⟨Fin.ofNat 16 (n / 16), false⟩, ⟨Fin.ofNat 16 (n % 16), false⟩⟩

/-- The escapes that are printed: all but that of the slash. -/
def Escape.printed : List Escape :=
  [quote, backslash, backspace, tab, lineFeed, formFeed, carriageReturn]

/-- The part of a string that a character is printed as. -/
def Piece.ofChar (c : Char) : Piece :=
  if h : IsRaw c then .raw c h
  else
    match Escape.printed.find? fun e => e.char = c with
    | some e => .short e
    | none => .unit (.ofNat c.toNat)

/-- A code unit of two digits is the number that it was made of. -/
theorem CodeUnit.value_ofNat {n : Nat} (h : n < 256) : (CodeUnit.ofNat n).value = n := by
  simp [ofNat, value]
  omega

/-- A digit that is written in lowercase is the one that the printer takes. -/
theorem HexDigit.byte_ofNat : ∀ n < 16, (HexDigit.mk (Fin.ofNat 16 n) false).byte = hexByte n := by
  decide

/-- A code unit of two digits, as it is written. -/
theorem CodeUnit.bytes_ofNat {n : Nat} (h : n < 256) :
    (CodeUnit.ofNat n).bytes = [0x5c, 0x75, 0x30, 0x30, hexByte (n / 16), hexByte (n % 16)] := by
  simp only [bytes, ofNat, HexDigit.byte_ofNat (n / 16) (by omega),
    HexDigit.byte_ofNat (n % 16) (by omega)]
  rfl

/-- A character is printed as itself, by an escape, or by its number. -/
theorem Piece.ofChar_cases (c : Char) :
    (∃ h : IsRaw c, ofChar c = .raw c h) ∨
      (∃ e ∈ Escape.printed, c = e.char ∧ ofChar c = .short e) ∨
      (c.toNat < 0x20 ∧ (∀ e ∈ Escape.printed, c ≠ e.char) ∧ ofChar c = .unit (.ofNat c.toNat)) := by
  by_cases hraw : IsRaw c
  · exact .inl ⟨hraw, by rw [ofChar, dif_pos hraw]⟩
  · cases hfind : Escape.printed.find? fun e => e.char = c with
    | some e =>
      have hchar : e.char = c := by simpa using List.find?_some hfind
      exact .inr (.inl ⟨e, List.mem_of_find?_eq_some hfind, hchar.symm, by
        rw [ofChar, dif_neg hraw, hfind]⟩)
    | none =>
      have hother : ∀ e ∈ Escape.printed, c ≠ e.char := fun e he h =>
        absurd h.symm (by simpa using List.find?_eq_none.1 hfind e he)
      have hquote : c ≠ '"' := hother .quote (by decide)
      have hslash : c ≠ '\\' := hother .backslash (by decide)
      refine .inr (.inr ⟨?_, hother, by rw [ofChar, dif_neg hraw, hfind]⟩)
      simpa [IsRaw, hquote, hslash] using hraw

/-- A character is written as the printer writes it. -/
theorem Piece.bytes_ofChar (c : Char) : (Piece.ofChar c).bytes = escapeChar c := by
  rcases ofChar_cases c with ⟨h, hpiece⟩ | ⟨e, he, rfl, hpiece⟩ | ⟨hcontrol, hother, hpiece⟩
  · obtain ⟨hquote, hslash, hcontrol⟩ := id h
    rw [hpiece, bytes, escapeChar, if_neg hquote, if_neg hslash]
    grind
  · rw [hpiece]
    cases e with
    | slash => exact absurd he (by decide)
    | quote | backslash | backspace | tab | lineFeed | formFeed | carriageReturn => rfl
  · have hne (e : Escape) (he : e ∈ Escape.printed) : c.toNat ≠ e.char.toNat := fun h =>
      hother e he (Char.toNat_inj.1 h)
    have hquote : c ≠ '"' := hother .quote (by decide)
    have hslash : c ≠ '\\' := hother .backslash (by decide)
    have h08 : c.toNat ≠ 0x08 := hne .backspace (by decide)
    have h09 : c.toNat ≠ 0x09 := hne .tab (by decide)
    have h0a : c.toNat ≠ 0x0a := hne .lineFeed (by decide)
    have h0c : c.toNat ≠ 0x0c := hne .formFeed (by decide)
    have h0d : c.toNat ≠ 0x0d := hne .carriageReturn (by decide)
    rw [hpiece, bytes, CodeUnit.bytes_ofNat (by omega), escapeChar, if_neg hquote, if_neg hslash,
      if_neg h08, if_neg h09, if_neg h0a, if_neg h0c, if_neg h0d, if_pos hcontrol]

/-- The pieces of characters mean the characters. -/
theorem chars?_ofChar (cs : List Char) : chars? (cs.map Piece.ofChar) = some cs := by
  induction cs with
  | nil => rfl
  | cons c cs ih =>
    rw [List.map_cons]
    rcases Piece.ofChar_cases c with ⟨h, hpiece⟩ | ⟨e, he, rfl, hpiece⟩ | ⟨hcontrol, hother, hpiece⟩
    · rw [hpiece, chars?, ih, Option.map_some]
    · rw [hpiece, chars?, ih, Option.map_some]
    · have hvalue := CodeUnit.value_ofNat (n := c.toNat) (by omega)
      rw [hpiece, chars?.eq_def]
      simp only [hvalue]
      rw [if_pos (by omega), ih, Option.map_some, Char.ofNat_toNat]

/-- The parts of a string as it is printed. -/
def spell (s : String) : List Piece :=
  s.toList.map Piece.ofChar

/-- A text that is spelled out means itself. -/
theorem string?_spell (s : String) : string? (spell s) = some s := by
  simp [string?, spell, chars?_ofChar]

/-- A text is spelled out as the printer writes it. -/
theorem pieceBytes_spell (s : String) : pieceBytes (spell s) = s.toList.flatMap escapeChar := by
  simp [pieceBytes, spell, List.flatMap_map, Piece.bytes_ofChar]

/-! ## Natural numbers -/

/-- A decimal digit has one byte, however it is called. -/
theorem byte_digitChar : ∀ d : Digit, UInt8.ofNat (Nat.digitChar d).toNat = d.byte := by
  decide

/-- The digits of a number: the first one is zero only if the number is. -/
theorem exists_digits (n : Nat) : ∃ first more, digitBytes (first :: more) = ascii (naturalText n) ∧
    (first = 0 → n = 0 ∧ more = []) ∧
    more.foldl (fun value (d : Digit) => 10 * value + d.val) first.val = n := by
  induction n using Nat.strongRecOn with
  | _ n ih =>
    have hlast : n % 10 < 10 := Nat.mod_lt _ (by decide)
    by_cases h : n < 10
    · refine ⟨⟨n, h⟩, [], ?_, fun h0 => ⟨congrArg Fin.val h0, rfl⟩, rfl⟩
      have hdigit := byte_digitChar ⟨n, h⟩
      simp only [naturalText, Nat.toDigits_of_lt_base h, ascii, List.map_cons, List.map_nil, digitBytes,
        hdigit]
    · obtain ⟨first, more, hbytes, hzero, hvalue⟩ := ih (n / 10) (by omega)
      refine ⟨first, more ++ [⟨n % 10, hlast⟩], ?_, fun h0 => ?_, ?_⟩
      · have hdigit := byte_digitChar ⟨n % 10, hlast⟩
        have happend : ascii (naturalText n) =
            ascii (naturalText (n / 10)) ++ [Digit.byte ⟨n % 10, hlast⟩] := by
          rw [naturalText, Nat.toDigits_of_base_le (by decide) (Nat.le_of_not_lt h)]
          simp only [naturalText, ascii, List.map_append, List.map_cons, List.map_nil, hdigit]
        rw [happend, ← hbytes]
        simp [digitBytes]
      · have := (hzero h0).1
        omega
      · rw [List.foldl_append, hvalue]
        simp only [List.foldl_cons, List.foldl_nil]
        omega

/-- A number is printed as a numeral that means it. -/
theorem exists_numeral (n : Nat) :
    ∃ m : Numeral, m.bytes = ascii (naturalText n) ∧ m.natural? = some n := by
  obtain ⟨first, more, hbytes, hzero, hvalue⟩ := exists_digits n
  refine ⟨⟨false, first, more, fun h => (hzero h).2, none, none⟩, ?_, ?_⟩
  · simp [Numeral.bytes, Numeral.fractionBytes, Numeral.exponentBytes, hbytes]
  · simp [Numeral.natural?, hvalue]

/-! ## Values -/

/-- The value is printed, at any level, as the bytes of a tree that is as it should be. -/
def Prints (j : Json) (IsRight : Written → Prop) : Prop :=
  ∀ level, ∃ w, w.bytes = write level j ∧ IsRight w

/-- A text is printed as a value that means it. -/
theorem prints_string (s : String) : Prints (.string s) (Written.IsText s) := by
  intro level
  refine ⟨.string (spell s), ?_, string?_spell s⟩
  rw [Written.bytes, pieceBytes_spell, write, writeString]

/-- A word is printed as a value that means it. -/
theorem prints_word (n : UInt32) : Prints (.number (.natural n.toNat)) (Written.IsWord n) := by
  intro level
  obtain ⟨m, hbytes, hvalue⟩ := exists_numeral n.toNat
  refine ⟨.number m, ?_, hvalue⟩
  rw [Written.bytes, hbytes, write, Number.text, String.toList_ofList]

/-! ## Objects -/

/-- The blanks of a new line. -/
def lineBlanks (level : Nat) : List Blank :=
  .lineFeed :: List.replicate (2 * level) .space

theorem blankBytes_nil : blankBytes [] = [] := rfl

/-- A new line is written of blanks. -/
theorem blankBytes_lineBlanks (level : Nat) : blankBytes (lineBlanks level) = newLine level := by
  simp [lineBlanks, newLine, blankBytes, Blank.byte]

/-- The name of a member as it is printed, on a line of its own. -/
def Label.wide (level : Nat) (name : String) : Label :=
  ⟨lineBlanks (level + 1), spell name, [], [.space]⟩

/-- Members as they are printed in an object of the given level. -/
def Members.wide (level : Nat) : (first : String × Written) → (more : List (String × Written)) → Members
  | (name, w), [] => .cons (.wide level name) w (lineBlanks level) .nil
  | (name, w), next :: more => .cons (.wide level name) w [] (wide level next more)

/-- A name on a line of its own, as it is written. -/
theorem Label.bytes_wide (level : Nat) (name : String) :
    (Label.wide level name).bytes = newLine (level + 1) ++ (writeString name ++ [0x3a, 0x20]) := by
  simp [Label.wide, Label.bytes, blankBytes_lineBlanks, pieceBytes_spell, writeString]
  simp [blankBytes, Blank.byte]

/-- Members on lines of their own have the names and values that they were made of. -/
theorem Members.entries_wide (level : Nat) (first : String × Written) (more : List (String × Written)) :
    (wide level first more).entries = (first :: more).map fun m => (some m.1, m.2) := by
  fun_induction wide level first more with
  | case1 name w => simp [entries, Label.wide, string?_spell]
  | case2 name w next more ih => simp [entries, Label.wide, string?_spell, ih]

/-- A tree is what a member is printed as. -/
abbrev IsPrinted (level : Nat) (m : String × Written) (j : String × Json) : Prop :=
  m.1 = j.1 ∧ m.2.bytes = write level j.2

/-- Members on lines of their own are written as the printer writes them. -/
theorem Members.bytes_wide {level : Nat} {first : String × Written} {more : List (String × Written)}
    {j : String × Json} {js : List (String × Json)} (hfirst : IsPrinted (level + 1) first j)
    (hmore : List.Forall₂ (IsPrinted (level + 1)) more js) :
    (wide level first more).bytes =
        newLine (level + 1) ++
          (writeMember (level + 1) j ++ (writeMembers (level + 1) js ++ newLine level)) ∧
      (wide level first more).nextBytes = 0x2c :: (wide level first more).bytes := by
  induction hmore generalizing first j with
  | nil =>
    obtain ⟨name, w⟩ := first
    obtain ⟨name', value⟩ := j
    obtain ⟨rfl, hw⟩ := hfirst
    simp only at hw
    simp [wide, bytes, nextBytes, Label.bytes_wide, hw, writeMember, writeMembers, blankBytes_lineBlanks]
  | @cons next j' more js hnext _ ih =>
    obtain ⟨name, w⟩ := first
    obtain ⟨name', value⟩ := j
    obtain ⟨rfl, hw⟩ := hfirst
    obtain ⟨hbytes, hcomma⟩ := ih hnext
    simp only at hw
    simp [wide, bytes, nextBytes, Label.bytes_wide, hw, writeMember, writeMembers, hcomma, hbytes,
      blankBytes_nil]

/-- Members whose values are printed each as a value of its form are printed together. -/
theorem exists_printed {js : List (String × Json)} {fields : List (String × (Written → Prop))}
    (h : List.Forall₂ (fun j field => j.1 = field.1 ∧ Prints j.2 field.2) js fields) (level : Nat) :
    ∃ ms, List.Forall₂ (IsPrinted level) ms js ∧
      List.Forall₂ (fun (m : String × Written) field => m.1 = field.1 ∧ field.2 m.2) ms fields := by
  induction h with
  | nil => exact ⟨[], .nil, .nil⟩
  | @cons j field js fields hfield _ ih =>
    obtain ⟨w, hbytes, hright⟩ := hfield.2 level
    obtain ⟨ms, hms, hfields⟩ := ih
    exact ⟨(j.1, w) :: ms, .cons ⟨rfl, hbytes⟩ hms, .cons ⟨hfield.1, hright⟩ hfields⟩

/-- An object with the members of some fields in their order has them. -/
theorem hasMembers_wide {first : String × Written} {more : List (String × Written)}
    {fields : List (String × (Written → Prop))} (blanks : List Blank) (level : Nat)
    (names : List String) (IsExtra : Written → Prop)
    (h : List.Forall₂ (fun m field => m.1 = field.1 ∧ field.2 m.2) (first :: more) fields) :
    (Written.object blanks (.wide level first more)).HasMembers fields names IsExtra := by
  refine ⟨blanks, _, (first :: more).map fun m => (some m.1, m.2), [], rfl, ?_, ?_, nofun⟩
  · rw [Members.entries_wide, List.append_nil]
  · rw [List.forall₂_map_left_iff]
    exact h.imp fun m field hm => ⟨congrArg some hm.1, hm.2⟩

/-- An object is printed as a tree with the members that it should have, if each value is. -/
theorem prints_object {j : String × Json} {js : List (String × Json)}
    {fields : List (String × (Written → Prop))} {names : List String} {IsExtra : Written → Prop}
    (h : List.Forall₂ (fun j field => j.1 = field.1 ∧ Prints j.2 field.2) (j :: js) fields) :
    Prints (.object (j :: js)) (Written.HasMembers fields names IsExtra) := by
  intro level
  obtain ⟨ms, hms, hfields⟩ := exists_printed h (level + 1)
  obtain ⟨first, more, hfirst, hmore, rfl⟩ := List.forall₂_cons_right_iff.1 hms
  refine ⟨.object [] (.wide level first more), ?_, hasMembers_wide [] level names IsExtra hfields⟩
  rw [Written.bytes, (Members.bytes_wide hfirst hmore).1, write]
  simp [blankBytes_nil]

end Keyring.Json
