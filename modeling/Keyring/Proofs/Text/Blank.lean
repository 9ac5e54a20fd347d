import Keyring.Text.Blank

/-!
# Texts between blanks

Trimming leaves what stands between the blanks at both ends (`Text.exists_blanks`), and all of it where there
is no blank in it (`Text.trim_append`).
-/

namespace Keyring.Text

/-- All characters of the text are blank. -/
def AllBlank (text : List Char) : Prop :=
  ∀ c ∈ text, isBlank c = true

/-- What is taken while it is blank is blank. -/
theorem allBlank_takeWhile (text : List Char) : AllBlank (text.takeWhile isBlank) :=
  List.all_eq_true.1 List.all_takeWhile

/-- Blanks are blank from the other end, too. -/
theorem AllBlank.reverse {text : List Char} (h : AllBlank text) : AllBlank text.reverse :=
  fun c hc => h c (List.mem_reverse.1 hc)

/-- A text is what is left of it between blanks. -/
theorem exists_blanks (text : List Char) :
    ∃ before after, text = before ++ trim text ++ after ∧ AllBlank before ∧ AllBlank after := by
  have hfront := List.takeWhile_append_dropWhile (p := isBlank) (l := text)
  have hback := List.takeWhile_append_dropWhile (p := isBlank) (l := (text.dropWhile isBlank).reverse)
  refine ⟨text.takeWhile isBlank, ((text.dropWhile isBlank).reverse.takeWhile isBlank).reverse, ?_,
    allBlank_takeWhile text, (allBlank_takeWhile _).reverse⟩
  rw [trim, List.append_assoc, ← List.reverse_append, hback, List.reverse_reverse, hfront]

/-- Blanks are dropped up to the first character that is none. -/
theorem dropWhile_append_cons {before rest : List Char} {c : Char} (h : AllBlank before)
    (hc : isBlank c = false) : (before ++ c :: rest).dropWhile isBlank = c :: rest := by
  rw [List.dropWhile_append_of_pos h, List.dropWhile_cons, hc]
  rfl

/-- What stands between blanks and holds none is what is left. -/
theorem trim_append {before middle after : List Char} (hbefore : AllBlank before) (hafter : AllBlank after)
    (hmiddle : ∀ c ∈ middle, isBlank c = false) : trim (before ++ middle ++ after) = middle := by
  cases middle with
  | nil =>
    have hall : AllBlank (before ++ after) := fun c hc => (List.mem_append.1 hc).elim (hbefore c) (hafter c)
    have hnone : (before ++ after).dropWhile isBlank = [] := by
      rw [← List.append_nil (before ++ after), List.dropWhile_append_of_pos hall, List.dropWhile_nil]
    rw [List.append_nil, trim, hnone]
    rfl
  | cons c middle =>
    have hfront : (before ++ (c :: middle) ++ after).dropWhile isBlank = c :: (middle ++ after) := by
      rw [List.append_assoc, List.cons_append]
      exact dropWhile_append_cons hbefore (hmiddle c List.mem_cons_self)
    obtain ⟨last, rest, hrest⟩ : ∃ last rest, (c :: middle).reverse = last :: rest :=
      List.exists_cons_of_ne_nil (by simp)
    have hlast : isBlank last = false :=
      hmiddle last (List.mem_reverse.1 (hrest ▸ List.mem_cons_self))
    rw [trim, hfront, ← List.cons_append, List.reverse_append, hrest,
      dropWhile_append_cons hafter.reverse hlast, ← hrest, List.reverse_reverse]

end Keyring.Text
