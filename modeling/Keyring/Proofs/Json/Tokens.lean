import Keyring.Json.Reader
import Keyring.Proofs.Text.Utf8

/-!
# Opening readers

A reader is opened one step at a time (`bind_ok`), and what it makes of a text is told by the value that
it gives, or by none (`Gives`). The bytes that readers stop at are told apart here: blanks are passed over
(`peekSolid_blanks`), most bytes of a string stand for themselves (`IsPlain`), and a number ends before a
byte that cannot go on it (`StopsNumber`).
-/

namespace Keyring.Json.Reader

section
variable {α β : Type} {x : Reader α} {s s' : Bytes} {a : α}

/-- A reader goes on with what its first step gives. -/
theorem bind_ok {f : α → Reader β} (h : x s = .ok a s') : (x >>= f) s = f a s' := by
  simp only [bind, EStateM.bind, h]

/-- A chain goes on alike from two readers that are alike where they stand. -/
theorem bind_eq {y : Reader α} {t : Bytes} {f : α → Reader β} (h : x s = y t) :
    (x >>= f) s = (y >>= f) t := by
  simp only [bind, EStateM.bind, h]

/-- A function of what is read. -/
theorem map_ok {f : α → β} (h : x s = .ok a s') : (f <$> x) s = .ok (f a) s' := by
  simp only [Functor.map, EStateM.map, h]

/-- What is read well is not blamed. -/
theorem blame_ok (h : x s = .ok a s') : blame x s = .ok a s' := by
  simp only [blame, h]

/-- A container is read when its content and its end are. -/
theorem closing_ok {ending : Reader Unit} {s'' : Bytes} (h : x s = .ok a s')
    (he : ending s' = .ok () s'') : closing x ending s = .ok a s'' := by
  simp only [closing, h, he]

/-- A container ends alike after two contents that are alike. -/
theorem closing_eq {y : Reader α} {t : Bytes} {ending : Reader Unit} (h : x s = y t) :
    closing x ending s = closing y ending t := by
  simp only [closing, h]

end

/-! ## What a reader makes of a text -/

/-- A reader gives the value, if there is one, and leaves `rest`; if there is none, it fails. -/
def Gives {α : Type} (result : EStateM.Result Problem Bytes α) (value : Option α) (rest : Bytes) : Prop :=
  match value with
  | some a => result = .ok a rest
  | none => ∃ problem left, result = .error problem left

section
variable {α β : Type} {x : Reader α} {s s' : Bytes} {value : Option α}

theorem gives_ok {a : α} : Gives (.ok a s) (some a) s := rfl

theorem gives_error {problem : Problem} {left : Bytes} :
    Gives (.error problem left : EStateM.Result Problem Bytes α) none s := ⟨problem, left, rfl⟩

/-- A chain gives what its second step makes of what the first one gives. -/
theorem Gives.bind {f : α → Reader β} {g : α → Option β} {s'' : Bytes} (h : Gives (x s) value s')
    (hf : ∀ a, value = some a → Gives (f a s') (g a) s'') : Gives ((x >>= f) s) (value.bind g) s'' := by
  cases value with
  | some a =>
    rw [bind_ok h]
    exact hf a rfl
  | none =>
    obtain ⟨problem, left, hx⟩ := h
    simp only [bind, EStateM.bind, hx]
    exact gives_error

/-- A function of what a reader gives. -/
theorem Gives.map {f : α → β} (h : Gives (x s) value s') : Gives ((f <$> x) s) (value.map f) s' := by
  cases value with
  | some a => exact map_ok h
  | none =>
    obtain ⟨problem, left, hx⟩ := h
    simp only [Functor.map, EStateM.map, hx]
    exact gives_error

/-- The place of a problem makes no difference. -/
theorem Gives.blame (h : Gives (x s) value s') : Gives (blame x s) value s' := by
  cases value with
  | some a => exact blame_ok h
  | none =>
    obtain ⟨⟨cause, unread⟩, left, hx⟩ := h
    cases unread <;> simp only [Reader.blame, hx] <;> exact gives_error

/-- A container gives what its content gives, if its end is read. -/
theorem Gives.closing {ending : Reader Unit} {s'' : Bytes} (h : Gives (x s) value s')
    (he : ending s' = .ok () s'') : Gives (closing x ending s) value s'' := by
  cases value with
  | some a => exact closing_ok h he
  | none =>
    obtain ⟨problem, left, hx⟩ := h
    simp only [Reader.closing, hx]
    cases ending left <;> exact gives_error

/-- A container whose end is not read gives nothing. -/
theorem Gives.closing_fails {ending : Reader Unit} {s'' : Bytes} (h : Gives (x s) value s')
    (he : Gives (ending s') none s'') : Gives (Reader.closing x ending s) none s'' := by
  obtain ⟨problem, left, he⟩ := he
  cases value with
  | some a =>
    have hx : x s = .ok a s' := h
    simp only [Reader.closing, hx, he]
    exact gives_error
  | none =>
    obtain ⟨problem, left, hx⟩ := h
    simp only [Reader.closing, hx]
    cases ending left <;> exact gives_error

end

@[simp] theorem skip_cons (b : UInt8) (rest : Bytes) : skip (b :: rest) = .ok () rest := rfl

@[simp] theorem next_cons (b : UInt8) (rest : Bytes) : next (b :: rest) = .ok (some b) rest := rfl

@[simp] theorem peek_cons (b : UInt8) (rest : Bytes) : peek (b :: rest) = .ok (some b) (b :: rest) :=
  rfl

/-! ## Blanks -/

/-- There are only blanks. -/
def Blanks (bytes : Bytes) : Prop :=
  ∀ b ∈ bytes, isBlank b = true

theorem blanks_nil : Blanks [] := by
  intro b hb
  cases hb

/-- Blanks are passed over. -/
theorem peekSolid_blanks {blanks : Bytes} (hb : Blanks blanks) {b : UInt8} (hs : isBlank b = false)
    (rest : Bytes) : peekSolid (blanks ++ b :: rest) = .ok (some b) (b :: rest) := by
  have h : (blanks ++ b :: rest).dropWhile isBlank = b :: rest := by
    induction blanks with
    | nil => simp [hs]
    | cons c blanks ih =>
      rw [List.cons_append, List.dropWhile_cons_of_pos (hb c (List.mem_cons_self ..))]
      exact ih fun d hd => hb d (List.mem_cons_of_mem _ hd)
  simp only [peekSolid, h, List.head?_cons]

/-! ## Strings -/

/-- The byte stands for itself in a string. -/
def IsPlain (b : UInt8) : Prop :=
  b ≠ 0x22 ∧ ¬ b < 0x20 ∧ b ≠ 0x5c

/-- Plain bytes of a text are read as they are. -/
theorem stringBytes_plain {plain : Bytes} (hp : ∀ b ∈ plain, IsPlain b) (read rest : Bytes) :
    stringBytes read (plain ++ rest) = stringBytes (plain.reverse ++ read) rest := by
  induction plain generalizing read with
  | nil => rfl
  | cons b plain ih =>
    have ⟨hquote, hcontrol, hslash⟩ := hp b (List.mem_cons_self ..)
    rw [List.cons_append, stringBytes.eq_def]
    simp only [if_neg hquote, if_neg hcontrol, if_pos hslash]
    rw [ih fun c hc => hp c (List.mem_cons_of_mem _ hc)]
    simp

/-- A byte of a character of more than one byte has its high bit, and a character of one byte is that
byte, so that only the characters that are escaped have bytes that are not plain. -/
theorem isPlain_of_mem_encodeChar {c : Char} (hquote : c ≠ '"') (hslash : c ≠ '\\')
    (hcontrol : ¬ c.toNat < 0x20) {b : UInt8} (hb : b ∈ Utf8.encodeChar c) : IsPlain b := by
  have hn : c.toNat < 0xd800 ∨ 0xdfff < c.toNat ∧ c.toNat < 0x110000 := c.valid
  have hq : c.toNat ≠ 0x22 := fun h => hquote (Char.toNat_inj.1 h)
  have hs : c.toNat ≠ 0x5c := fun h => hslash (Char.toNat_inj.1 h)
  suffices h : b.toNat ≠ 0x22 ∧ ¬ b.toNat < 0x20 ∧ b.toNat ≠ 0x5c by
    refine ⟨?_, ?_, ?_⟩
    · rintro rfl
      exact h.1 rfl
    · rw [UInt8.lt_iff_toNat_lt]
      exact h.2.1
    · rintro rfl
      exact h.2.2 rfl
  simp only [Utf8.encodeChar] at hb
  split at hb
  · simp only [List.mem_singleton] at hb
    rw [hb, Utf8.toNat_ofNat (by omega)]
    omega
  split at hb
  · simp only [List.mem_cons, List.not_mem_nil, or_false] at hb
    rcases hb with rfl | rfl <;> rw [Utf8.toNat_ofNat (by omega)] <;> omega
  split at hb
  · simp only [List.mem_cons, List.not_mem_nil, or_false] at hb
    rcases hb with rfl | rfl | rfl <;> rw [Utf8.toNat_ofNat (by omega)] <;> omega
  · simp only [List.mem_cons, List.not_mem_nil, or_false] at hb
    rcases hb with rfl | rfl | rfl | rfl <;> rw [Utf8.toNat_ofNat (by omega)] <;> omega

/-- A short escape is read as the byte that it stands for. -/
theorem stringBytes_short {letter c : UInt8} (h : shortEscape? letter = some c) (read rest : Bytes) :
    stringBytes read (0x5c :: letter :: rest) = stringBytes (c :: read) rest := by
  rw [stringBytes.eq_def]
  simp [h]

/-! ## The end of a number -/

/-- The byte at the front, if there is one, cannot go on a number. -/
def StopsNumber (rest : Bytes) : Prop :=
  ∀ b, rest.head? = some b → isDigit b = false ∧ b ≠ 0x2e ∧ b ≠ 0x65 ∧ b ≠ 0x45

/-- A digit is no byte that is none. -/
theorem ne_of_isDigit {b c : UInt8} (hb : isDigit b = true) (hc : isDigit c = false) : b ≠ c := by
  rintro rfl
  exact Bool.noConfusion (hb.symm.trans hc)

/-! ## The ends of containers -/

theorem listEnd_cons (rest : Bytes) : listEnd (0x5d :: rest) = .ok () rest := rfl

theorem objectEnd_cons (rest : Bytes) : objectEnd (0x7d :: rest) = .ok () rest := rfl

end Keyring.Json.Reader
