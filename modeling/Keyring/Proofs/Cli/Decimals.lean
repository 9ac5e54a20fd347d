import Keyring.Cli.Parameter

/-!
# Decimal texts

A text of one or more decimal digits tells a number, with zeros in front or without. Each number that can be
given on the command line has a bound (`Parameter.bound?`). Its reader takes decimal texts of numbers below
the bound for these numbers, and refuses the others (`Parameter.check_iff_lt`), so that no number is ever
taken for another one.
-/

namespace Keyring.Cli

/-- The number that decimal digits make of the one before them. -/
def pushDigits (n : Nat) (digits : List Char) : Nat :=
  digits.foldl (fun n c => 10 * n + (c.toNat - 48)) n

/-- The text consists of decimal digits, at least one, and they tell the number. -/
structure Decimal (text : String) (n : Nat) : Prop where
  ne_nil : text.toList ≠ []
  digits : ∀ c ∈ text.toList, '0' ≤ c ∧ c ≤ '9'
  value : pushDigits 0 text.toList = n

instance (text : String) (n : Nat) : Decidable (Decimal text n) :=
  decidable_of_iff (text.toList ≠ [] ∧ text.toList.all (fun c => '0' ≤ c ∧ c ≤ '9') = true ∧
      pushDigits 0 text.toList = n)
    ⟨fun ⟨hne, hdigits, hvalue⟩ => ⟨hne, by simpa using hdigits, hvalue⟩,
      fun ⟨hne, hdigits, hvalue⟩ => ⟨hne, by simpa using hdigits, hvalue⟩⟩

section
variable {text : String} {n bound : Nat}

/-- Digits between zero and nine are read as the number that they push together. -/
theorem readDigits_eq_pushDigits {digits : List Char} (h : ∀ c ∈ digits, '0' ≤ c ∧ c ≤ '9') (m : Nat) :
    readDigits 10 m digits = some (pushDigits m digits) := by
  induction digits generalizing m with
  | nil => rfl
  | cons c rest ih =>
    rw [List.forall_mem_cons] at h
    have hdigit : numeralDigit? c = some (c.toNat - 48) := if_pos h.1
    have hle : c.toNat ≤ 57 := h.1.2
    have hlt : c.toNat - 48 < 10 := by omega
    rw [readDigits, hdigit]
    simp only [if_pos hlt]
    exact ih h.2 _

namespace Decimal

/-- Nothing that is no digit stands in front. -/
theorem ne_cons (h : Decimal text n) {c : Char} (hc : ¬ ('0' ≤ c ∧ c ≤ '9')) (rest : List Char) :
    text.toList ≠ c :: rest := by
  intro heq
  exact hc (h.digits c (heq ▸ List.mem_cons_self))

/-- A number in decimal is read as it is told. -/
theorem decimal?_eq (h : Decimal text n) : decimal? text.toList = some n := by
  rw [decimal?, List.isEmpty_eq_false_iff.2 h.ne_nil, readDigits_eq_pushDigits h.digits, h.value]
  rfl

/-- So it is with a bound, where it is refused from the bound on. -/
theorem unsigned?_eq (h : Decimal text n) :
    unsigned? bound text.toList = if n < bound then some n else none := by
  have hplus : dropPlus text.toList = text.toList := by
    unfold dropPlus
    split
    · next heq => exact absurd heq (h.ne_cons (by decide) _)
    · rfl
  rw [unsigned?, hplus, h.decimal?_eq, Option.filter_some]
  simp only [decide_eq_true_eq]

/-- So it is where a sign may stand. -/
theorem signed?_eq (h : Decimal text n) :
    signed? bound text.toList = if n < bound then some n else none := by
  unfold signed?
  split
  · next heq => exact absurd heq (h.ne_cons (by decide) _)
  · exact h.unsigned?_eq

/-- No letter behind a zero tells another base. -/
theorem baseOf_eq (h : Decimal text n) : baseOf text.toList = (10, text.toList) := by
  have hne {c d : Char} (hd : ¬ ('0' ≤ d ∧ d ≤ '9')) (rest : List Char) :
      text.toList ≠ c :: d :: rest := by
    intro heq
    exact hd (h.digits d (heq ▸ List.mem_cons_of_mem _ List.mem_cons_self))
  unfold baseOf
  split
  · next heq => exact absurd heq (hne (by decide) _)
  · next heq => exact absurd heq (hne (by decide) _)
  · next heq => exact absurd heq (hne (by decide) _)
  · next heq => exact absurd heq (hne (by decide) _)
  · next heq => exact absurd heq (hne (by decide) _)
  · next heq => exact absurd heq (hne (by decide) _)
  · rfl

/-- So it is where the base may be told, because no base stands before a decimal number. -/
theorem prefixed?_eq (h : Decimal text n) :
    prefixed? bound text.toList = if n < bound then some n else none := by
  have hkeep : text.toList.filter (· ≠ '_') = text.toList := by
    refine List.filter_eq_self.2 fun c hc => decide_eq_true ?_
    rintro rfl
    exact absurd (h.digits _ hc) (by decide)
  unfold prefixed?
  rw [h.baseOf_eq]
  simp only
  rw [hkeep, readDigits_eq_pushDigits h.digits, h.value, Option.filter_some]
  simp only [decide_eq_true_eq]

end Decimal

namespace Parameter

/-- The first number that is too large for the parameter. -/
def bound? : Parameter → Option Nat
  | kdfIterations => some (2 ^ 32)
  | nonce | gasLimit | chainId => some (2 ^ 64)
  | gasPrice => some (2 ^ 128)
  | value => some (2 ^ 256)
  | _ => none

/-- A number of iterations is read below 2 ^ 32. -/
theorem readIterations_of_decimal (h : Decimal text n) :
    readIterations text = if n < 2 ^ 32 then some (UInt32.ofNat n) else none := by
  rw [readIterations, h.signed?_eq]
  split <;> rfl

/-- A word is read below 2 ^ 64. -/
theorem readWord_of_decimal (h : Decimal text n) :
    readWord text = if n < 2 ^ 64 then some (UInt64.ofNat n) else none := by
  rw [readWord, h.unsigned?_eq]
  split <;> rfl

/-- A price is read below 2 ^ 128. -/
theorem readPrice_of_decimal (h : Decimal text n) :
    readPrice text = if n < 2 ^ 128 then some (BitVec.ofNat 128 n) else none := by
  rw [readPrice, h.unsigned?_eq]
  split <;> rfl

/-- An amount is read below 2 ^ 256. -/
theorem readAmount_of_decimal (h : Decimal text n) :
    readAmount text = if n < 2 ^ 256 then some (BitVec.ofNat 256 n) else none := by
  rw [readAmount, h.prefixed?_eq]
  split <;> rfl

/-- A decimal text is a value exactly if its number is below the bound. -/
theorem check_iff_lt {p : Parameter} (hbound : p.bound? = some bound) (h : Decimal text n) :
    p.check text = .ok () ↔ n < bound := by
  have hrequire {α : Type} {read : Option α} {a : α}
      (hread : read = if n < bound then some a else none) :
      (if read.isSome then .ok () else .error (.badValue p) : Except Usage Unit) = .ok () ↔ n < bound := by
    rw [hread]
    by_cases hlt : n < bound
    · simp [hlt]
    · simp [hlt]
  cases p with
  | kdfIterations => cases hbound; exact hrequire (readIterations_of_decimal h)
  | nonce | gasLimit | chainId => cases hbound; exact hrequire (readWord_of_decimal h)
  | gasPrice => cases hbound; exact hrequire (readPrice_of_decimal h)
  | value => cases hbound; exact hrequire (readAmount_of_decimal h)
  | _ => cases hbound

end Parameter

end

end Keyring.Cli
