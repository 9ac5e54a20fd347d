import Keyring.Address

/-!
# The order of addresses

Addresses are ordered byte by byte. The order is strict and total, so that a list of addresses has
one ascending arrangement without repetitions. It is made by sorting the list and then dropping what stands
next to an equal address (`Address.ascending`): in a sorted list all equal ones stand next to each other
(`Address.pairwise_dropRepeated`).
-/

namespace Keyring

/-- The bytes come strictly before the others, at the first place where they differ. -/
def bytesLt : (a b : Bytes) → Bool
  | x :: a, y :: b => x < y || (x == y && bytesLt a b)
  | [], _ :: _ => true
  | _, [] => false

/-- No bytes are before themselves. -/
theorem bytesLt_irrefl : ∀ a : Bytes, bytesLt a a = false
  | [] => rfl
  | x :: a => by simp [bytesLt, bytesLt_irrefl a]

/-- The order of bytes is transitive. -/
theorem bytesLt_trans {a b c : Bytes} (hab : bytesLt a b = true) (hbc : bytesLt b c = true) :
    bytesLt a c = true := by
  induction a generalizing b c with
  | nil => cases b <;> cases c <;> simp_all [bytesLt]
  | cons x a ih =>
    cases b with
    | nil => simp [bytesLt] at hab
    | cons y b =>
      cases c with
      | nil => simp [bytesLt] at hbc
      | cons z c =>
        simp only [bytesLt, Bool.or_eq_true, decide_eq_true_eq, Bool.and_eq_true, beq_iff_eq] at *
        rcases hab with hxy | ⟨rfl, hab⟩
        · rcases hbc with hyz | ⟨rfl, -⟩
          · exact .inl (UInt8.lt_trans hxy hyz)
          · exact .inl hxy
        · rcases hbc with hyz | ⟨rfl, hbc⟩
          · exact .inl hyz
          · exact .inr ⟨rfl, ih hab hbc⟩

/-- Of different bytes one is before the other. -/
theorem bytesLt_trichotomy (a b : Bytes) : bytesLt a b = true ∨ a = b ∨ bytesLt b a = true := by
  induction a generalizing b with
  | nil => cases b <;> simp [bytesLt]
  | cons x a ih =>
    cases b with
    | nil => simp [bytesLt]
    | cons y b =>
      simp only [bytesLt, Bool.or_eq_true, decide_eq_true_eq, Bool.and_eq_true, beq_iff_eq,
        List.cons.injEq, UInt8.lt_iff_toNat_lt, ← UInt8.toNat_inj]
      rcases Nat.lt_trichotomy x.toNat y.toNat with h | h | h
      · exact .inl (.inl h)
      · rcases ih b with hab | rfl | hba
        · exact .inl (.inr ⟨h, hab⟩)
        · exact .inr (.inl ⟨h, rfl⟩)
        · exact .inr (.inr (.inr ⟨h.symm, hba⟩))
      · exact .inr (.inr (.inl h))

namespace Address

/-- The address comes strictly before the other one. -/
def before (a b : Address) : Bool :=
  bytesLt a.toBytes b.toBytes

@[simp] theorem before_irrefl (a : Address) : before a a = false :=
  bytesLt_irrefl _

/-- The order of addresses is transitive. -/
theorem before_trans {a b c : Address} (hab : before a b = true) (hbc : before b c = true) :
    before a c = true :=
  bytesLt_trans hab hbc

/-- An address that is before another one is not that one. -/
theorem ne_of_before {a b : Address} (h : before a b = true) : a ≠ b := by
  rintro rfl
  simp at h

/-- Of two different addresses one comes first. -/
theorem before_of_not_before {a b : Address} (hab : ¬ before a b = true) (hne : a ≠ b) :
    before b a = true := by
  rcases bytesLt_trichotomy a.toBytes b.toBytes with h | h | h
  · exact absurd h hab
  · exact absurd (ext h) hne
  · exact h

/-- Of two addresses not both are before the other one. -/
theorem not_before_of_before {a b : Address} (h : before a b = true) : ¬ before b a = true := by
  intro hba
  have hself := before_trans h hba
  simp at hself

/-! ## Sorting -/

/-- The address does not come after the other one. -/
def notAfter (a b : Address) : Bool :=
  !before b a

/-- Not being after is transitive. -/
theorem notAfter_trans (a b c : Address) (hab : notAfter a b = true) (hbc : notAfter b c = true) :
    notAfter a c = true := by
  rw [notAfter, Bool.not_eq_true'] at *
  by_cases hb : b = c
  · exact hb ▸ hab
  · -- If `c` came before `a`, then so would `b`, which comes before `c`.
    have hbefore := before_of_not_before (Bool.not_eq_true _ ▸ hbc) (Ne.symm hb)
    refine Bool.eq_false_iff.2 fun hca => ?_
    rw [before_trans hbefore hca] at hab
    cases hab

/-- Of two addresses one is not after the other one. -/
theorem notAfter_total (a b : Address) : (notAfter a b || notAfter b a) = true := by
  rw [Bool.or_eq_true, notAfter, notAfter, Bool.not_eq_true', Bool.not_eq_true']
  by_cases h : before a b = true
  · exact .inl (Bool.eq_false_iff.2 (not_before_of_before h))
  · exact .inr (Bool.eq_false_iff.2 h)

/-- The addresses from the first one on, each as often as it is there. -/
def sort (addresses : List Address) : List Address :=
  addresses.mergeSort notAfter

/-- Sorting keeps all addresses. -/
@[simp] theorem mem_sort {c : Address} {addresses : List Address} :
    c ∈ sort addresses ↔ c ∈ addresses :=
  List.mem_mergeSort

/-- What is sorted does not descend. -/
theorem pairwise_sort (addresses : List Address) :
    (sort addresses).Pairwise fun b c => notAfter b c = true :=
  List.pairwise_mergeSort notAfter_trans notAfter_total addresses

/-- The addresses without those that stand next to an equal one. -/
def dropRepeated : List Address → List Address
  | [] => []
  | [a] => [a]
  | a :: b :: rest => if a = b then dropRepeated (b :: rest) else a :: dropRepeated (b :: rest)

/-- Dropping repeated neighbours keeps each address. -/
@[simp] theorem mem_dropRepeated {c : Address} {addresses : List Address} :
    c ∈ dropRepeated addresses ↔ c ∈ addresses := by
  fun_induction dropRepeated addresses with
  | case1 => exact Iff.rfl
  | case2 a => exact Iff.rfl
  | case3 a rest ih => simp [ih]
  | case4 a b rest hne ih => rw [List.mem_cons, ih, List.mem_cons (b := a)]

/-- Where equal ones stand next to each other, each is left once. -/
theorem pairwise_dropRepeated {addresses : List Address}
    (h : addresses.Pairwise fun b c => notAfter b c = true) :
    (dropRepeated addresses).Pairwise fun b c => before b c = true := by
  fun_induction dropRepeated addresses with
  | case1 => exact List.Pairwise.nil
  | case2 a => exact List.pairwise_singleton _ _
  | case3 a rest ih => exact ih (List.pairwise_cons.1 h).2
  | case4 a b rest hne ih =>
    obtain ⟨ha, hrest⟩ := List.pairwise_cons.1 h
    refine List.pairwise_cons.2 ⟨fun c hc => ?_, ih hrest⟩
    have hab : before a b = true := by
      have hnot : ¬ before b a = true := by simpa [notAfter] using ha b List.mem_cons_self
      exact before_of_not_before hnot (Ne.symm hne)
    rcases List.mem_cons.1 (mem_dropRepeated.1 hc) with rfl | hc
    · exact hab
    · -- What stands behind `b` does not come before it, and so `a` comes before that too.
      by_cases hbc : b = c
      · exact hbc ▸ hab
      · have hnot : ¬ before c b = true := by
          simpa [notAfter] using (List.pairwise_cons.1 hrest).1 c hc
        exact before_trans hab (before_of_not_before hnot (Ne.symm hbc))

/-- The distinct addresses of a list in ascending order. -/
def ascending (addresses : List Address) : List Address :=
  dropRepeated (sort addresses)

/-- The ascending list has exactly the addresses that were given. -/
@[simp] theorem mem_ascending {c : Address} {addresses : List Address} :
    c ∈ ascending addresses ↔ c ∈ addresses := by
  rw [ascending, mem_dropRepeated, mem_sort]

/-- Each address stands strictly before those after it. -/
theorem pairwise_ascending (addresses : List Address) :
    (ascending addresses).Pairwise fun b c => before b c = true :=
  pairwise_dropRepeated (pairwise_sort addresses)

end Address

end Keyring
