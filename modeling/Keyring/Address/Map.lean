import Keyring.Address.Order

/-!
# Values by address

A finite map from addresses. Its entries stand in ascending order of their addresses, so that maps
with the same values at all addresses are equal (`AddressMap.ext_get?`).
-/

namespace Keyring

/-- Entries whose addresses ascend strictly. -/
def AscendingEntries (entries : List (Address × α)) : Prop :=
  entries.Pairwise fun e f => Address.before e.1 f.1 = true

/-- A finite map from addresses. -/
structure AddressMap (α : Type) where
  entries : List (Address × α)
  ascending : AscendingEntries entries

namespace AddressMap

/-- The value of an address among entries. -/
def find? (a : Address) : List (Address × α) → Option α
  | [] => none
  | (b, value) :: rest => if a = b then some value else find? a rest

/-- Entries with the value of an address set. -/
def put (a : Address) (value : α) : List (Address × α) → List (Address × α)
  | [] => [(a, value)]
  | (b, old) :: rest =>
    if Address.before a b then (a, value) :: (b, old) :: rest
    else if a = b then (a, value) :: rest
    else (b, old) :: put a value rest

/-- Putting a value adds no address but its own. -/
theorem fst_mem_of_mem_put {a : Address} {value : α} {entries : List (Address × α)}
    {e : Address × α} (h : e ∈ put a value entries) : e.1 = a ∨ e ∈ entries := by
  induction entries with
  | nil => simp_all [put]
  | cons head rest ih =>
    obtain ⟨b, old⟩ := head
    unfold put at h
    split at h
    · rcases List.mem_cons.1 h with rfl | h
      · exact .inl rfl
      · exact .inr h
    · split at h
      · rcases List.mem_cons.1 h with rfl | h
        · exact .inl rfl
        · exact .inr (List.mem_cons_of_mem _ h)
      · rcases List.mem_cons.1 h with rfl | h
        · exact .inr (List.mem_cons_self ..)
        · exact (ih h).imp_right (List.mem_cons_of_mem _)

/-- Entries stay in ascending order when a value is put among them. -/
theorem ascending_put (a : Address) (value : α) {entries : List (Address × α)}
    (h : AscendingEntries entries) : AscendingEntries (put a value entries) := by
  induction entries with
  | nil => simp [put, AscendingEntries]
  | cons head rest ih =>
    obtain ⟨b, old⟩ := head
    unfold AscendingEntries at h ih ⊢
    unfold put
    have ⟨hb, hrest⟩ := List.pairwise_cons.1 h
    split
    · next hab =>
      refine List.pairwise_cons.2 ⟨fun e he => ?_, h⟩
      rcases List.mem_cons.1 he with rfl | he
      · exact hab
      · exact Address.before_trans hab (hb e he)
    · next hab =>
      split
      · next heq =>
        subst heq
        exact List.pairwise_cons.2 ⟨hb, hrest⟩
      · next hne =>
        refine List.pairwise_cons.2 ⟨fun e he => ?_, ih hrest⟩
        rcases fst_mem_of_mem_put he with heq | he
        · exact heq ▸ Address.before_of_not_before hab hne
        · exact hb e he

/-- The empty map. -/
def empty : AddressMap α :=
  ⟨[], List.Pairwise.nil⟩

/-- The value of an address. -/
def get? (m : AddressMap α) (a : Address) : Option α :=
  find? a m.entries

/-- The map with the value of an address set. -/
def insert (m : AddressMap α) (a : Address) (value : α) : AddressMap α :=
  ⟨put a value m.entries, ascending_put a value m.ascending⟩

/-- The map without the entries that do not pass. -/
def filter (m : AddressMap α) (keep : Address → α → Bool) : AddressMap α :=
  ⟨m.entries.filter fun e => keep e.1 e.2, m.ascending.filter _⟩

/-- The map without an address. -/
def erase (m : AddressMap α) (a : Address) : AddressMap α :=
  m.filter fun b _ => b ≠ a

/-- The addresses with a value, in ascending order. -/
def addresses (m : AddressMap α) : List Address :=
  m.entries.map (·.1)

/-- The number of entries. -/
def size (m : AddressMap α) : Nat :=
  m.entries.length

/-! ## Values after an operation -/

@[simp] theorem get?_empty (a : Address) : (empty : AddressMap α).get? a = none :=
  rfl

/-- What is found after a value was put is that value, or what was found before. -/
theorem find?_put (a b : Address) (value : α) (entries : List (Address × α)) :
    find? b (put a value entries) = if b = a then some value else find? b entries := by
  induction entries with
  | nil => simp [put, find?]
  | cons head rest ih =>
    obtain ⟨c, old⟩ := head
    unfold put
    split
    · rfl
    · split
      · next h => subst h; by_cases hb : b = a <;> simp [find?, hb]
      · next hne =>
        by_cases hb : b = c
        · subst hb
          have : b ≠ a := fun h => hne h.symm
          simp [find?, this]
        · simp [find?, hb, ih]

@[simp] theorem get?_insert (m : AddressMap α) (a b : Address) (value : α) :
    (m.insert a value).get? b = if b = a then some value else m.get? b :=
  find?_put a b value m.entries

/-- An address before all entries has none. -/
theorem find?_eq_none_of_forall_before {a : Address} {entries : List (Address × α)}
    (h : ∀ e ∈ entries, Address.before a e.1 = true) : find? a entries = none := by
  induction entries with
  | nil => rfl
  | cons head rest ih =>
    have hne := Address.ne_of_before (h head (List.mem_cons_self ..))
    simp [find?, hne, ih fun e he => h e (List.mem_cons_of_mem _ he)]

/-- What is found among the entries that are kept is what was found, if that is kept. -/
theorem find?_filter (keep : Address → α → Bool) (a : Address) {entries : List (Address × α)}
    (h : AscendingEntries entries) :
    find? a (entries.filter fun e => keep e.1 e.2) = (find? a entries).filter (keep a) := by
  induction entries with
  | nil => rfl
  | cons head rest ih =>
    obtain ⟨b, value⟩ := head
    have ⟨hb, hrest⟩ := List.pairwise_cons.1 h
    have ih := ih hrest
    by_cases hab : a = b
    · subst hab
      have hnone := find?_eq_none_of_forall_before hb
      by_cases hk : keep a value = true
      · simp [List.filter, hk, find?, Option.filter]
      · simp only [Bool.not_eq_true] at hk
        simp [List.filter, hk, find?, Option.filter, ih, hnone]
    · by_cases hk : keep b value = true
      · simp [List.filter, hk, find?, hab, ih]
      · simp only [Bool.not_eq_true] at hk
        simp [List.filter, hk, find?, hab, ih]

@[simp] theorem get?_filter (m : AddressMap α) (keep : Address → α → Bool) (a : Address) :
    (m.filter keep).get? a = (m.get? a).filter (keep a) :=
  find?_filter keep a m.ascending

@[simp] theorem get?_erase (m : AddressMap α) (a b : Address) :
    (m.erase a).get? b = if b = a then none else m.get? b := by
  unfold erase
  rw [get?_filter]
  by_cases h : b = a <;> cases hm : m.get? b <;> simp [h, Option.filter]

/-- The addresses of a map are those that have a value. -/
theorem mem_addresses_iff {m : AddressMap α} {a : Address} :
    a ∈ m.addresses ↔ ∃ value, m.get? a = some value := by
  obtain ⟨entries, h⟩ := m
  simp only [addresses, get?]
  clear h
  induction entries with
  | nil => simp [find?]
  | cons head rest ih =>
    obtain ⟨b, value⟩ := head
    by_cases hab : a = b
    · simp [find?, hab]
    · simpa [find?, hab] using ih

/-- A map is told by its values. -/
theorem ext_get? {m n : AddressMap α} (h : ∀ a, m.get? a = n.get? a) : m = n := by
  obtain ⟨entries, hm⟩ := m
  obtain ⟨others, hn⟩ := n
  simp only [get?] at h
  congr 1
  induction entries generalizing others with
  | nil =>
    cases others with
    | nil => rfl
    | cons head rest => have := h head.1; simp [find?] at this
  | cons head rest ih =>
    obtain ⟨a, value⟩ := head
    cases others with
    | nil => have := h a; simp [find?] at this
    | cons other others =>
      obtain ⟨b, w⟩ := other
      have ⟨ha, hrest⟩ := List.pairwise_cons.1 hm
      have ⟨hb, hothers⟩ := List.pairwise_cons.1 hn
      have hab : a = b := by
        refine Decidable.byContradiction fun hne => ?_
        by_cases hlt : Address.before a b = true
        · have := h a
          have hnone : find? a others = none :=
            find?_eq_none_of_forall_before fun e he => Address.before_trans hlt (hb e he)
          simp [find?, hne, hnone] at this
        · have hlt := Address.before_of_not_before hlt hne
          have := h b
          have hnone : find? b rest = none :=
            find?_eq_none_of_forall_before fun e he => Address.before_trans hlt (ha e he)
          simp [find?, Ne.symm hne, hnone] at this
      subst hab
      have hv : value = w := by have := h a; simpa [find?] using this
      subst hv
      congr 1
      refine ih hrest others hothers fun c => ?_
      by_cases hc : c = a
      · subst hc
        rw [find?_eq_none_of_forall_before ha, find?_eq_none_of_forall_before hb]
      · have := h c
        simpa [find?, hc] using this

end AddressMap

end Keyring
