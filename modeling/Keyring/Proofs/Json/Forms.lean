import Keyring.Json.Record
import Keyring.Proofs.Json.Layout
import Mathlib.Data.List.Pairwise
import Mathlib.Tactic.MkIffOfInductiveProp

/-!
# What objects tell about records

The members of a record type are slots: a slot takes the value of the first member of its name, as far as
the value tells one, and nothing after that (`Slot.put`). Slots that are apart do not disturb each other,
so that it makes no difference in which order an object's members come (`Form.take_perm`), and a slot is
filled exactly if its name stands in the object, which it does at most once (`Form.count_take`).
-/

namespace Keyring.Json

/-! ## Slots -/

/-- A member of a record type: where it is kept in what has been read so far, and what a value as it is
written tells of it. -/
structure Slot (ρ : Type) where
  /-- The names that the member may have. -/
  names : List String
  /-- What it is. -/
  Value : Type
  /-- It, if it has been read. -/
  get : ρ → Option Value
  /-- Keeps it. -/
  set : Value → ρ → ρ
  /-- What a value tells of it. -/
  parse : Written → Option Value

namespace Slot

variable {ρ : Type}

/-- Keeps what a value tells, if nothing is kept yet. -/
def put (s : Slot ρ) (w : Written) (parts : ρ) : Option ρ :=
  if (s.get parts).isSome then none else (s.parse w).map fun v => s.set v parts

/-- What a slot that takes a value does. -/
theorem put_eq_some {s : Slot ρ} {w : Written} {parts parts' : ρ} (h : s.put w parts = some parts') :
    s.get parts = none ∧ ∃ v, s.parse w = some v ∧ parts' = s.set v parts := by
  rw [put] at h
  split at h
  · cases h
  · next hempty =>
    obtain ⟨v, hparse, rfl⟩ := Option.map_eq_some_iff.1 h
    exact ⟨by simpa using hempty, v, hparse, rfl⟩

/-- Two slots share no name and are kept in different places. -/
@[mk_iff]
structure Apart (s t : Slot ρ) : Prop where
  disjoint : ∀ name ∈ s.names, name ∉ t.names
  get_set : ∀ v parts, t.get (s.set v parts) = t.get parts
  get_set' : ∀ v parts, s.get (t.set v parts) = s.get parts
  set_set : ∀ v v' parts, t.set v' (s.set v parts) = s.set v (t.set v' parts)

/-- Two slots that are apart are apart either way. -/
theorem Apart.symm {s t : Slot ρ} (h : Apart s t) : Apart t s :=
  ⟨fun name ht hs => h.disjoint name hs ht, h.get_set', h.get_set,
    fun v v' parts => (h.set_set v' v parts).symm⟩

instance : Std.Symm (Apart (ρ := ρ)) := ⟨fun _ _ => Apart.symm⟩

/-- It makes no difference which of two slots takes its value first. -/
theorem Apart.put_comm {s t : Slot ρ} (h : Apart s t) (w w' : Written) (parts : ρ) :
    (s.put w parts).bind (t.put w') = (t.put w' parts).bind (s.put w) := by
  simp only [put]
  cases hs : (s.get parts).isSome <;> cases ht : (t.get parts).isSome <;>
    cases hw : s.parse w <;> cases hw' : t.parse w' <;>
    simp [put, hw, hw', hs, ht, h.get_set, h.get_set', h.set_set]

/-- A slot takes no second value. -/
theorem put_put {s : Slot ρ} (hget : ∀ v parts, s.get (s.set v parts) = some v) (w w' : Written)
    (parts : ρ) : (s.put w parts).bind (s.put w') = none := by
  simp only [put]
  cases (s.get parts).isSome <;> cases s.parse w <;> simp [put, hget]

end Slot

/-! ## Forms -/

/-- The slots of a record type. What a slot has taken can be got from it. -/
structure Form (ρ : Type) where
  slots : List (Slot ρ)
  get_set : ∀ s ∈ slots, ∀ v parts, s.get (s.set v parts) = some v
  apart : slots.Pairwise Slot.Apart

namespace Form

variable {ρ α : Type} (form : Form ρ)

/-- The slot that a name stands for. -/
def find? (name : String) : Option (Slot ρ) :=
  form.slots.find? fun s => name ∈ s.names

/-- Takes a member: its name has to be a string, and if no slot has this name it is passed over. -/
def takeEntry (parts : ρ) (entry : Option String × Written) : Option ρ :=
  entry.1.bind fun name =>
    match form.find? name with
    | none => some parts
    | some s => s.put entry.2 parts

/-- Takes members, one after the other. -/
def take (entries : List (Option String × Written)) (parts : ρ) : Option ρ :=
  entries.foldlM form.takeEntry parts

/-- Takes the items of a list, each into the next slot, and no more of them than there are slots. -/
def takeItems : List (Slot ρ) → Items → ρ → Option ρ
  | _, .nil, parts => some parts
  | [], .cons .., _ => none
  | s :: slots, .cons _ w _ items, parts =>
    (s.parse w).bind fun v => takeItems slots items (s.set v parts)

/-- The record that a value tells: an object by its members, and a list by its items. -/
def read? (record : Record ρ α) : Written → Option α
  | .object _ members =>
    (form.take members.entries record.empty).bind fun parts => (record.build parts).toOption
  | .list _ items =>
    (takeItems form.slots items record.empty).bind fun parts => (record.build parts).toOption
  | _ => none

variable {form}

/-- A slot that is found by a name is one of the form's, and has the name. -/
theorem mem_of_find? {name : String} {s : Slot ρ} (h : form.find? name = some s) :
    s ∈ form.slots ∧ name ∈ s.names :=
  ⟨List.mem_of_find?_eq_some h, by simpa using List.find?_some h⟩

/-- Different slots of a form are apart. -/
theorem apart_of_ne {s t : Slot ρ} (hs : s ∈ form.slots) (ht : t ∈ form.slots) (h : s ≠ t) :
    Slot.Apart s t :=
  form.apart.forall hs ht h

/-! ## The order of the members -/

/-- Entries may be taken in either order. -/
theorem takeEntry_comm (e e' : Option String × Written) (parts : ρ) :
    (form.takeEntry parts e).bind (form.takeEntry · e') =
      (form.takeEntry parts e').bind (form.takeEntry · e) := by
  obtain ⟨name, w⟩ := e
  obtain ⟨name', w'⟩ := e'
  cases name with
  | none => simp [takeEntry]
  | some name =>
    cases name' with
    | none => simp [takeEntry]
    | some name' =>
      cases hs : form.find? name with
      | none => simp [takeEntry, hs]
      | some s =>
        cases ht : form.find? name' with
        | none => simp [takeEntry, hs, ht]
        | some t =>
          simp only [takeEntry, hs, ht, Option.bind_some]
          have hs := (mem_of_find? hs).1
          have ht := (mem_of_find? ht).1
          by_cases heq : s = t
          · subst heq
            rw [Slot.put_put (form.get_set s hs), Slot.put_put (form.get_set s hs)]
          · exact (apart_of_ne hs ht heq).put_comm w w' parts

/-- It makes no difference in which order members come. -/
theorem take_perm {entries entries' : List (Option String × Written)} (h : entries.Perm entries')
    (parts : ρ) : form.take entries parts = form.take entries' parts := by
  induction h generalizing parts with
  | nil => rfl
  | cons e _ ih =>
    simp only [take, List.foldlM_cons]
    exact congrArg _ (funext ih)
  | swap e e' entries =>
    simp only [take, List.foldlM_cons, ← bind_assoc]
    exact congrArg (· >>= _) (takeEntry_comm e' e parts)
  | trans _ _ ih ih' => exact (ih parts).trans (ih' parts)

/-- Entries are taken one list after the other. -/
theorem take_append (entries entries' : List (Option String × Written)) (parts : ρ) :
    form.take (entries ++ entries') parts =
      (form.take entries parts).bind (form.take entries') :=
  List.foldlM_append ..

/-- Members that no slot has a name for are passed over. -/
theorem take_extras {extras : List (Option String × Written)}
    (h : ∀ e ∈ extras, ∃ name, e.1 = some name ∧ form.find? name = none) (parts : ρ) :
    form.take extras parts = some parts := by
  induction extras with
  | nil => rfl
  | cons e extras ih =>
    obtain ⟨name, hname, hfind⟩ := h e (List.mem_cons_self ..)
    have hstep : form.takeEntry parts e = some parts := by simp [takeEntry, hname, hfind]
    rw [take, List.foldlM_cons, hstep]
    exact ih fun e he => h e (List.mem_cons_of_mem _ he)

/-! ## Members that are given -/

/-- An entry is what a field asks for. -/
abbrev Fits (entry : Option String × Written) (field : String × (Written → Prop)) : Prop :=
  entry.1 = some field.1 ∧ field.2 entry.2

/-- The next member is the slot's own, which is empty and takes the value. -/
theorem take_field {field : String × (Written → Prop)} {fields : List (String × (Written → Prop))}
    {s : Slot ρ} {v : s.Value} {parts result : ρ} (hfind : form.find? field.1 = some s)
    (hempty : s.get parts = none) (hparse : ∀ w, field.2 w → s.parse w = some v)
    (hrest : ∀ declared, List.Forall₂ Fits declared fields →
      form.take declared (s.set v parts) = some result) :
    ∀ declared, List.Forall₂ Fits declared (field :: fields) → form.take declared parts = some result := by
  intro declared h
  cases h with
  | @cons entry _ declared _ hfits hmore =>
    obtain ⟨name, w⟩ := entry
    obtain ⟨hname, hvalue⟩ := hfits
    have hstep : form.takeEntry parts (name, w) = some (s.set v parts) := by
      simp only at hname hvalue
      simp [takeEntry, hname, hfind, Slot.put, hempty, hparse w hvalue]
    rw [take, List.foldlM_cons, hstep]
    exact hrest declared hmore

/-- Where no member is declared, there is nothing to take. -/
theorem take_noFields {parts : ρ} :
    ∀ declared, List.Forall₂ Fits declared [] → form.take declared parts = some parts := by
  intro declared h
  cases h
  rfl

/-- An object tells the record of the members that it has, whatever stands among them. -/
theorem read?_of_hasMembers {record : Record ρ α} {fields : List (String × (Written → Prop))}
    {names : List String} {IsExtra : Written → Prop} {w : Written} {parts : ρ} {a : α}
    (h : w.HasMembers fields names IsExtra) (hnames : ∀ s ∈ form.slots, ∀ name ∈ s.names, name ∈ names)
    (htake : ∀ declared, List.Forall₂ Fits declared fields →
      form.take declared record.empty = some parts)
    (hbuild : record.build parts = .ok a) : form.read? record w = some a := by
  obtain ⟨blanks, members, declared, extras, rfl, hperm, hdeclared, hextras⟩ := h
  have hpassed (parts : ρ) : form.take extras parts = some parts := by
    refine take_extras (fun e he => ?_) parts
    obtain ⟨name, hname, hother, -⟩ := hextras e he
    refine ⟨name, hname, List.find?_eq_none.2 fun s hs hmem => ?_⟩
    exact hother (hnames s hs name (by simpa using hmem))
  rw [read?, take_perm hperm, take_append, htake declared hdeclared, Option.bind_some, hpassed,
    Option.bind_some, hbuild]
  rfl

/-! ## Which slots are filled -/

section
variable {s : Slot ρ} (hs : s ∈ form.slots) {parts parts' : ρ}
include hs

/-- A member that is taken is the slot's own, and fills it, or leaves it as it was. -/
theorem takeEntry_cases {e : Option String × Written} (h : form.takeEntry parts e = some parts') :
    (isNamed s.names e = true ∧ s.get parts = none ∧
        ∃ v, s.parse e.2 = some v ∧ s.get parts' = some v) ∨
      (isNamed s.names e = false ∧ s.get parts' = s.get parts) := by
  obtain ⟨name, w⟩ := e
  cases name with
  | none => cases h
  | some name =>
    simp only [takeEntry, Option.bind_some] at h
    simp only [isNamed, Option.any_some, decide_eq_true_eq, decide_eq_false_iff_not]
    cases hfind : form.find? name with
    | none =>
      rw [hfind] at h
      cases h
      have hnone := List.find?_eq_none.1 hfind s hs
      exact .inr ⟨by simpa using hnone, rfl⟩
    | some t =>
      rw [hfind] at h
      obtain ⟨ht, hname⟩ := mem_of_find? hfind
      obtain ⟨hempty, v, hparse, rfl⟩ := Slot.put_eq_some h
      by_cases heq : s = t
      · subst heq
        exact .inl ⟨hname, hempty, v, hparse, form.get_set s hs v parts⟩
      · have hapart := apart_of_ne ht hs (Ne.symm heq)
        exact .inr ⟨fun h => hapart.disjoint name hname h, hapart.get_set v parts⟩

/-- Every member that a slot owns tells a value of it. -/
theorem parse_of_take {entries : List (Option String × Written)}
    (h : form.take entries parts = some parts') {e : Option String × Written} (he : e ∈ entries)
    (hname : isNamed s.names e = true) : ∃ v, s.parse e.2 = some v := by
  induction entries generalizing parts with
  | nil => cases he
  | cons e' entries ih =>
    obtain ⟨parts₁, hstep, hrest⟩ := Option.bind_eq_some_iff.1 h
    rcases List.mem_cons.1 he with rfl | he
    · rcases takeEntry_cases hs hstep with ⟨-, -, v, hparse, -⟩ | ⟨hother, -⟩
      · exact ⟨v, hparse⟩
      · exact absurd (hname.symm.trans hother) nofun
    · exact ih hrest he

/-- A slot is filled by one member, or has been filled before. -/
theorem count_take {entries : List (Option String × Written)}
    (h : form.take entries parts = some parts') :
    entries.countP (isNamed s.names) + (s.get parts).toList.length = (s.get parts').toList.length := by
  induction entries generalizing parts with
  | nil =>
    cases h
    simp
  | cons e entries ih =>
    obtain ⟨parts₁, hstep, hrest⟩ := Option.bind_eq_some_iff.1 h
    have hcount := ih hrest
    rcases takeEntry_cases hs hstep with ⟨hname, hempty, v, -, hfull⟩ | ⟨hother, hsame⟩
    · rw [hfull] at hcount
      simpa [hname, hempty] using hcount
    · rw [hsame] at hcount
      simpa [hother] using hcount

end

/-- An object that is read has every member that it has to have once, and none twice. -/
theorem not_isAmiss {record : Record ρ α} {blanks : List Blank} {members : Members}
    {required optional : List (List String)} {a : α}
    (h : form.read? record (.object blanks members) = some a)
    (hslots : ∀ names ∈ required ++ optional,
      ∃ s ∈ form.slots, s.names = names ∧ s.get record.empty = none)
    (hrequired : ∀ parts, record.build parts = .ok a →
      ∀ s ∈ form.slots, s.names ∈ required → (s.get parts).isSome) :
    ¬ members.IsAmiss required optional := by
  obtain ⟨parts, htake, hbuild⟩ := Option.bind_eq_some_iff.1 h
  have hbuild : record.build parts = .ok a := by
    cases hresult : record.build parts with
    | ok b =>
      rw [hresult] at hbuild
      cases hbuild
      rfl
    | error name =>
      rw [hresult] at hbuild
      cases hbuild
  rintro (⟨names, hnames, hmissing⟩ | ⟨names, hnames, hrepeated⟩)
  · obtain ⟨s, hs, rfl, hempty⟩ := hslots names (List.mem_append_left _ hnames)
    have hcount := count_take hs htake
    obtain ⟨v, hv⟩ := Option.isSome_iff_exists.1 (hrequired parts hbuild s hs hnames)
    rw [← Members.count, hmissing, hempty, hv] at hcount
    cases hcount
  · obtain ⟨s, hs, rfl, hempty⟩ := hslots names hnames
    have hcount := count_take hs htake
    rw [← Members.count, hempty] at hcount
    cases hget : s.get parts <;> rw [hget] at hcount <;> simp at hcount <;> omega

end Form

end Keyring.Json
