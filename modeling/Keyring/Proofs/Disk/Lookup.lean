import Keyring.Disk.Lookup

/-!
# Looking up what is in a directory

A path that leads to a directory, joined with a plain name, leads to the entry of that name
(`Disk.locate_joinName`). Where a path leads depends only on the directories: a change that keeps all
directories keeps it leading to the same one (`Disk.LeadsTo.mono`).
-/

namespace Keyring

/-! ## Parts of joined paths -/

namespace Path

/-- A path has at least one part. -/
theorem split_ne_nil (bytes : Bytes) : split bytes ≠ [] := by
  cases bytes with
  | nil => exact List.cons_ne_nil _ _
  | cons b bytes =>
    rw [split]
    split
    · exact List.cons_ne_nil _ _
    · split <;> exact List.cons_ne_nil _ _

/-- A slash separates the parts before it from those after it. -/
theorem split_append (a b : Bytes) : split (a ++ slash :: b) = split a ++ split b := by
  induction a with
  | nil => simp [split]
  | cons c a ih =>
    rw [List.cons_append, split, split]
    by_cases h : c = slash
    · simp [h, ih]
    · simp only [h, if_false, ih]
      cases hsplit : split a with
      | nil => exact absurd hsplit (split_ne_nil a)
      | cons part parts => rfl

/-- Without a slash there is one part. -/
theorem split_of_not_mem {bytes : Bytes} (h : slash ∉ bytes) : split bytes = [bytes] := by
  induction bytes with
  | nil => rfl
  | cons b bytes ih =>
    rw [List.mem_cons, not_or] at h
    rw [split, if_neg (Ne.symm h.1), ih h.2]

/-- A name that a directory's entry can have and that is looked up as it is. -/
structure Plain (name : Name) : Prop where
  ne_nil : name ≠ []
  ne_dot : name ≠ [0x2e]
  ne_dots : name ≠ [0x2e, 0x2e]
  no_slash : slash ∉ name
  no_null : 0 ∉ name
  short : name.length ≤ Standpoint.maxNameLength

/-- A plain name is no absolute path. -/
theorem Plain.not_isAbsolute {name : Name} (h : Plain name) : (⟨name⟩ : Path).isAbsolute = false := by
  cases name with
  | nil => rfl
  | cons b name =>
    have hb : b ≠ slash := fun hb => h.no_slash (hb ▸ List.mem_cons_self)
    simp [isAbsolute, hb]

/-- The bytes of a joined path: a slash is put between unless the path ends in one. -/
theorem bytes_joinName {p : Path} (hp : p.bytes ≠ []) {name : Name} (hname : Plain name) :
    (p.joinName name).bytes =
      if p.bytes.getLast? = some slash then p.bytes ++ name else p.bytes ++ slash :: name := by
  rw [joinName, join, hname.not_isAbsolute]
  simp only [Bool.false_eq_true, if_false, hp, false_or]
  split <;> rfl

/-- The parts of a joined path are those of the path, perhaps without an empty last one, and the name. -/
theorem split_joinName {p : Path} (hp : p.bytes ≠ []) {name : Name} (hname : Plain name) :
    ∃ parts, (split p.bytes = parts ∨ split p.bytes = parts ++ [[]]) ∧
      split (p.joinName name).bytes = parts ++ [name] := by
  have hsplit := split_of_not_mem hname.no_slash
  rw [bytes_joinName hp hname]
  split
  · next hlast =>
    obtain ⟨before, hbefore⟩ := List.getLast?_eq_some_iff.1 hlast
    refine ⟨split before, .inr ?_, ?_⟩
    · rw [hbefore, split_append]
      rfl
    · rw [hbefore, List.append_assoc, List.singleton_append, split_append, hsplit]
  · exact ⟨split p.bytes, .inl rfl, by rw [split_append, hsplit]⟩

/-- A path with a plain name behind it is absolute exactly if it was. -/
theorem isAbsolute_joinName {p : Path} (hp : p.bytes ≠ []) {name : Name} (hname : Plain name) :
    (p.joinName name).isAbsolute = p.isAbsolute := by
  unfold isAbsolute
  rw [bytes_joinName hp hname]
  cases hbytes : p.bytes with
  | nil => exact absurd hbytes hp
  | cons b bytes => split <;> rfl

/-- A name that a path can be joined with may be looked up, except where that makes the path too long. -/
theorem joinName_ne_nil {p : Path} (hp : p.bytes ≠ []) {name : Name} (hname : Plain name) :
    (p.joinName name).bytes ≠ [] := by
  rw [bytes_joinName hp hname]
  split <;> simp [hp]

end Path

/-! ## Following parts -/

/-- A plain name is entered from any directory. -/
theorem Standpoint.enter_plain {name : Name} (h : Path.Plain name) (place : Place) :
    Standpoint.enter ⟨place, 0⟩ name = .ok ⟨name :: place, 0⟩ := by
  have hshort := h.short
  simp only [enter, h.ne_nil, h.ne_dot, h.ne_dots, or_self, if_false, Nat.lt_irrefl]
  rw [if_neg (Nat.not_lt.2 hshort)]

namespace Disk

section
variable {disk : Disk} {s t : Standpoint} {m : Nat} {parts : List Bytes}

/-- What parts lead to is what is at that place. -/
theorem follow_node {target : Target} (h : disk.follow s parts = .ok target) :
    target.node = disk.nodeAt target.standpoint := by
  induction parts generalizing s with
  | nil =>
    rw [follow] at h
    cases h
    rfl
  | cons part parts ih =>
    rw [follow] at h
    split at h
    · split at h
      · exact ih h
      · cases h
    · cases h
    · next hnone =>
      split at h
      · cases h
        exact hnone.symm
      · cases h

/-- Parts that lead to a directory are followed by going on from there. -/
theorem follow_append (h : disk.follow s parts = .ok ⟨t, some (.directory m)⟩) (more : List Bytes) :
    disk.follow s (parts ++ more) = disk.follow t more := by
  induction parts generalizing s with
  | nil =>
    rw [follow] at h
    injection h with h
    injection h with hs
    rw [hs, List.nil_append]
  | cons part parts ih =>
    rw [List.cons_append, follow]
    rw [follow] at h
    split at h
    · split at h
      · exact ih h
      · cases h
    · cases h
    · split at h <;> cases h

/-- An empty last part leads to the same directory. -/
theorem follow_of_slash (h : disk.follow s (parts ++ [[]]) = .ok ⟨t, some (.directory m)⟩) :
    disk.follow s parts = .ok ⟨t, some (.directory m)⟩ := by
  induction parts generalizing s with
  | nil =>
    rw [List.nil_append, follow] at h
    split at h
    · exact h
    · cases h
    · split at h <;> cases h
  | cons part parts ih =>
    rw [List.cons_append, follow] at h
    rw [follow]
    split at h
    · split at h
      · exact ih h
      · cases h
    · cases h
    · split at h <;> cases h

/-- What is followed to a directory stays so where all directories stay. -/
theorem follow_mono {disk' : Disk}
    (hkeep : ∀ place m, disk.get? place = some (.directory m) →
      disk'.get? place = some (.directory m))
    (h : disk.follow s parts = .ok ⟨t, some (.directory m)⟩) :
    disk'.follow s parts = .ok ⟨t, some (.directory m)⟩ := by
  have hnode (s : Standpoint) (m : Nat) (hs : disk.nodeAt s = some (.directory m)) :
      disk'.nodeAt s = some (.directory m) := by
    unfold nodeAt at hs ⊢
    split at hs
    · next hremoved => rw [if_pos hremoved]; exact hkeep _ _ hs
    · next hremoved => rw [if_neg hremoved]; exact hs
  induction parts generalizing s with
  | nil =>
    rw [follow] at h ⊢
    injection h with h
    injection h with hs hm
    subst hs
    rw [hnode _ _ hm]
  | cons part parts ih =>
    rw [follow] at h ⊢
    split at h
    · next hdirectory =>
      rw [hnode _ _ hdirectory]
      split at h
      · exact ih h
      · cases h
    · cases h
    · split at h <;> cases h

end

/-! ## Directories -/

/-- The path leads to the directory at a place. -/
def LeadsTo (disk : Disk) (p : Path) (place : Place) : Prop :=
  ∃ m, disk.locate p = .ok ⟨⟨place, 0⟩, some (.directory m)⟩

section
variable {disk : Disk} {p : Path} {place : Place}

/-- A path that leads somewhere passes the checks and is followed there. -/
theorem locate_ok {target : Target} (h : disk.locate p = .ok target) :
    checkPath p = .ok () ∧ p.bytes ≠ [] ∧
      disk.follow (if p.isAbsolute then ⟨[], 0⟩ else disk.work) (Path.split p.bytes) = .ok target := by
  unfold locate at h
  cases hcheck : checkPath p with
  | error e => rw [hcheck] at h; cases h
  | ok =>
    rw [hcheck] at h
    by_cases hp : p.bytes = []
    · simp [hp, Bind.bind, Except.bind, throw, throwThe, MonadExceptOf.throw] at h
    · simp only [hp, if_false] at h
      exact ⟨rfl, hp, h⟩

/-- A path that is followed is followed part by part, from the root if it is absolute. -/
theorem locate_eq (hcheck : checkPath p = .ok ()) (hp : p.bytes ≠ []) :
    disk.locate p =
      disk.follow (if p.isAbsolute then ⟨[], 0⟩ else disk.work) (Path.split p.bytes) := by
  unfold locate
  rw [hcheck]
  simp only [hp, if_false]
  rfl

/-- A path leads to one place. -/
theorem LeadsTo.unique {other : Place} (h : disk.LeadsTo p place) (hother : disk.LeadsTo p other) :
    place = other := by
  obtain ⟨m, h⟩ := h
  obtain ⟨m', hother⟩ := hother
  rw [h] at hother
  cases hother
  rfl

/-- The directory stays where its path leads if all directories stay. -/
theorem LeadsTo.mono {disk' : Disk} (h : disk.LeadsTo p place)
    (hkeep : ∀ place m, disk.get? place = some (.directory m) →
      disk'.get? place = some (.directory m)) (hwork : disk'.work = disk.work) :
    disk'.LeadsTo p place := by
  obtain ⟨m, h⟩ := h
  obtain ⟨hcheck, hp, hfollow⟩ := locate_ok h
  refine ⟨m, ?_⟩
  rw [locate_eq hcheck hp, hwork]
  exact follow_mono hkeep hfollow

/-- The path of a directory, joined with a name, leads to the entry of that name. -/
theorem locate_joinName (h : disk.LeadsTo p place) {name : Name} (hname : Path.Plain name)
    (hcheck : checkPath (p.joinName name) = .ok ()) :
    disk.locate (p.joinName name) = .ok ⟨⟨name :: place, 0⟩, disk.get? (name :: place)⟩ := by
  obtain ⟨m, h⟩ := h
  obtain ⟨-, hp, hfollow⟩ := locate_ok h
  obtain ⟨parts, hparts, hsplit⟩ := Path.split_joinName hp hname
  have hparts : disk.follow (if p.isAbsolute then ⟨[], 0⟩ else disk.work) parts =
      .ok ⟨⟨place, 0⟩, some (.directory m)⟩ := by
    rcases hparts with heq | heq
    · rwa [heq] at hfollow
    · rw [heq] at hfollow
      exact follow_of_slash hfollow
  have hnode : disk.nodeAt ⟨place, 0⟩ = some (.directory m) := (follow_node hparts).symm
  rw [locate_eq hcheck (Path.joinName_ne_nil hp hname), Path.isAbsolute_joinName hp hname, hsplit,
    follow_append hparts, follow, hnode]
  simp only [Standpoint.enter_plain hname]
  rfl

end

end Disk

end Keyring
