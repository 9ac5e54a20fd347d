import Keyring.Disk.Change
import Keyring.Proofs.Disk.Lookup

/-!
# The entries of a directory

What is read, made and removed by the path of a directory's entry, told by what is at the entry's place.
A listing tells each name once, whatever its order (`Disk.mem_names_iff`, `Disk.nodup_names`), so that two
listings of the same names are rearrangements of each other (`Disk.names_put`, `Disk.names_erase`). Neither a
new entry nor a removed one moves a directory, so that the directory stays where its path leads.
-/

namespace Keyring.Disk

/-! ## Names -/

section
variable {disk : Disk} {place : Place} {name : Name}

/-- A place is among those of the nodes exactly if something is found there. -/
theorem mem_places_iff {nodes : List (Place × Node)} :
    place ∈ nodes.map (·.1) ↔ (find? place nodes).isSome = true := by
  induction nodes with
  | nil => simp [find?]
  | cons head rest ih =>
    obtain ⟨other, node⟩ := head
    by_cases h : place = other
    · simp [find?, h]
    · simp only [List.map_cons, List.mem_cons, h, false_or, find?, if_false]
      exact ih

/-- Listings tell the names of the places in the directory, in some order. -/
theorem names_perm (disk : Disk) (place : Place) :
    (disk.names place).Perm ((disk.nodes.map (·.1)).filterMap (nameIn? place)) := by
  rw [List.filterMap_map]
  exact (disk.orders 0).perm _

/-- A place has a name in a directory exactly if it is the entry of that name. -/
theorem nameIn?_eq_some_iff {other : Place} : nameIn? place other = some name ↔ other = name :: place := by
  unfold nameIn?
  split
  · next parent =>
    by_cases h : parent = place
    · simp [h]
    · simp [h]
  · simp

/-- The names of the entries are those at which there is something. -/
theorem mem_names_iff : name ∈ disk.names place ↔ (disk.get? (name :: place)).isSome = true := by
  have hmem : name ∈ disk.names place ↔ name :: place ∈ disk.nodes.map (·.1) := by
    rw [(names_perm disk place).mem_iff, List.mem_filterMap]
    constructor
    · rintro ⟨other, hother, hname⟩
      rwa [← nameIn?_eq_some_iff.1 hname]
    · exact fun h => ⟨_, h, nameIn?_eq_some_iff.2 rfl⟩
  rw [hmem, mem_places_iff, get?, if_neg (List.cons_ne_nil _ _)]

/-- A name is not listed exactly if there is nothing under it. -/
theorem not_mem_names_iff : name ∉ disk.names place ↔ disk.get? (name :: place) = none := by
  rw [mem_names_iff, Bool.not_eq_true, Option.isSome_eq_false_iff, Option.isNone_iff_eq_none]

/-- The names of the entries differ. -/
theorem nodup_names (disk : Disk) (place : Place) : (disk.names place).Nodup := by
  rw [(names_perm disk place).nodup_iff]
  refine List.Pairwise.filterMap _ (fun a b hab name ha other hb hname => hab ?_) disk.distinct
  subst hname
  rw [nameIn?_eq_some_iff] at ha hb
  rw [ha, hb]

/-- What is listed after a change are the names of the entries that are there then. -/
theorem names_perm_of_mem_iff {other : Disk} {names : List Name} (hnodup : names.Nodup)
    (hnames : ∀ name, name ∈ names ↔ (other.get? (name :: place)).isSome = true) :
    (other.names place).Perm names :=
  (List.perm_ext_iff_of_nodup (nodup_names other place) hnodup).2 fun name =>
    mem_names_iff.trans (hnames name).symm

/-- A new entry is listed besides the others. -/
theorem names_put (h : disk.get? (name :: place) = none) (node : Node) :
    ((disk.put (name :: place) node).names place).Perm (name :: disk.names place) := by
  have hnodup : (name :: disk.names place).Nodup :=
    List.nodup_cons.2 ⟨not_mem_names_iff.2 h, nodup_names disk place⟩
  refine names_perm_of_mem_iff hnodup fun other => ?_
  rw [List.mem_cons, mem_names_iff, get?_put _ _ _ _ (List.cons_ne_nil _ _)]
  by_cases hother : other = name
  · simp [hother]
  · simp [hother]

/-- Names that are listed by their age stay so. -/
theorem orders_put_byAge (horders : disk.orders = fun _ => .byAge) (place : Place) (node : Node) :
    (disk.put place node).orders = fun _ => .byAge := by
  funext changes
  exact congrFun horders (changes + 1)

/-- Where names are listed by their age, a new entry is listed last. -/
theorem names_put_byAge (horders : disk.orders = fun _ => .byAge)
    (h : disk.get? (name :: place) = none) (node : Node) :
    (disk.put (name :: place) node).names place = disk.names place ++ [name] := by
  have hnew : ¬ name :: place ∈ disk.nodes.map (·.1) := by
    rw [mem_places_iff, Bool.not_eq_true, Option.isSome_eq_false_iff, Option.isNone_iff_eq_none]
    simpa [get?] using h
  have hnames {other : Disk} (hother : other.orders = fun _ => .byAge) :
      other.names place = (other.nodes.map (·.1)).filterMap (nameIn? place) := by
    rw [names, hother, List.filterMap_map]
    rfl
  rw [hnames (orders_put_byAge horders _ _), hnames horders, put, places_putNode, if_neg hnew,
    List.filterMap_append]
  simp [nameIn?]

/-- The others are listed without an entry that is removed. -/
theorem names_erase (disk : Disk) (name : Name) (place : Place) :
    ((disk.erase (name :: place)).names place).Perm ((disk.names place).filter (· ≠ name)) := by
  refine names_perm_of_mem_iff ((nodup_names disk place).filter _) fun other => ?_
  rw [List.mem_filter, mem_names_iff, get?_erase _ _ _ (List.cons_ne_nil _ _)]
  by_cases hother : other = name
  · simp [hother]
  · simp [hother]

end

/-! ## Paths of entries -/

section
variable {disk : Disk} {p : Path} {place : Place} {name : Name}

/-- The names in a directory are listed. -/
theorem list_eq (h : disk.LeadsTo p place) : disk.list p = .ok (disk.names place) := by
  obtain ⟨m, h⟩ := h
  rw [list, h]
  rfl

/-- Names are listed only where the path leads to a directory. -/
theorem leadsTo_of_list {names : List Name} {name : Name} (h : disk.list p = .ok (name :: names)) :
    ∃ place, disk.LeadsTo p place := by
  unfold list at h
  cases hlocate : disk.locate p with
  | error e => rw [hlocate] at h; cases h
  | ok target =>
    rw [hlocate] at h
    obtain ⟨⟨place, removed⟩, node⟩ := target
    cases node with
    | none => cases h
    | some node =>
      cases node with
      | file mode content => cases h
      | directory mode =>
        cases removed with
        | zero => exact ⟨place, mode, hlocate⟩
        | succ removed => cases h

/-- A new entry is made where there is none. -/
theorem create_eq (h : disk.LeadsTo p place) (hname : Path.Plain name)
    (hcheck : checkPath (p.joinName name) = .ok ()) (mode : Nat) (content : Bytes) :
    disk.create (p.joinName name) mode content =
      match disk.get? (name :: place) with
      | some _ => .error .entryExists
      | none => .ok (disk.put (name :: place) (.file mode content)) := by
  rw [create, make, locate_joinName h hname hcheck]
  rfl

/-- An entry is read if it is a file. -/
theorem read_eq (h : disk.LeadsTo p place) (hname : Path.Plain name)
    (hcheck : checkPath (p.joinName name) = .ok ()) :
    disk.read (p.joinName name) =
      match disk.get? (name :: place) with
      | some (.file _ content) => .ok content
      | some (.directory _) => .error .isDirectory
      | none => .error .noEntry := by
  rw [read, locate_joinName h hname hcheck]
  rfl

/-- An entry is removed if it is a file. -/
theorem remove_eq (h : disk.LeadsTo p place) (hname : Path.Plain name)
    (hcheck : checkPath (p.joinName name) = .ok ()) :
    disk.remove (p.joinName name) =
      match disk.get? (name :: place) with
      | some (.file _ _) => .ok (disk.erase (name :: place))
      | some (.directory _) => .error .isDirectory
      | none => .error .noEntry := by
  rw [remove, locate_joinName h hname hcheck]
  rfl

/-- A path that is refused leads nowhere. -/
theorem locate_refused {e : IoError} (hcheck : checkPath p = .error e) : disk.locate p = .error e := by
  rw [locate, hcheck]
  rfl

/-- What was made was not there. -/
theorem of_create_ok (h : disk.LeadsTo p place) (hname : Path.Plain name) {mode : Nat}
    {content : Bytes} {disk' : Disk}
    (hcreate : disk.create (p.joinName name) mode content = .ok disk') :
    checkPath (p.joinName name) = .ok () ∧ disk.get? (name :: place) = none ∧
      disk' = disk.put (name :: place) (.file mode content) := by
  cases hcheck : checkPath (p.joinName name) with
  | error e =>
    rw [create, make, locate_refused hcheck] at hcreate
    cases hcreate
  | ok =>
    rw [create_eq h hname hcheck] at hcreate
    cases hnode : disk.get? (name :: place) with
    | some node => rw [hnode] at hcreate; cases hcreate
    | none => rw [hnode] at hcreate; cases hcreate; exact ⟨rfl, rfl, rfl⟩

/-- What was removed was a file. -/
theorem of_remove_ok (h : disk.LeadsTo p place) (hname : Path.Plain name) {disk' : Disk}
    (hremove : disk.remove (p.joinName name) = .ok disk') :
    checkPath (p.joinName name) = .ok () ∧
      (∃ mode content, disk.get? (name :: place) = some (.file mode content)) ∧
      disk' = disk.erase (name :: place) := by
  cases hcheck : checkPath (p.joinName name) with
  | error e =>
    rw [remove, locate_refused hcheck] at hremove
    cases hremove
  | ok =>
    rw [remove_eq h hname hcheck] at hremove
    cases hnode : disk.get? (name :: place) with
    | none => rw [hnode] at hremove; cases hremove
    | some node =>
      rw [hnode] at hremove
      cases node with
      | file mode content => cases hremove; exact ⟨rfl, ⟨mode, content, rfl⟩, rfl⟩
      | directory _ => cases hremove

/-- A directory stays where it is when something is made where nothing was. -/
theorem LeadsTo.put {other : Place} (h : disk.LeadsTo p place) (hother : other ≠ [])
    (hnone : disk.get? other = none) (node : Node) : (disk.put other node).LeadsTo p place := by
  refine h.mono (fun here m hhere => ?_) rfl
  rw [get?_put _ _ _ _ hother]
  split
  · next heq => rw [heq, hnone] at hhere; cases hhere
  · exact hhere

/-- A directory stays where it is when a file is removed. -/
theorem LeadsTo.erase {other : Place} (h : disk.LeadsTo p place) (hother : other ≠ []) {mode : Nat}
    {content : Bytes} (hfile : disk.get? other = some (.file mode content)) :
    (disk.erase other).LeadsTo p place := by
  refine h.mono (fun here m hhere => ?_) rfl
  rw [get?_erase _ _ _ hother]
  split
  · next heq => rw [heq, hfile] at hhere; cases hhere
  · exact hhere

end

end Keyring.Disk
