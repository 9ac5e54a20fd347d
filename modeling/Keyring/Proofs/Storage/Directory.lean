import Keyring.Storage.Directory
import Keyring.Proofs.Disk.Entries
import Keyring.Proofs.Keyfile.Name
import Keyring.Proofs.Storage.Effects

/-!
# Keyfiles in a directory: what each operation does

The operations on the keyfiles of a directory, told by the names of its entries and by what is at their
places. A name counts as a keyfile of the account that it tells, in whatever case its digits are
(`Keyfile.addressIn?`), and its path has room exactly if the paths of all other keyfiles have
(`Directory.HasRoom`).
-/

namespace Keyring

/-! ## Names that tell accounts -/

namespace Keyfile

/-- The account that a name tells. -/
def addressIn? (name : Name) : Option Address :=
  (Utf8.decode? name).bind addressOfName?

/-- The name of an address's keyfile, as bytes. -/
def entryName (address : Address) : Name :=
  Utf8.encode (name address)

/-- The canonical name of a keyfile tells the address. -/
@[simp] theorem addressIn?_entryName (address : Address) :
    addressIn? (entryName address) = some address := by
  rw [addressIn?, entryName, Utf8.decode?_encode, Option.bind_some, addressOfName?_name]

/-- So different accounts have different canonical names. -/
theorem entryName_injective {a b : Address} (h : entryName a = entryName b) : a = b := by
  have hname := addressIn?_entryName a
  rw [h, addressIn?_entryName] at hname
  exact (Option.some.inj hname).symm

/-- The keyfiles of different accounts are at different places. -/
theorem entryName_cons_ne {a b : Address} (h : a ≠ b) (place : Place) :
    entryName a :: place ≠ entryName b :: place := by
  intro heq
  injection heq with heq
  exact h (entryName_injective heq)

section
variable {name : Name} {address : Address}

/-- A name that tells an address is a text that does. -/
theorem exists_of_addressIn? (h : addressIn? name = some address) :
    ∃ text, name = Utf8.encode text ∧ addressOfName? text = some address := by
  rw [addressIn?, Option.bind_eq_some_iff] at h
  obtain ⟨text, htext, haddress⟩ := h
  exact ⟨text, Utf8.decode?_eq_some_iff.1 htext, haddress⟩

/-- A name tells the account whatever the case of its digits is. -/
theorem addressIn?_of_spells {digits : List Char} (h : Hex.Spells digits address.toBytes) :
    addressIn? (Utf8.encode (String.ofList (nameStart ++ digits ++ nameEnd))) = some address := by
  rw [addressIn?, Utf8.decode?_encode, Option.bind_some, addressOfName?_eq_some_iff]
  exact ⟨digits, String.toList_ofList, Hex.decode?_of_spells h⟩

/-- The name of an address's keyfile with its digits as capitals. -/
def capitalName (address : Address) : Name :=
  Utf8.encode (String.ofList (nameStart ++ Hex.capitals address.toBytes ++ nameEnd))

/-- The name in capitals tells the address, too. -/
theorem addressIn?_capitalName (address : Address) : addressIn? (capitalName address) = some address :=
  addressIn?_of_spells (Hex.spells_capitals address.toBytes)

/-- A name that tells an account is looked up as it is. -/
theorem plain_of_addressIn? (h : addressIn? name = some address) : Path.Plain name := by
  obtain ⟨text, rfl, htext⟩ := exists_of_addressIn? h
  exact plain_of_addressOfName? htext

/-- A canonical name is a plain one. -/
theorem plain_entryName (address : Address) : Path.Plain (entryName address) :=
  plain_of_addressIn? (addressIn?_entryName address)

/-- The names that tell accounts are all of one length. -/
theorem length_of_addressIn? (h : addressIn? name = some address) : name.length = 63 := by
  obtain ⟨text, rfl, htext⟩ := exists_of_addressIn? h
  obtain ⟨hlength, hchars⟩ := chars_of_addressOfName? htext
  rw [Utf8.encode, encode_of_ascii fun c hc => (hchars c hc).2.1, List.length_map, hlength]

end

end Keyfile

open Keyfile (addressIn? entryName)

/-! ## Room for names -/

/-- Paths of entries with names of one length have one length. -/
theorem Path.length_joinName {p : Path} (hp : p.bytes ≠ []) {name other : Name}
    (hname : Plain name) (hother : Plain other) (hlength : name.length = other.length) :
    (p.joinName name).bytes.length = (p.joinName other).bytes.length := by
  rw [bytes_joinName hp hname, bytes_joinName hp hother]
  split <;> simp [hlength]

/-- A plain name puts no null byte into a path. -/
theorem Path.null_mem_joinName {p : Path} (hp : p.bytes ≠ []) {name : Name} (hname : Plain name) :
    (p.joinName name).bytes.contains 0 = p.bytes.contains 0 := by
  have hnull := hname.no_null
  rw [bytes_joinName hp hname]
  split <;> simp [List.contains_eq_mem, hnull, slash]

namespace Directory

variable {directory : Directory} {disk disk' : Disk} {place : Place} {address : Address}
  {name : Name}

/-- The paths of keyfiles are short enough for the disk. All names of keyfiles are of one length, so that
one of them tells. -/
def HasRoom (directory : Directory) : Prop :=
  ∃ name address, addressIn? name = some address ∧
    Disk.checkPath (directory.path.joinName name) = .ok ()

/-- Where there is room, the path of every keyfile passes. -/
theorem HasRoom.checkPath (h : directory.HasRoom) (hp : directory.path.bytes ≠ [])
    (hname : addressIn? name = some address) :
    Disk.checkPath (directory.path.joinName name) = .ok () := by
  obtain ⟨other, _, hother, hcheck⟩ := h
  have hplain := Keyfile.plain_of_addressIn? hname
  have hplain' := Keyfile.plain_of_addressIn? hother
  have hlength : name.length = other.length := by
    rw [Keyfile.length_of_addressIn? hname, Keyfile.length_of_addressIn? hother]
  rw [← hcheck, Disk.checkPath, Disk.checkPath, Path.null_mem_joinName hp hplain,
    Path.null_mem_joinName hp hplain', Path.length_joinName hp hplain hplain' hlength]

/-! ## Finding keyfiles -/

/-- The names of an account's keyfiles in the directory at a place, in the order of listings. -/
def keyfiles (disk : Disk) (place : Place) (address : Address) : List Name :=
  (disk.names place).filter fun name => addressIn? name = some address

/-- A keyfile of an account. -/
def keyfile (directory : Directory) (address : Address) (name : Name) : StoredKeyfile :=
  ⟨address, directory.path.joinName name⟩

/-- The keyfiles of an account are the entries under names that tell its address. -/
theorem mem_keyfiles_iff :
    name ∈ keyfiles disk place address ↔
      (disk.get? (name :: place)).isSome = true ∧ addressIn? name = some address := by
  rw [keyfiles, List.mem_filter, Disk.mem_names_iff, decide_eq_true_eq]

/-- The names of keyfiles are looked up as they are. -/
theorem plain_of_mem_keyfiles (h : name ∈ keyfiles disk place address) : Path.Plain name :=
  Keyfile.plain_of_addressIn? (mem_keyfiles_iff.1 h).2

/-- No keyfile is listed twice. -/
theorem nodup_keyfiles (disk : Disk) (place : Place) (address : Address) :
    (keyfiles disk place address).Nodup :=
  (Disk.nodup_names disk place).sublist List.filter_sublist

/-- A new entry is a keyfile of the account besides its others, if its name tells the account. -/
theorem keyfiles_put (hnone : disk.get? (name :: place) = none) (node : Node) (address : Address) :
    (keyfiles (disk.put (name :: place) node) place address).Perm
      ((if addressIn? name = some address then [name] else []) ++ keyfiles disk place address) := by
  have hnames := (Disk.names_put hnone node).filter fun other => addressIn? other = some address
  rw [List.filter_cons] at hnames
  by_cases h : addressIn? name = some address
  · simpa [h, keyfiles] using hnames
  · simpa [h, keyfiles] using hnames

/-- A new entry is the only keyfile of an account that had none. -/
theorem keyfiles_put_of_nil (hnone : disk.get? (name :: place) = none)
    (hname : addressIn? name = some address) (hnil : keyfiles disk place address = []) (node : Node) :
    keyfiles (disk.put (name :: place) node) place address = [name] := by
  have hput := keyfiles_put hnone node address
  rw [if_pos hname, hnil] at hput
  exact List.perm_singleton.1 hput

/-- Where names are listed by their age, a new entry is the account's last keyfile. -/
theorem keyfiles_put_byAge (horders : disk.orders = fun _ => .byAge)
    (hnone : disk.get? (name :: place) = none) (hname : addressIn? name = some address) (node : Node) :
    keyfiles (disk.put (name :: place) node) place address = keyfiles disk place address ++ [name] := by
  rw [keyfiles, Disk.names_put_byAge horders hnone, List.filter_append, ← keyfiles]
  simp [hname]

/-- An entry counts as a keyfile if its name tells an address. -/
theorem stored?_eq (directory : Directory) (name : Name) :
    directory.stored? name = (addressIn? name).map fun address => directory.keyfile address name := rfl

open Keyring.Action (Yields)

/-- Noting the foreign files changes nothing. -/
theorem yields_forM_note (names : List Name) (disk : Disk) :
    Yields (names.forM fun name => Action.note (.foreignFile name)) disk (.ok ()) disk := by
  induction names with
  | nil => exact Action.yields_pure _ _
  | cons name names ih => exact (Action.yields_note _ _).bind ih

/-- The keyfiles are found by the names of the entries. -/
theorem yields_entries (h : disk.LeadsTo directory.path place) :
    Yields directory.entries disk (.ok ((disk.names place).filterMap directory.stored?)) disk := by
  have hlist : Yields (Action.query directory.path fun disk => disk.list directory.path) disk
      (.ok (disk.names place)) disk := Action.yields_query _ (Disk.list_eq h)
  refine hlist.bind ?_
  exact (yields_forM_note _ disk).bind (Action.yields_pure _ _)

/-- The keyfiles of an account among all, by their names. -/
theorem filter_filterMap_stored? (names : List Name) :
    (names.filterMap directory.stored?).filter (fun entry => entry.address = address) =
      (names.filter fun name => addressIn? name = some address).map (directory.keyfile address) := by
  induction names with
  | nil => rfl
  | cons name names ih =>
    rw [List.filterMap_cons, stored?_eq]
    cases hname : addressIn? name with
    | none => simpa [hname] using ih
    | some other =>
      by_cases h : other = address
      · subst h
        simpa [hname, keyfile] using ih
      · simpa [hname, keyfile, h] using ih

/-- The names of an account's keyfiles in the order of listings, or why the directory is not listed. -/
def found (directory : Directory) (disk : Disk) (address : Address) : Except AccountError (List Name) :=
  match disk.list directory.path with
  | .error e => .error (.io directory.path e)
  | .ok names => .ok (names.filter fun name => addressIn? name = some address)

/-- The keyfiles that are found are those that are listed. -/
theorem found_eq (h : disk.LeadsTo directory.path place) (address : Address) :
    directory.found disk address = .ok (keyfiles disk place address) := by
  rw [found, Disk.list_eq h, keyfiles]

/-- The keyfiles of an account are found, or it is told why the directory is not listed. -/
theorem yields_find_found (directory : Directory) (disk : Disk) (address : Address) :
    Yields (directory.storage.find address) disk
      ((directory.found disk address).map fun names => names.map (directory.keyfile address)) disk := by
  unfold found
  cases hlist : disk.list directory.path with
  | error e =>
    have hquery : Yields (Action.query directory.path fun disk => disk.list directory.path) disk
        (.error (.io directory.path e)) disk := Action.yields_query_error _ hlist
    have hentries : Yields directory.entries disk (.error (.io directory.path e)) disk :=
      hquery.bind_error
    exact hentries.bind_error
  | ok names =>
    have hquery : Yields (Action.query directory.path fun disk => disk.list directory.path) disk
        (.ok names) disk := Action.yields_query _ hlist
    have hentries : Yields directory.entries disk (.ok (names.filterMap directory.stored?)) disk :=
      hquery.bind ((yields_forM_note _ disk).bind (Action.yields_pure _ _))
    refine hentries.bind ?_
    simp only [Except.map]
    rw [← filter_filterMap_stored?]
    exact Action.yields_pure _ _

/-- The keyfiles of an account are found. -/
theorem yields_find (h : disk.LeadsTo directory.path place) (address : Address) :
    Yields (directory.storage.find address) disk
      (.ok ((keyfiles disk place address).map (directory.keyfile address))) disk := by
  have hfind := yields_find_found directory disk address
  rw [found_eq h] at hfind
  exact hfind

/-- Where the path leads to no directory no keyfile is found. -/
theorem found_nowhere (h : ∀ place, ¬ disk.LeadsTo directory.path place) (address : Address) :
    directory.found disk address = .ok [] ∨ ∃ e, directory.found disk address = .error e := by
  unfold found
  cases hlist : disk.list directory.path with
  | error e => exact .inr ⟨_, rfl⟩
  | ok names =>
    cases names with
    | nil => exact .inl rfl
    | cons name names =>
      obtain ⟨place, hleads⟩ := Disk.leadsTo_of_list hlist
      exact absurd hleads (h place)

/-- The accounts are those that the names tell. -/
theorem map_address_stored? (names : List Name) :
    (names.filterMap directory.stored?).map (·.address) = names.filterMap addressIn? := by
  rw [List.map_filterMap]
  congr 1
  funext name
  rw [stored?_eq, Option.map_map]
  cases addressIn? name <;> rfl

/-! ## Reading and writing keyfiles -/

/-- Reading an entry gives its bytes. -/
theorem yields_read {entry : StoredKeyfile} {content : Bytes} (h : disk.read entry.path = .ok content) :
    Yields (read entry) disk (.ok content) disk :=
  Action.yields_query (fun disk : Disk => disk.read entry.path) h

/-- Reading fails as the disk does, and changes nothing. -/
theorem yields_read_error {entry : StoredKeyfile} {e : IoError}
    (h : disk.read entry.path = .error e) :
    Yields (read entry) disk (.error (.io entry.path e)) disk :=
  Action.yields_query_error (fun disk : Disk => disk.read entry.path) h

/-- Writing a keyfile makes the file. -/
theorem yields_write {content : Bytes}
    (h : disk.create (directory.keyfilePath address) keyfileMode content = .ok disk') :
    Yields (directory.write address content) disk
      (.ok ⟨address, directory.keyfilePath address⟩) disk' :=
  (Action.yields_change (fun disk : Disk => disk.create _ keyfileMode content) h).bind
    (Action.yields_pure _ _)

/-- Writing fails as the disk does, and changes nothing. -/
theorem yields_write_error {content : Bytes} {e : IoError}
    (h : disk.create (directory.keyfilePath address) keyfileMode content = .error e) :
    Yields (directory.write address content) disk
      (.error (.io (directory.keyfilePath address) e)) disk :=
  (Action.yields_change_error (fun disk : Disk => disk.create _ keyfileMode content) h).bind_error

/-! ## Removing keyfiles -/

/-- A keyfile that the disk removes is removed. -/
theorem yields_remove {entry : StoredKeyfile} (h : disk.remove entry.path = .ok disk') :
    Yields (remove entry) disk (.ok ()) disk' :=
  Action.yields_change (fun disk : Disk => disk.remove entry.path) h

/-- Removing fails as the disk does, and changes nothing. -/
theorem yields_remove_error {entry : StoredKeyfile} {e : IoError}
    (h : disk.remove entry.path = .error e) :
    Yields (remove entry) disk (.error (.io entry.path e)) disk :=
  Action.yields_change_error (fun disk : Disk => disk.remove entry.path) h

/-- What the removal of several entries answers and leaves: it stops at the first that is not a file. -/
def removed (directory : Directory) : List Name → Disk → Except AccountError Unit × Disk
  | [], disk => (.ok (), disk)
  | name :: names, disk =>
    match disk.remove (directory.path.joinName name) with
    | .ok disk' => removed directory names disk'
    | .error e => (.error (.io (directory.path.joinName name) e), disk)

/-- Keyfiles are removed one after the other. -/
theorem yields_forM_remove (directory : Directory) (address : Address) (names : List Name)
    (disk : Disk) :
    Yields ((names.map (directory.keyfile address)).forM directory.storage.remove) disk
      (directory.removed names disk).1 (directory.removed names disk).2 := by
  induction names generalizing disk with
  | nil => exact Action.yields_pure _ _
  | cons name names ih =>
    rw [removed, List.map_cons]
    cases hremove : disk.remove (directory.path.joinName name) with
    | ok disk' =>
      have hfirst : Yields (directory.storage.remove (directory.keyfile address name)) disk
          (.ok ()) disk' := yields_remove hremove
      exact hfirst.bind (ih disk')
    | error e =>
      have hfirst : Yields (directory.storage.remove (directory.keyfile address name)) disk
          (.error (.io (directory.path.joinName name) e)) disk := yields_remove_error hremove
      exact hfirst.bind_error

/-- A removal, whether it fails or not, keeps what is at other places and the directory. -/
theorem get?_removed (h : disk.LeadsTo directory.path place) {names : List Name}
    (hnames : ∀ name ∈ names, Path.Plain name) :
    (directory.removed names disk).2.LeadsTo directory.path place ∧
      ∀ other, (∀ name ∈ names, other ≠ name :: place) →
        (directory.removed names disk).2.get? other = disk.get? other := by
  induction names generalizing disk with
  | nil => exact ⟨h, fun other _ => rfl⟩
  | cons name names ih =>
    rw [removed]
    cases hremove : disk.remove (directory.path.joinName name) with
    | error e => exact ⟨h, fun other _ => rfl⟩
    | ok disk' =>
      obtain ⟨-, ⟨mode, content, hfile⟩, rfl⟩ :=
        Disk.of_remove_ok h (hnames name List.mem_cons_self) hremove
      obtain ⟨hleads, hkeeps⟩ := ih (h.erase (List.cons_ne_nil _ _) hfile)
        fun other hother => hnames other (List.mem_cons_of_mem _ hother)
      refine ⟨hleads, fun other hother => ?_⟩
      have hne : other ≠ name :: place := hother name List.mem_cons_self
      rw [hkeeps other fun name hname => hother name (List.mem_cons_of_mem _ hname),
        Disk.get?_erase_of_ne hne]

/-- The disk without some entries of a directory. -/
def without (place : Place) (names : List Name) (disk : Disk) : Disk :=
  names.foldl (fun disk name => disk.erase (name :: place)) disk

theorem without_cons (name : Name) (names : List Name) (disk : Disk) :
    without place (name :: names) disk = without place names (disk.erase (name :: place)) := rfl

/-- Without some entries, there is nothing in their places and else what was there. -/
theorem get?_without (names : List Name) (disk : Disk) (other : Place) :
    (without place names disk).get? other =
      if ∃ name ∈ names, other = name :: place then none else disk.get? other := by
  induction names generalizing disk with
  | nil => simp [without]
  | cons name names ih =>
    rw [without_cons, ih, Disk.get?_erase _ _ _ (List.cons_ne_nil _ _)]
    by_cases h : other = name :: place
    · simp [h]
    · simp [h]

/-- The others are listed without the entries that are left out. -/
theorem names_without (names : List Name) (disk : Disk) (place : Place) :
    ((without place names disk).names place).Perm ((disk.names place).filter (· ∉ names)) := by
  refine Disk.names_perm_of_mem_iff ((Disk.nodup_names disk place).filter _) fun name => ?_
  rw [List.mem_filter, Disk.mem_names_iff, get?_without, decide_eq_true_eq]
  by_cases hname : name ∈ names
  · simp [hname]
  · simp [hname]

/-- Without its keyfiles an account has none. -/
theorem keyfiles_without (disk : Disk) (place : Place) (address : Address) :
    keyfiles (without place (keyfiles disk place address) disk) place address = [] := by
  rw [List.eq_nil_iff_forall_not_mem]
  intro name hname
  obtain ⟨hthere, htells⟩ := mem_keyfiles_iff.1 hname
  rw [← Disk.mem_names_iff, (names_without _ disk place).mem_iff, List.mem_filter, decide_eq_true_eq]
    at hthere
  obtain ⟨hmem, hnot⟩ := hthere
  exact hnot (mem_keyfiles_iff.2 ⟨Disk.mem_names_iff.1 hmem, htells⟩)

/-- A removal that succeeds removes all entries, and they were files; the directory stays. -/
theorem removed_ok (h : disk.LeadsTo directory.path place) {names : List Name}
    (hnames : ∀ name ∈ names, Path.Plain name) (hnodup : names.Nodup)
    (hok : (directory.removed names disk).1 = .ok ()) :
    (directory.removed names disk).2 = without place names disk ∧
      (∀ name ∈ names, ∃ mode content, disk.get? (name :: place) = some (.file mode content)) ∧
      (without place names disk).LeadsTo directory.path place := by
  induction names generalizing disk with
  | nil => exact ⟨rfl, by simp, h⟩
  | cons name names ih =>
    rw [removed] at hok ⊢
    rw [List.nodup_cons] at hnodup
    cases hremove : disk.remove (directory.path.joinName name) with
    | error e => rw [hremove] at hok; cases hok
    | ok disk' =>
      rw [hremove] at hok
      obtain ⟨-, ⟨mode, content, hfile⟩, rfl⟩ :=
        Disk.of_remove_ok h (hnames name List.mem_cons_self) hremove
      obtain ⟨hleft, hfiles, hleads⟩ := ih (h.erase (List.cons_ne_nil _ _) hfile)
        (fun other hother => hnames other (List.mem_cons_of_mem _ hother)) hnodup.2 hok
      refine ⟨hleft, fun other hother => ?_, hleads⟩
      rcases List.mem_cons.1 hother with rfl | hother
      · exact ⟨mode, content, hfile⟩
      · have hne : other ≠ name := fun heq => hnodup.1 (heq ▸ hother)
        obtain ⟨mode', content', hfile'⟩ := hfiles other hother
        rw [Disk.get?_erase_of_ne (by simp [hne])] at hfile'
        exact ⟨mode', content', hfile'⟩

end Directory

end Keyring
