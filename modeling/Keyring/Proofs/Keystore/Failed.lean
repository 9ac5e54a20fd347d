import Keyring.Proofs.Keystore.Faithful

/-!
# What a failed update leaves

A new password is set by opening the keyfile that is found, removing all keyfiles of the account and then
writing the new one. Until the keyfile is opened nothing is changed. After that two things can stand in the
way (`Directory.Blocked`): a directory that has the name of a keyfile, at which the removal stops, and
something at the place of the new keyfile, which only a key pair of another account meets, because the
account's own places are free by then. So of an account with its own key the failure tells what is gone
(`Keystore.update_failed`): nothing, or what is listed before a directory, the keyfile that was opened among
it.
-/

namespace Keyring

open Keyring.Action (Yields)
open Keyfile (addressIn? entryName)

namespace Directory

variable {directory : Directory} {iterations : UInt32} {disk : Disk} {place : Place}
  {address : Address} {key : KeyPair}

/-! ## Removing as far as possible -/

/-- The entry is a file. -/
def IsFile (disk : Disk) (place : Place) (name : Name) : Prop :=
  ∃ mode content, disk.get? (name :: place) = some (.file mode content)

/-- A keyfile that is read is a file. -/
theorem isFile_of_read (h : disk.LeadsTo directory.path place) {first : Name} {others : List Name}
    (hnames : keyfiles disk place address = first :: others) {content : Bytes}
    (hread : disk.read (directory.path.joinName first) = .ok content) : IsFile disk place first := by
  obtain ⟨mode, hfile⟩ := get?_of_read h (hnames ▸ List.mem_cons_self) hread
  exact ⟨mode, content, hfile⟩

/-- The removal of entries goes on to the first one that is a directory. -/
theorem removed_cases (h : disk.LeadsTo directory.path place) {names : List Name}
    (hplain : ∀ name ∈ names, Path.Plain name)
    (hcheck : ∀ name ∈ names, Disk.checkPath (directory.path.joinName name) = .ok ())
    (hthere : ∀ name ∈ names, (disk.get? (name :: place)).isSome = true) (hnodup : names.Nodup) :
    ((∀ name ∈ names, IsFile disk place name) ∧
        directory.removed names disk = (.ok (), without place names disk)) ∨
      ∃ gone name others mode, names = gone ++ name :: others ∧
        (∀ name ∈ gone, IsFile disk place name) ∧ disk.get? (name :: place) = some (.directory mode) ∧
        directory.removed names disk =
          (.error (.io (directory.path.joinName name) .isDirectory), without place gone disk) := by
  induction names generalizing disk with
  | nil => exact .inl ⟨by simp, rfl⟩
  | cons name names ih =>
    rw [List.nodup_cons] at hnodup
    have hremove := Disk.remove_eq h (hplain name List.mem_cons_self) (hcheck name List.mem_cons_self)
    rw [removed, hremove]
    cases hnode : disk.get? (name :: place) with
    | none =>
      have hsome := hthere name List.mem_cons_self
      rw [hnode] at hsome
      cases hsome
    | some node =>
      cases node with
      | directory mode => exact .inr ⟨[], name, names, mode, rfl, by simp, hnode, rfl⟩
      | file mode content =>
        -- The other entries are what they were.
        have hkeeps (other : Name) (hother : other ∈ names) :
            (disk.erase (name :: place)).get? (other :: place) = disk.get? (other :: place) := by
          have hne : other ≠ name := fun heq => hnodup.1 (heq ▸ hother)
          exact Disk.get?_erase_of_ne (by simp [hne])
        have hrest := ih (h.erase (List.cons_ne_nil _ _) hnode)
          (fun other hother => hplain other (List.mem_cons_of_mem _ hother))
          (fun other hother => hcheck other (List.mem_cons_of_mem _ hother))
          (fun other hother => by
            rw [hkeeps other hother]
            exact hthere other (List.mem_cons_of_mem _ hother)) hnodup.2
        have hfiles {gone : List Name} (hgone : ∀ other ∈ gone, other ∈ names)
            (hall : ∀ other ∈ gone, IsFile (disk.erase (name :: place)) place other) :
            ∀ other ∈ name :: gone, IsFile disk place other := by
          intro other hother
          rcases List.mem_cons.1 hother with rfl | hother
          · exact ⟨mode, content, hnode⟩
          · obtain ⟨mode', content', hfile⟩ := hall other hother
            rw [hkeeps other (hgone other hother)] at hfile
            exact ⟨mode', content', hfile⟩
        rcases hrest with ⟨hall, hremoved⟩ | ⟨gone, stop, others, mode', rfl, hall, hstop, hremoved⟩
        · exact .inl ⟨hfiles (fun _ => id) hall, hremoved⟩
        · refine .inr ⟨name :: gone, stop, others, mode', rfl, ?_, ?_, hremoved⟩
          · exact hfiles (fun _ => List.mem_append_left _) hall
          · rw [← hkeeps stop (List.mem_append_right _ List.mem_cons_self)]
            exact hstop

/-- The keyfiles of an account are removed up to the first one that is a directory. -/
theorem removed_keyfiles_cases (h : disk.LeadsTo directory.path place)
    (hcheck : ∀ name ∈ keyfiles disk place address,
      Disk.checkPath (directory.path.joinName name) = .ok ()) :
    ((∀ name ∈ keyfiles disk place address, IsFile disk place name) ∧
        directory.removed (keyfiles disk place address) disk =
          (.ok (), without place (keyfiles disk place address) disk)) ∨
      ∃ gone name others mode, keyfiles disk place address = gone ++ name :: others ∧
        (∀ name ∈ gone, IsFile disk place name) ∧ disk.get? (name :: place) = some (.directory mode) ∧
        directory.removed (keyfiles disk place address) disk =
          (.error (.io (directory.path.joinName name) .isDirectory), without place gone disk) :=
  removed_cases h (fun _ => plain_of_mem_keyfiles) hcheck (fun _ hname => (mem_keyfiles_iff.1 hname).1)
    (nodup_keyfiles disk place address)

/-- Where the keyfiles of an account are removed, the directory stays. -/
theorem leadsTo_without (h : disk.LeadsTo directory.path place)
    (hremoved : directory.removed (keyfiles disk place address) disk =
      (.ok (), without place (keyfiles disk place address) disk)) :
    (without place (keyfiles disk place address) disk).LeadsTo directory.path place := by
  have hok : (directory.removed (keyfiles disk place address) disk).1 = .ok () := by rw [hremoved]
  exact (removed_ok h (fun _ => plain_of_mem_keyfiles) (nodup_keyfiles disk place address) hok).2.2

/-! ## What stands in the way of a new password -/

/-- What stands in the way of a new password once the key pair is known, and the keyfiles that are gone
then. -/
inductive Blocked (disk : Disk) (place : Place) (address : Address) (key : KeyPair) : List Name → Prop
  /-- A directory has the name of a keyfile. What is listed before it is gone. -/
  | byDirectory {gone : List Name} {name : Name} {others : List Name} {mode : Nat} :
    keyfiles disk place address = gone ++ name :: others → (∀ name ∈ gone, IsFile disk place name) →
    disk.get? (name :: place) = some (.directory mode) → Blocked disk place address key gone
  /-- The key pair is another account's, and the place of that account's keyfile is taken. All is gone. -/
  | byOther {node : Node} : (∀ name ∈ keyfiles disk place address, IsFile disk place name) →
    key.address ≠ address → disk.get? (entryName key.address :: place) = some node →
    Blocked disk place address key (keyfiles disk place address)

/-- What is gone was a file under a name of the account. -/
theorem Blocked.isFile {gone : List Name} (h : Blocked disk place address key gone) {name : Name}
    (hname : name ∈ gone) : addressIn? name = some address ∧ IsFile disk place name := by
  cases h with
  | byDirectory hnames hfiles =>
    have hmem : name ∈ keyfiles disk place address := hnames ▸ List.mem_append_left _ hname
    exact ⟨(mem_keyfiles_iff.1 hmem).2, hfiles name hname⟩
  | byOther hfiles => exact ⟨(mem_keyfiles_iff.1 hname).2, hfiles name hname⟩

/-- The first keyfile is gone if it is a file. -/
theorem Blocked.mem_of_isFile {gone others : List Name} {first : Name}
    (h : Blocked disk place address key gone) (hnames : keyfiles disk place address = first :: others)
    (hfirst : IsFile disk place first) : first ∈ gone := by
  cases h with
  | byDirectory hsplit _ hdirectory =>
    rw [hnames] at hsplit
    cases gone with
    | nil =>
      cases hsplit
      obtain ⟨mode, content, hfile⟩ := hfirst
      rw [hdirectory] at hfile
      cases hfile
    | cons head gone =>
      cases hsplit
      exact List.mem_cons_self
  | byOther => rw [hnames]; exact List.mem_cons_self

/-- After the account's keyfiles are gone, the new one is written if there is nothing in its place, and what
is there belongs to another account. -/
theorem persisted_without (iterations : UInt32)
    (hleft : (without place (keyfiles disk place address) disk).LeadsTo directory.path place)
    (hcheck : Disk.checkPath (directory.path.joinName (entryName key.address)) = .ok ())
    (newPassword : String) (fresh : Seal) :
    (∃ disk', directory.persisted iterations (without place (keyfiles disk place address) disk) key
        newPassword fresh = (.ok key.address, disk')) ∨
      key.address ≠ address ∧ (∃ node, disk.get? (entryName key.address :: place) = some node) ∧
        ∃ e, directory.persisted iterations (without place (keyfiles disk place address) disk) key
          newPassword fresh = (.error e, without place (keyfiles disk place address) disk) := by
  cases hplace : (without place (keyfiles disk place address) disk).get?
      (entryName key.address :: place) with
  | none => exact .inl ⟨_, persisted_eq iterations hleft key newPassword fresh hcheck hplace⟩
  | some node =>
    have htaken := hplace
    rw [get?_without] at htaken
    split at htaken
    · cases htaken
    · next hnot =>
      have hne : key.address ≠ address := by
        intro heq
        refine hnot ⟨entryName key.address, mem_keyfiles_iff.2 ⟨by rw [htaken]; rfl, ?_⟩, rfl⟩
        rw [Keyfile.addressIn?_entryName, heq]
      rcases directory.persisted_cases iterations (without place (keyfiles disk place address) disk) key
        newPassword fresh with ⟨disk', hpersisted⟩ | hfailed
      · obtain ⟨-, -, hnone, -⟩ := of_persisted_ok hleft hpersisted
        rw [hplace] at hnone
        cases hnone
      · exact .inr ⟨hne, ⟨node, htaken⟩, hfailed⟩

/-- A new password for a keyfile that was opened is set, unless something stands in the way; then the
keyfiles that are gone are all that is changed. -/
theorem updated_opened (iterations : UInt32) (h : disk.LeadsTo directory.path place) {first : Name}
    {others : List Name} (hnames : keyfiles disk place address = first :: others) {password : String}
    (hopened : directory.opened disk first password = .ok key) (newPassword : String) (fresh : Seal) :
    (∃ disk', directory.updated iterations disk place address password newPassword fresh =
        (.ok true, disk')) ∨
      ∃ e gone, Blocked disk place address key gone ∧
        directory.updated iterations disk place address password newPassword fresh =
          (.error e, without place gone disk) := by
  have hcheck := checkPath_of_opened h hnames hopened (Keyfile.addressIn?_entryName key.address)
  have hroom (name : Name) (hname : name ∈ keyfiles disk place address) :=
    checkPath_of_opened h hnames hopened (mem_keyfiles_iff.1 hname).2
  have hremoved := removed_keyfiles_cases h hroom
  unfold updated
  rw [hnames] at hremoved ⊢
  simp only [hopened]
  rcases hremoved with
    ⟨hfiles, hremoved⟩ | ⟨gone, name, later, mode, hsplit, hfiles, hdirectory, hremoved⟩
  · rw [← hnames] at hremoved hfiles ⊢
    have hleft := leadsTo_without h hremoved
    simp only [hremoved]
    rcases persisted_without iterations hleft hcheck newPassword fresh with
      ⟨disk', hpersisted⟩ | ⟨hne, ⟨node, htaken⟩, e, hpersisted⟩
    · simp only [hpersisted]
      exact .inl ⟨disk', rfl⟩
    · simp only [hpersisted]
      exact .inr ⟨e, _, .byOther hfiles hne htaken, rfl⟩
  · simp only [hremoved]
    exact .inr ⟨_, gone, .byDirectory (hnames.trans hsplit) hfiles hdirectory, rfl⟩

/-- A directory with the name of a keyfile always stands in the way, because it is never removed. -/
theorem updated_of_directory (iterations : UInt32) (h : disk.LeadsTo directory.path place) {first : Name}
    {others : List Name} (hnames : keyfiles disk place address = first :: others) {password : String}
    (hopened : directory.opened disk first password = .ok key) {name : Name}
    (hname : name ∈ keyfiles disk place address) {mode : Nat}
    (hdirectory : disk.get? (name :: place) = some (.directory mode)) (newPassword : String)
    (fresh : Seal) :
    ∃ e gone, Blocked disk place address key gone ∧
      directory.updated iterations disk place address password newPassword fresh =
        (.error e, without place gone disk) := by
  rcases updated_opened iterations h hnames hopened newPassword fresh with ⟨disk', hok⟩ | hblocked
  · have hroom (other : Name) (hother : other ∈ keyfiles disk place address) :=
      checkPath_of_opened h hnames hopened (mem_keyfiles_iff.1 hother).2
    rcases removed_keyfiles_cases h hroom with
      ⟨hall, -⟩ | ⟨gone, stop, later, mode', -, -, -, hremoved⟩
    · obtain ⟨mode', content', hfile⟩ := hall name hname
      rw [hdirectory] at hfile
      cases hfile
    · rw [hnames] at hremoved
      unfold updated at hok
      rw [hnames] at hok
      simp only [hopened, hremoved] at hok
      cases hok
  · exact hblocked

/-- What a failure changes is that files under names of the account are gone. -/
theorem Blocked.get?_without {gone : List Name} (h : Blocked disk place address key gone) {other : Place}
    (hchanged : (without place gone disk).get? other ≠ disk.get? other) :
    (without place gone disk).get? other = none ∧
      ∃ name, other = name :: place ∧ addressIn? name = some address ∧ IsFile disk place name := by
  rw [Directory.get?_without] at hchanged ⊢
  split at hchanged
  · next hgone =>
    obtain ⟨name, hname, rfl⟩ := hgone
    exact ⟨if_pos ⟨name, hname, rfl⟩, name, rfl, h.isFile hname⟩
  · exact absurd rfl hchanged

/-- A new password that is not set was none for the keyfile that is found, or something stands in the
way. Then the keyfile that was opened is gone. -/
theorem updated_failed (h : disk.LeadsTo directory.path place) {password newPassword : String}
    {fresh : Seal} {e : AccountError} {left : Disk}
    (hfailed : directory.updated iterations disk place address password newPassword fresh =
      (.error e, left)) :
    (left = disk ∧ ∀ key, directory.loaded disk place address password ≠ .ok (some key)) ∨
      ∃ key gone, directory.loaded disk place address password = .ok (some key) ∧
        Blocked disk place address key gone ∧ gone ≠ [] ∧ left = without place gone disk := by
  unfold loaded
  cases hnames : keyfiles disk place address with
  | nil =>
    rw [updated, hnames] at hfailed
    cases hfailed
  | cons first others =>
    simp only
    cases hopened : directory.opened disk first password with
    | error cause =>
      simp only [updated, hnames, hopened] at hfailed
      cases hfailed
      exact .inl ⟨rfl, nofun⟩
    | ok key =>
      rcases updated_opened iterations h hnames hopened newPassword fresh with
        ⟨disk', hok⟩ | ⟨cause, gone, hblocked, hgone⟩
      · rw [hok] at hfailed
        cases hfailed
      · rw [hgone] at hfailed
        cases hfailed
        obtain ⟨content, hread, -⟩ := opened_eq_ok_iff.1 hopened
        have hfirst := hblocked.mem_of_isFile hnames (isFile_of_read h hnames hread)
        exact .inr ⟨key, gone, rfl, hblocked, List.ne_nil_of_mem hfirst, rfl⟩

/-- Where no path leads to the directory, or the password opens nothing, a failure changes nothing; otherwise
something stands in the way. -/
theorem update_failed_cases {traced left : Traced Disk} {password newPassword : String} {fresh : Seal}
    {e : AccountError}
    (hfailed : (directory.keystore iterations).update address password newPassword fresh traced =
      .error e left) :
    (left.files = traced.files ∧ ∀ key,
        answer ((directory.keystore iterations).load address password) traced ≠ .ok (some key)) ∨
      ∃ place key gone, traced.files.LeadsTo directory.path place ∧
        answer ((directory.keystore iterations).load address password) traced = .ok (some key) ∧
        Blocked traced.files place address key gone ∧ gone ≠ [] ∧
        left.files = without place gone traced.files := by
  have hanswer := answer_of_error hfailed
  have hleft := leaves_of_error hfailed
  obtain ⟨disk, events⟩ := traced
  by_cases hleads : ∃ place, disk.LeadsTo directory.path place
  · obtain ⟨place, hleads⟩ := hleads
    have hupdate : Yields ((directory.keystore iterations).update address password newPassword fresh)
        disk _ _ := yields_update hleads address password newPassword fresh
    have hload : Yields ((directory.keystore iterations).load address password) disk _ _ :=
      yields_load hleads address password
    obtain ⟨hupdated, hfiles⟩ := hupdate events
    obtain ⟨hloaded, -⟩ := hload events
    rw [hanswer] at hupdated
    rw [hleft] at hfiles
    rw [hloaded]
    rcases updated_failed hleads (Prod.ext hupdated.symm hfiles.symm) with
      hunchanged | ⟨key, gone, hkey, hblocked, hne, hgone⟩
    · exact .inl hunchanged
    · exact .inr ⟨place, key, gone, hleads, hkey, hblocked, hne, hgone⟩
  · obtain ⟨result, -, hupdate⟩ := yields_update_nowhere iterations (fun place h => hleads ⟨place, h⟩)
      address password newPassword fresh
    refine .inl ⟨by rw [← hleft]; exact (hupdate events).2, fun key hkey => ?_⟩
    obtain ⟨content, ⟨place, -, -, h, -⟩, -⟩ := loads_iff.1 hkey
    exact hleads ⟨place, h⟩

end Directory

open Directory in
/-- Setting a new password for an account fails without changing anything, unless the password opened the
keyfile that is found; and all that it ever changes is that files under names of the account are gone. If the
key pair that was opened is the account's own, a directory with the name of a keyfile stands in the way, and
the keyfiles that are listed before it are gone. -/
theorem Keystore.update_failed (directory : Directory) (iterations : UInt32) {traced left : Traced Disk}
    {address : Address} {password newPassword : String} {fresh : Seal} {e : AccountError}
    (hfailed : (directory.keystore iterations).update address password newPassword fresh traced =
      .error e left) :
    (∀ other, left.files.get? other ≠ traced.files.get? other →
      left.files.get? other = none ∧ ∃ place name, traced.files.LeadsTo directory.path place ∧
        other = name :: place ∧ addressIn? name = some address ∧ IsFile traced.files place name) ∧
    ((∀ key, answer ((directory.keystore iterations).load address password) traced ≠ .ok (some key)) →
      left.files = traced.files) ∧
    ∀ key, answer ((directory.keystore iterations).load address password) traced = .ok (some key) →
      key.address = address →
      ∃ place gone name others mode, traced.files.LeadsTo directory.path place ∧
        keyfiles traced.files place address = gone ++ name :: others ∧ gone ≠ [] ∧
        (∀ name ∈ gone, IsFile traced.files place name) ∧
        traced.files.get? (name :: place) = some (.directory mode) ∧
        left.files = without place gone traced.files := by
  rcases update_failed_cases hfailed with
    ⟨hfiles, hnone⟩ | ⟨place, key, gone, hleads, hkey, hblocked, hne, hfiles⟩
  · exact ⟨fun other hchanged => absurd (by rw [hfiles]) hchanged, fun _ => hfiles,
      fun key hkey => absurd hkey (hnone key)⟩
  · refine ⟨fun other hchanged => ?_, fun hnone => absurd hkey (hnone key), fun found hfound hown => ?_⟩
    · rw [hfiles] at hchanged ⊢
      obtain ⟨hnone, name, hplace, hname⟩ := hblocked.get?_without hchanged
      exact ⟨hnone, place, name, hleads, hplace, hname⟩
    · rw [hkey] at hfound
      cases hfound
      cases hblocked with
      | @byDirectory _ name others mode hnames hall hdirectory =>
        exact ⟨place, gone, name, others, mode, hleads, hnames, hne, hall, hdirectory, hfiles⟩
      | byOther _ hother => exact absurd hown hother

/-! ### A directory with the name of a keyfile -/

/-- The address has letters, so that its two names differ. -/
theorem Keyfile.capitalName_one_ne : capitalName KeyPair.one.address ≠ entryName KeyPair.one.address := by
  decide +kernel

namespace Disk

/-- Two entries of one account that are made in the sample directory are listed as they were made. -/
theorem sample_put_put {first second : Name} {address : Address} (hfirst : addressIn? first = some address)
    (hsecond : addressIn? second = some address) (hne : first ≠ second) (node node' : Node) :
    let disk := (Disk.sample.put (first :: [[0x6b]]) node).put (second :: [[0x6b]]) node'
    disk.LeadsTo Directory.sample.path [[0x6b]] ∧
      Directory.keyfiles disk [[0x6b]] address = [first, second] ∧
      disk.get? (first :: [[0x6b]]) = some node ∧ disk.get? (second :: [[0x6b]]) = some node' := by
  intro disk
  have hnone := get?_sample
  have hplace : ¬ second :: [[0x6b]] = first :: [[0x6b]] := fun heq => hne (List.cons.inj heq).1.symm
  have hput := sample_leadsTo.put (List.cons_ne_nil _ _) (hnone first) node
  have hfree : (Disk.sample.put (first :: [[0x6b]]) node).get? (second :: [[0x6b]]) = none := by
    rw [get?_put_of_ne hplace, hnone]
  refine ⟨hput.put (List.cons_ne_nil _ _) hfree _, ?_, ?_, ?_⟩
  · rw [Directory.keyfiles_put_byAge (orders_put_byAge rfl _ _) hfree hsecond,
      Directory.keyfiles_put_of_nil (hnone first) hfirst (Directory.keyfiles_sample address)]
    rfl
  · rw [get?_put_of_ne (Ne.symm hplace), get?_put_self]
  · exact get?_put_self

/-- The sample directory with a keyfile and, listed after it, a directory that has another name of the same
account. -/
def obstructed : Disk :=
  (Disk.sample.put (entryName KeyPair.one.address :: [[0x6b]])
    (.file Directory.keyfileMode (Keyfile.encode .one "p" 1 .zero))).put
    (Keyfile.capitalName KeyPair.one.address :: [[0x6b]]) (.directory directoryMode)

/-- Both are entries of the account, and the keyfile is listed first. -/
theorem obstructed_entries : obstructed.LeadsTo Directory.sample.path [[0x6b]] ∧
    Directory.keyfiles obstructed [[0x6b]] KeyPair.one.address =
      [entryName KeyPair.one.address, Keyfile.capitalName KeyPair.one.address] ∧
    obstructed.get? (entryName KeyPair.one.address :: [[0x6b]]) =
      some (.file Directory.keyfileMode (Keyfile.encode .one "p" 1 .zero)) ∧
    obstructed.get? (Keyfile.capitalName KeyPair.one.address :: [[0x6b]]) =
      some (.directory directoryMode) :=
  sample_put_put (Keyfile.addressIn?_entryName _) (Keyfile.addressIn?_capitalName _)
    (Ne.symm Keyfile.capitalName_one_ne) _ _

/-- The keyfile opens to the account's own key pair. -/
theorem opened_obstructed :
    Directory.sample.opened obstructed (entryName KeyPair.one.address) "p" = .ok .one := by
  obtain ⟨hleads, -, hfile, -⟩ := obstructed_entries
  rw [Directory.opened_eq hleads (Keyfile.addressIn?_entryName _) (Directory.checkPath_sample _) hfile,
    Keyfile.decode_encode .one "p" .zero (show Keyfile.Opens 1 by decide)]
  rfl

/-- A new password is not set, and the keyfile is gone, because the directory is not removed. -/
theorem update_fails_obstructed : ∃ e left,
    (Directory.sample.keystore 1).update KeyPair.one.address "p" "q" .zero ⟨obstructed, []⟩ =
        .error e left ∧
      left.files.get? (entryName KeyPair.one.address :: [[0x6b]]) = none := by
  obtain ⟨hleads, hnames, hfile, hdirectory⟩ := obstructed_entries
  have hmem : Keyfile.capitalName KeyPair.one.address ∈
      Directory.keyfiles obstructed [[0x6b]] KeyPair.one.address := by
    rw [hnames]
    exact List.mem_cons_of_mem _ List.mem_cons_self
  obtain ⟨e, gone, hblocked, hfailed⟩ :=
    Directory.updated_of_directory 1 hleads hnames opened_obstructed hmem hdirectory "q" .zero
  have hupdate : Yields ((Directory.sample.keystore 1).update KeyPair.one.address "p" "q" .zero)
      obstructed _ _ := Directory.yields_update hleads KeyPair.one.address "p" "q" .zero
  obtain ⟨hanswer, hfiles⟩ := hupdate []
  rw [hfailed] at hanswer hfiles
  refine ⟨e, _, eq_error_of_answer hanswer, ?_⟩
  rw [hfiles, Directory.get?_without, if_pos]
  exact ⟨_, hblocked.mem_of_isFile hnames ⟨_, _, hfile⟩, rfl⟩

/-- The old password loads the key pair before. -/
theorem load_obstructed :
    answer ((Directory.sample.keystore 1).load KeyPair.one.address "p") ⟨obstructed, []⟩ =
      .ok (some .one) := by
  obtain ⟨hleads, hnames, -, -⟩ := obstructed_entries
  have hopened := opened_obstructed
  have hload : Yields ((Directory.sample.keystore 1).load KeyPair.one.address "p") obstructed _ _ :=
    Directory.yields_load hleads KeyPair.one.address "p"
  obtain ⟨hanswer, -⟩ := hload []
  rw [hanswer]
  unfold Directory.loaded
  rw [hnames]
  simp only [hopened]
  rfl

end Disk

/-- A new password is not set where a directory is listed after the account's keyfile, and the keyfile is
gone. -/
theorem Keystore.update_obstructed : ∃ e left,
    (Directory.sample.keystore 1).update KeyPair.one.address "p" "q" .zero ⟨.obstructed, []⟩ =
        .error e left ∧
      Disk.obstructed.get? (entryName KeyPair.one.address :: [[0x6b]]) ≠ none ∧
      left.files.get? (entryName KeyPair.one.address :: [[0x6b]]) = none := by
  obtain ⟨-, -, hfile, -⟩ := Disk.obstructed_entries
  obtain ⟨e, left, hfailed, hgone⟩ := Disk.update_fails_obstructed
  refine ⟨e, left, hfailed, ?_, hgone⟩
  rw [hfile]
  exact nofun

/-- The keyfile was opened to the account's own key pair, and what is gone is what was listed before the
directory. -/
theorem Keystore.update_failed_obstructed : ∃ e left,
    (Directory.sample.keystore 1).update KeyPair.one.address "p" "q" .zero ⟨.obstructed, []⟩ =
        .error e left ∧
      ∃ place gone name others mode, Disk.obstructed.LeadsTo Directory.sample.path place ∧
        Directory.keyfiles .obstructed place KeyPair.one.address = gone ++ name :: others ∧ gone ≠ [] ∧
        (∀ name ∈ gone, Directory.IsFile .obstructed place name) ∧
        Disk.obstructed.get? (name :: place) = some (.directory mode) ∧
        left.files = Directory.without place gone .obstructed := by
  obtain ⟨e, left, hfailed, -⟩ := Disk.update_fails_obstructed
  exact ⟨e, left, hfailed,
    (Keystore.update_failed Directory.sample 1 hfailed).2.2 .one Disk.load_obstructed rfl⟩

end Keyring
