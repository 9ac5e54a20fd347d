import Keyring.Proofs.Keystore.Failed

/-!
# Several keyfiles of one account

The name of a keyfile tells its account with digits in either case, so that there can be many names for one
account, the canonical one among them. All of them are removed together: what is left is the directory
without exactly the names that tell the account (`Directory.Cleared`). So the canonical name is free when a
new password is set, and the new keyfile is the only one then (`Directory.Renewed`). As long as the
keyfiles are files, whatever they hold, deleting never fails, and neither does setting a new password if the
first of them opens to the account's key (`Keystore.delete_update_duplicates`).
-/

namespace Keyring

open Keyring.Action (Yields)
open Keyfile (addressIn? entryName)

namespace Directory

variable {directory : Directory} {iterations : UInt32} {disk left : Disk} {place : Place}
  {address : Address} {key : KeyPair}

/-! ## What is left -/

/-- Exactly the entries whose names tell the account are gone. -/
structure Cleared (place : Place) (address : Address) (disk left : Disk) : Prop where
  names_perm : (left.names place).Perm
    ((disk.names place).filter fun name => addressIn? name ≠ some address)
  gone : ∀ name, addressIn? name = some address → left.get? (name :: place) = none
  kept : ∀ other, (∀ name, addressIn? name = some address → other ≠ name :: place) →
    left.get? other = disk.get? other

/-- Exactly the entries whose names tell the account are gone, and the canonical one is there with the
content. -/
structure Renewed (place : Place) (address : Address) (content : Bytes) (disk left : Disk) : Prop where
  names_perm : (left.names place).Perm
    (entryName address :: (disk.names place).filter fun name => addressIn? name ≠ some address)
  written : left.get? (entryName address :: place) = some (.file keyfileMode content)
  gone : ∀ name ≠ entryName address, addressIn? name = some address → left.get? (name :: place) = none
  kept : ∀ other, (∀ name, addressIn? name = some address → other ≠ name :: place) →
    left.get? other = disk.get? other

/-- Without an account's keyfiles, the directory is cleared of them and of nothing else. -/
theorem cleared_without (disk : Disk) (place : Place) (address : Address) :
    Cleared place address disk (without place (keyfiles disk place address) disk) where
  names_perm := by
    refine (names_without _ disk place).trans (.of_eq (List.filter_congr fun name hname => ?_))
    have hmem : name ∈ keyfiles disk place address ↔ addressIn? name = some address := by
      rw [keyfiles, List.mem_filter, decide_eq_true_eq]
      exact and_iff_right hname
    simp [hmem]
  gone := by
    intro name hname
    rw [get?_without]
    split
    · rfl
    · next hnot =>
      rw [← Disk.not_mem_names_iff]
      intro hmem
      exact hnot ⟨name, mem_keyfiles_iff.2 ⟨Disk.mem_names_iff.1 hmem, hname⟩, rfl⟩
  kept := by
    intro other hother
    rw [get?_without, if_neg]
    rintro ⟨name, hname, heq⟩
    exact hother name (mem_keyfiles_iff.1 hname).2 heq

/-- No keyfile of the account is left. -/
theorem Cleared.keyfiles_eq (h : Cleared place address disk left) : keyfiles left place address = [] := by
  rw [List.eq_nil_iff_forall_not_mem]
  intro name hname
  obtain ⟨hthere, htells⟩ := mem_keyfiles_iff.1 hname
  rw [h.gone name htells] at hthere
  cases hthere

/-- Among the names that are gone is the canonical one, so that it can be written again. -/
theorem Cleared.renewed (h : Cleared place address disk left) (content : Bytes) :
    Renewed place address content disk
      (left.put (entryName address :: place) (.file keyfileMode content)) where
  names_perm :=
    (Disk.names_put (h.gone _ (Keyfile.addressIn?_entryName address)) _).trans (h.names_perm.cons _)
  written := Disk.get?_put_self
  gone := by
    intro name hne hname
    have hplace : ¬ name :: place = entryName address :: place := by simp [hne]
    rw [Disk.get?_put_of_ne hplace]
    exact h.gone name hname
  kept := by
    intro other hother
    have hplace := hother _ (Keyfile.addressIn?_entryName address)
    rw [Disk.get?_put_of_ne hplace]
    exact h.kept other hother

/-! ## Removing and renewing -/

/-- The keyfiles of the account are files, whatever they hold. -/
def AllRead (directory : Directory) (disk : Disk) (place : Place) (address : Address) : Prop :=
  ∀ name ∈ keyfiles disk place address, ∃ content,
    disk.read (directory.path.joinName name) = .ok content

/-- Files are read if there is room for their paths. -/
theorem allRead_of_isFile (h : disk.LeadsTo directory.path place) (hroom : directory.HasRoom)
    (hfiles : ∀ name ∈ keyfiles disk place address, IsFile disk place name) :
    directory.AllRead disk place address := by
  obtain ⟨m, hlocate⟩ := id h
  obtain ⟨-, hp, -⟩ := Disk.locate_ok hlocate
  intro name hname
  obtain ⟨mode, content, hfile⟩ := hfiles name hname
  have hcheck := hroom.checkPath hp (mem_keyfiles_iff.1 hname).2
  refine ⟨content, ?_⟩
  rw [Disk.read_eq h (plain_of_mem_keyfiles hname) hcheck, hfile]

/-- Where an account is cleared, there is nothing left to be read. -/
theorem Cleared.allRead (h : Cleared place address disk left) (directory : Directory) :
    directory.AllRead left place address := by
  intro name hname
  rw [h.keyfiles_eq] at hname
  cases hname

namespace AllRead

/-- No directory stands in the way, so that the removal goes through. -/
theorem removed_eq (hread : directory.AllRead disk place address)
    (h : disk.LeadsTo directory.path place) :
    directory.removed (keyfiles disk place address) disk =
      (.ok (), without place (keyfiles disk place address) disk) := by
  have hcheck (name : Name) (hname : name ∈ keyfiles disk place address) :
      Disk.checkPath (directory.path.joinName name) = .ok () := by
    obtain ⟨content, hcontent⟩ := hread name hname
    exact checkPath_of_read h hname hcontent (mem_keyfiles_iff.1 hname).2
  rcases removed_keyfiles_cases h hcheck with
    ⟨-, hremoved⟩ | ⟨gone, name, others, mode, hsplit, -, hdirectory, -⟩
  · exact hremoved
  · have hname : name ∈ keyfiles disk place address :=
      hsplit ▸ List.mem_append_right _ List.mem_cons_self
    obtain ⟨content, hcontent⟩ := hread name hname
    obtain ⟨mode', hfile⟩ := get?_of_read h hname hcontent
    rw [hdirectory] at hfile
    cases hfile

/-- All entries of an account that can be read are removed, and nothing else is. -/
theorem yields_removeAll (hread : directory.AllRead disk place address)
    (h : disk.LeadsTo directory.path place) (iterations : UInt32) :
    Yields ((directory.keystore iterations).removeAll address
        ((keyfiles disk place address).map (directory.keyfile address))) disk
      (.ok ()) (without place (keyfiles disk place address) disk) := by
  have hremove := Directory.yields_removeAll directory iterations disk address (keyfiles disk place address)
  rw [hread.removed_eq h] at hremove
  exact hremove

/-- Deleting the account tells whether there is a keyfile and removes them all. -/
theorem yields_delete (hread : directory.AllRead disk place address)
    (h : disk.LeadsTo directory.path place) (iterations : UInt32) :
    Yields ((directory.keystore iterations).delete address) disk
      (.ok !(keyfiles disk place address).isEmpty)
      (without place (keyfiles disk place address) disk) := by
  have hdelete := Directory.yields_delete iterations h address
  have hremoved := hread.removed_eq h
  unfold deleted at hdelete
  cases hnames : keyfiles disk place address with
  | nil =>
    rw [hnames] at hdelete
    exact hdelete
  | cons name names =>
    rw [hnames] at hdelete hremoved
    simp only [hremoved] at hdelete
    exact hdelete

/-- Setting a new password removes all keyfiles, and then the canonical name is free for the new one. -/
theorem yields_update (hread : directory.AllRead disk place address)
    (h : disk.LeadsTo directory.path place) (iterations : UInt32) {first : Name} {others : List Name}
    (hnames : keyfiles disk place address = first :: others) {password : String}
    (hopened : directory.opened disk first password = .ok key) (haddress : key.address = address)
    (newPassword : String) (fresh : Seal) :
    Yields ((directory.keystore iterations).update address password newPassword fresh) disk (.ok true)
      ((without place (keyfiles disk place address) disk).put (entryName address :: place)
        (.file keyfileMode (Keyfile.encode key newPassword iterations fresh))) := by
  subst haddress
  have hupdate : Yields ((directory.keystore iterations).update key.address password newPassword fresh)
      disk _ _ := Directory.yields_update h key.address password newPassword fresh
  have hremoved := hread.removed_eq h
  have hleft := leadsTo_without h hremoved
  -- The canonical name tells the account, so that it is gone too, whether it was the first or not there.
  have hfree := (cleared_without disk place key.address).gone _ (Keyfile.addressIn?_entryName _)
  have hcheck := checkPath_of_opened h hnames hopened (Keyfile.addressIn?_entryName key.address)
  have hpersisted := persisted_eq iterations hleft key newPassword fresh hcheck hfree
  unfold updated at hupdate
  rw [hnames] at hremoved hpersisted hupdate ⊢
  simp only [hopened, hremoved, hpersisted] at hupdate
  exact hupdate

end AllRead

end Directory

open Directory in
/-- Let all keyfiles of an account be files, however many there are and whatever they hold. Deleting the
account tells whether there is one and takes away exactly them, so that there is none for a second time. If
the first of them opens to a key pair of the account, then a new password is set: the canonical name is
free once they are removed, and the keyfile that is written there is the only one and opens under the new
password, if readers take its number of iterations. -/
theorem Keystore.delete_update_duplicates (directory : Directory) (iterations : UInt32)
    {traced : Traced Disk} {place : Place} {address : Address}
    (h : traced.files.LeadsTo directory.path place)
    (hread : directory.AllRead traced.files place address) :
    let keystore := directory.keystore iterations
    let names := keyfiles traced.files place address
    let deleted := leaves (keystore.delete address) traced
    (names = [] → answer (keystore.delete address) traced = .ok false ∧ deleted.files = traced.files) ∧
      (names ≠ [] → answer (keystore.delete address) traced = .ok true ∧
        Cleared place address traced.files deleted.files) ∧
      (answer (keystore.delete address) deleted = .ok false ∧
        (leaves (keystore.delete address) deleted).files = deleted.files) ∧
      ∀ first others content password key newPassword fresh, names = first :: others →
        traced.files.read (directory.path.joinName first) = .ok content →
        Keyfile.decode content password = .ok key → key.address = address →
        let removed := leaves (keystore.removeAll address (names.map (directory.keyfile address))) traced
        let update := keystore.update address password newPassword fresh
        removed.files.get? (entryName address :: place) = none ∧
          answer update traced = .ok true ∧
          ∃ written, Renewed place address written traced.files (leaves update traced).files ∧
            (1 ≤ iterations.toNat ∧ iterations.toNat ≤ 10000000 →
              Keyfile.decode written newPassword = .ok key) := by
  intro keystore names deleted
  obtain ⟨disk, events⟩ := traced
  have hcleared := cleared_without disk place address
  obtain ⟨hanswer, hfiles⟩ := hread.yields_delete h iterations events
  have hleft : Cleared place address disk deleted.files := by
    rw [hfiles]
    exact hcleared
  refine ⟨?_, ?_, ?_, ?_⟩
  · intro hnone
    have hnames : keyfiles disk place address = [] := hnone
    rw [hnames] at hanswer hfiles
    exact ⟨hanswer, hfiles⟩
  · intro hsome
    have hempty : (keyfiles disk place address).isEmpty = false := List.isEmpty_eq_false_iff.2 hsome
    rw [hempty] at hanswer
    exact ⟨hanswer, hleft⟩
  · have hleads : deleted.files.LeadsTo directory.path place := by
      rw [hfiles]
      exact leadsTo_without h (hread.removed_eq h)
    have hagain := (hleft.allRead directory).yields_delete hleads iterations deleted.events
    rw [hleft.keyfiles_eq] at hagain
    exact hagain
  · intro first others content password key newPassword fresh hnames hcontent hdecode haddress removed update
    have hopened : directory.opened disk first password = .ok key :=
      opened_eq_ok_iff.2 ⟨content, hcontent, hdecode⟩
    obtain ⟨-, hremoved⟩ := hread.yields_removeAll h iterations events
    obtain ⟨hupdated, hwritten⟩ :=
      hread.yields_update h iterations hnames hopened haddress newPassword fresh events
    refine ⟨?_, hupdated, Keyfile.encode key newPassword iterations fresh, ?_, ?_⟩
    · rw [hremoved]
      exact hcleared.gone _ (Keyfile.addressIn?_entryName address)
    · rw [hwritten]
      exact hcleared.renewed _
    · exact Keyfile.decode_encode key newPassword fresh

/-! ### A keyfile under capital digits, and another file under the canonical name -/

namespace Disk

/-- The sample directory with two files for one account, a keyfile and an empty file after it. -/
def doubled : Disk :=
  let first := Node.file Directory.keyfileMode (Keyfile.encode .one "p" 1 .zero)
  (Disk.sample.put (Keyfile.capitalName KeyPair.one.address :: [[0x6b]]) first).put
    (entryName KeyPair.one.address :: [[0x6b]]) (.file Directory.keyfileMode [])

/-- Both names are those of one account, and the one in capitals is listed first. -/
theorem doubled_entries : doubled.LeadsTo Directory.sample.path [[0x6b]] ∧
    Directory.keyfiles doubled [[0x6b]] KeyPair.one.address =
      [Keyfile.capitalName KeyPair.one.address, entryName KeyPair.one.address] ∧
    doubled.get? (Keyfile.capitalName KeyPair.one.address :: [[0x6b]]) =
      some (.file Directory.keyfileMode (Keyfile.encode .one "p" 1 .zero)) ∧
    doubled.get? (entryName KeyPair.one.address :: [[0x6b]]) =
      some (.file Directory.keyfileMode []) :=
  sample_put_put (Keyfile.addressIn?_capitalName _) (Keyfile.addressIn?_entryName _)
    Keyfile.capitalName_one_ne _ _

/-- Both can be read. -/
theorem allRead_doubled : Directory.sample.AllRead doubled [[0x6b]] KeyPair.one.address := by
  obtain ⟨hleads, hnames, hfirst, hsecond⟩ := doubled_entries
  refine Directory.allRead_of_isFile hleads Directory.hasRoom_sample ?_
  rw [hnames]
  intro name hname
  rcases List.mem_cons.1 hname with heq | hname
  · rw [heq]
    exact ⟨_, _, hfirst⟩
  · rw [List.mem_singleton.1 hname]
    exact ⟨_, _, hsecond⟩

end Disk

/-- Both files are removed together, and after a new password there is one keyfile. -/
theorem Keystore.delete_update_doubled :
    let keystore := Directory.sample.keystore 1
    let address := KeyPair.one.address
    let traced : Traced Disk := ⟨.doubled, []⟩
    answer (keystore.delete address) traced = .ok true ∧
      answer (keystore.delete address) (leaves (keystore.delete address) traced) = .ok false ∧
      answer (keystore.update address "p" "q" .zero) traced = .ok true ∧
      ∃ written, Directory.Renewed [[0x6b]] address written .doubled
          (leaves (keystore.update address "p" "q" .zero) traced).files ∧
        Keyfile.decode written "q" = .ok .one := by
  intro keystore address traced
  obtain ⟨hleads, hnames, hfirst, -⟩ := Disk.doubled_entries
  have hread : Directory.sample.AllRead traced.files [[0x6b]] address := Disk.allRead_doubled
  have hplace : traced.files.LeadsTo Directory.sample.path [[0x6b]] := hleads
  have hcontent : traced.files.read (Directory.sample.path.joinName (Keyfile.capitalName address)) =
      .ok (Keyfile.encode .one "p" 1 .zero) := by
    have htells := Keyfile.addressIn?_capitalName address
    have hcheck := Directory.hasRoom_sample.checkPath (by decide) htells
    have hfile : traced.files.get? (Keyfile.capitalName address :: [[0x6b]]) =
        some (.file Directory.keyfileMode (Keyfile.encode .one "p" 1 .zero)) := hfirst
    rw [Disk.read_eq hplace (Keyfile.plain_of_addressIn? htells) hcheck, hfile]
  have hdecode := Keyfile.decode_encode .one "p" .zero (show Keyfile.Opens 1 by decide)
  obtain ⟨-, hdeleted, ⟨hagain, -⟩, hupdated⟩ :=
    Keystore.delete_update_duplicates Directory.sample 1 hplace hread
  have hsome : Directory.keyfiles traced.files [[0x6b]] address ≠ [] := by
    rw [hnames]
    exact List.cons_ne_nil _ _
  obtain ⟨-, hanswer, written, hrenewed, hopens⟩ :=
    hupdated _ _ _ "p" .one "q" .zero hnames hcontent hdecode rfl
  exact ⟨(hdeleted hsome).1, hagain, hanswer, written, hrenewed, hopens (by decide)⟩

end Keyring
