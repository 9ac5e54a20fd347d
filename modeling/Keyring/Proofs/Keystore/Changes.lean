import Keyring.Proofs.Keystore.Failed

/-!
# What a change leaves alone

A keystore changes a directory in two ways. It makes a keyfile under a canonical name that is free
(`Directory.Added`), and it takes away files whose names tell one account (`Directory.Removed`). Whether an
operation succeeds or fails, what it leaves is put together from these, so that everything else in the
directory and elsewhere is what it was before: creating and importing make one keyfile or none, deleting only
takes away, and a new password takes away first and makes one keyfile or none after that.
-/

namespace Keyring

open Keyfile (addressIn? entryName)

/-- What importing answers where writing the keyfile answers this: nothing is imported if the place is
taken. -/
def importedFrom : Except AccountError Address → Except AccountError (Option Address)
  | .ok address => .ok (some address)
  | .error (.io _ ⟨.alreadyExists, _⟩) => .ok none
  | .error e => .error e

namespace Directory

variable {directory : Directory} {iterations : UInt32} {disk left : Disk} {place : Place}
  {address : Address} {key : KeyPair} {password : String} {fresh : Seal}

/-! ## Making a keyfile -/

/-- The canonical name of the account was free, and now it is a keyfile with the content. All else is as
before. -/
structure Added (place : Place) (address : Address) (content : Bytes) (disk left : Disk) : Prop where
  free : disk.get? (entryName address :: place) = none
  names_perm : (left.names place).Perm (entryName address :: disk.names place)
  written : left.get? (entryName address :: place) = some (.file keyfileMode content)
  kept : ∀ other ≠ entryName address :: place, left.get? other = disk.get? other
  work_eq : left.work = disk.work

/-- Paths lead to the directories that they led to. -/
theorem Added.leadsTo {content : Bytes} (h : Added place address content disk left) {p : Path}
    {target : Place} (hleads : disk.LeadsTo p target) : left.LeadsTo p target := by
  refine hleads.mono (fun other mode hother => ?_) h.work_eq
  rw [h.kept other, hother]
  rintro rfl
  rw [h.free] at hother
  cases hother

/-- A keyfile that is made where there was nothing is what is added. -/
theorem added_put (hfree : disk.get? (entryName address :: place) = none) (content : Bytes) :
    Added place address content disk
      (disk.put (entryName address :: place) (.file keyfileMode content)) where
  free := hfree
  names_perm := Disk.names_put hfree _
  written := Disk.get?_put_self
  kept := by
    intro other hother
    exact Disk.get?_put_of_ne hother
  work_eq := rfl

/-- One keyfile is made under the canonical name of some account, or none. -/
def MayAdd (place : Place) (disk left : Disk) : Prop :=
  left = disk ∨ ∃ address content, Added place address content disk left

/-- What tells no account is as before. -/
theorem MayAdd.get?_eq (h : MayAdd place disk left) {other : Place}
    (hother : ∀ name address, other = name :: place → addressIn? name ≠ some address) :
    left.get? other = disk.get? other := by
  rcases h with rfl | ⟨address, content, hadded⟩
  · rfl
  · exact hadded.kept other fun heq => hother _ _ heq (Keyfile.addressIn?_entryName address)

/-- What is there stays as it is. -/
theorem MayAdd.get?_of_some (h : MayAdd place disk left) {other : Place} {node : Node}
    (hsome : disk.get? other = some node) : left.get? other = some node := by
  rcases h with rfl | ⟨address, content, hadded⟩
  · exact hsome
  · rw [hadded.kept other, hsome]
    rintro rfl
    rw [hadded.free] at hsome
    cases hsome

/-- Where a keyfile may be added, paths still lead to where they led. -/
theorem MayAdd.leadsTo (h : MayAdd place disk left) {p : Path} {target : Place}
    (hleads : disk.LeadsTo p target) : left.LeadsTo p target := by
  rcases h with rfl | ⟨address, content, hadded⟩
  · exact hleads
  · exact hadded.leadsTo hleads

/-- Persisting a key pair adds its keyfile at most. -/
theorem mayAdd_persisted (iterations : UInt32) (h : disk.LeadsTo directory.path place) (key : KeyPair)
    (password : String) (fresh : Seal) :
    MayAdd place disk (directory.persisted iterations disk key password fresh).2 := by
  rcases directory.persisted_cases iterations disk key password fresh with
    ⟨left, hpersisted⟩ | ⟨e, hpersisted⟩
  · obtain ⟨-, -, hnone, rfl⟩ := of_persisted_ok h hpersisted
    rw [hpersisted]
    exact .inr ⟨key.address, _, added_put hnone _⟩
  · rw [hpersisted]
    exact .inl rfl

/-- An import of an account without keyfiles writes one. -/
theorem imported_of_keyfiles_nil {key : KeyPair} (hnone : keyfiles disk place key.address = [])
    (password : String) (fresh : Seal) :
    directory.imported iterations disk place key password fresh =
      (importedFrom (directory.persisted iterations disk key password fresh).1,
        (directory.persisted iterations disk key password fresh).2) := by
  unfold imported persistedNew
  rw [hnone]
  rcases directory.persisted_cases iterations disk key password fresh with
    ⟨left, hresult⟩ | ⟨e, hresult⟩
  · rw [hresult]
    rfl
  · rw [hresult]
    cases e with
    | io path source =>
      obtain ⟨kind, text⟩ := source
      cases kind <;> rfl
    | _ => rfl

/-- An import of an account that has keyfiles does nothing. -/
theorem imported_of_keyfiles_ne_nil {key : KeyPair} (hsome : keyfiles disk place key.address ≠ [])
    (password : String) (fresh : Seal) :
    directory.imported iterations disk place key password fresh = (.ok none, disk) := by
  rw [imported, List.isEmpty_eq_false_iff.2 hsome]
  rfl

/-- An import leaves what writing a keyfile leaves, or what was there. -/
theorem imported_snd (directory : Directory) (iterations : UInt32) (disk : Disk) (place : Place)
    (key : KeyPair) (password : String) (fresh : Seal) :
    (directory.imported iterations disk place key password fresh).2 = disk ∨
      (directory.imported iterations disk place key password fresh).2 =
        (directory.persisted iterations disk key password fresh).2 := by
  by_cases hnone : keyfiles disk place key.address = []
  · rw [imported_of_keyfiles_nil hnone]
    generalize directory.persisted iterations disk key password fresh = effect
    exact .inr rfl
  · rw [imported_of_keyfiles_ne_nil hnone]
    exact .inl rfl

/-- So does importing it. -/
theorem mayAdd_imported (iterations : UInt32) (h : disk.LeadsTo directory.path place) (key : KeyPair)
    (password : String) (fresh : Seal) :
    MayAdd place disk (directory.imported iterations disk place key password fresh).2 := by
  rcases directory.imported_snd iterations disk place key password fresh with hsame | hwritten
  · exact .inl hsame
  · rw [hwritten]
    exact mayAdd_persisted iterations h key password fresh

/-! ## Taking keyfiles away -/

/-- What is not as before was a file under a name that tells the account, and is gone. -/
structure Removed (place : Place) (address : Address) (disk left : Disk) : Prop where
  kept_or_gone : ∀ other, left.get? other = disk.get? other ∨ left.get? other = none ∧
    ∃ name, other = name :: place ∧ addressIn? name = some address ∧ IsFile disk place name
  work_eq : left.work = disk.work

/-- Nothing is removed from a disk that stays as it is. -/
theorem Removed.refl (place : Place) (address : Address) (disk : Disk) :
    Removed place address disk disk :=
  ⟨fun _ => .inl rfl, rfl⟩

/-- What does not tell the account is as before. -/
theorem Removed.get?_eq (h : Removed place address disk left) {other : Place}
    (hother : ∀ name, other = name :: place → addressIn? name ≠ some address) :
    left.get? other = disk.get? other := by
  rcases h.kept_or_gone other with hsame | ⟨-, name, heq, htells, -⟩
  · exact hsame
  · exact absurd htells (hother name heq)

/-- Paths lead to the directories that they led to. -/
theorem Removed.leadsTo (h : Removed place address disk left) {p : Path} {target : Place}
    (hleads : disk.LeadsTo p target) : left.LeadsTo p target := by
  refine hleads.mono (fun other mode hother => ?_) h.work_eq
  rcases h.kept_or_gone other with hsame | ⟨-, name, rfl, -, _, _, hfile⟩
  · rw [hsame, hother]
  · rw [hfile] at hother
    cases hother

/-- A removal that goes on after an entry that it removed removes that entry too. -/
theorem Removed.of_erase {name : Name} {mode : Nat} {content : Bytes}
    (hname : addressIn? name = some address)
    (hfile : disk.get? (name :: place) = some (.file mode content))
    (h : Removed place address (disk.erase (name :: place)) left) : Removed place address disk left := by
  refine ⟨fun other => ?_, h.work_eq⟩
  have hget (here : Place) := Disk.get?_erase disk (name :: place) here (List.cons_ne_nil _ _)
  rcases h.kept_or_gone other with hsame | ⟨hnone, gone, hplace, htells, mode', content', hgone⟩
  · rw [hget] at hsame
    split at hsame
    · next heq => exact .inr ⟨hsame, name, heq, hname, mode, content, hfile⟩
    · exact .inl hsame
  · rw [hget] at hgone
    split at hgone
    · cases hgone
    · exact .inr ⟨hnone, gone, hplace, htells, mode', content', hgone⟩

/-- Removing keyfiles of an account removes nothing else, also if it stops before the last one. -/
theorem removed_removed (h : disk.LeadsTo directory.path place) {names : List Name}
    (hnames : ∀ name ∈ names, addressIn? name = some address) :
    Removed place address disk (directory.removed names disk).2 := by
  induction names generalizing disk with
  | nil => exact .refl _ _ _
  | cons name names ih =>
    have hname := hnames name List.mem_cons_self
    rw [removed]
    cases hremove : disk.remove (directory.path.joinName name) with
    | error e => exact .refl _ _ _
    | ok disk' =>
      obtain ⟨-, ⟨mode, content, hfile⟩, rfl⟩ :=
        Disk.of_remove_ok h (Keyfile.plain_of_addressIn? hname) hremove
      have hremoved := ih (h.erase (List.cons_ne_nil _ _) hfile)
        fun other hother => hnames other (List.mem_cons_of_mem _ hother)
      exact hremoved.of_erase hname hfile

/-- Removing an account's keyfiles, as far as that goes, removes nothing else. -/
theorem removed_keyfiles (h : disk.LeadsTo directory.path place) (address : Address) :
    Removed place address disk (directory.removed (keyfiles disk place address) disk).2 :=
  removed_removed h fun _ hname => (mem_keyfiles_iff.1 hname).2

/-- Deleting an account takes away files of the account alone, whether it succeeds or not. -/
theorem removed_deleted (h : disk.LeadsTo directory.path place) (address : Address) :
    Removed place address disk (directory.deleted disk place address).2 := by
  have hremoved := removed_keyfiles h address
  unfold deleted
  cases hnames : keyfiles disk place address with
  | nil => exact .refl _ _ _
  | cons name names =>
    rw [hnames] at hremoved
    simp only
    generalize directory.removed (name :: names) disk = result at hremoved ⊢
    obtain ⟨result, left⟩ := result
    cases result with
    | ok => exact hremoved
    | error e => exact hremoved

/-- A new password takes away files of the account and then makes one keyfile or none, whether it succeeds
or not. -/
theorem removed_updated (iterations : UInt32) (h : disk.LeadsTo directory.path place) (address : Address)
    (password newPassword : String) (fresh : Seal) :
    ∃ between, Removed place address disk between ∧
      MayAdd place between
        (directory.updated iterations disk place address password newPassword fresh).2 := by
  have hnothing : Removed place address disk disk ∧ MayAdd place disk disk := ⟨.refl _ _ _, .inl rfl⟩
  have hremoved := removed_keyfiles h address
  unfold updated
  cases hnames : keyfiles disk place address with
  | nil => exact ⟨disk, hnothing⟩
  | cons name names =>
    rw [hnames] at hremoved
    simp only
    cases directory.opened disk name password with
    | error e => exact ⟨disk, hnothing⟩
    | ok key =>
      simp only
      generalize directory.removed (name :: names) disk = result at hremoved ⊢
      obtain ⟨result, between⟩ := result
      cases result with
      | error e => exact ⟨between, hremoved, .inl rfl⟩
      | ok =>
        have hadd := mayAdd_persisted iterations (hremoved.leadsTo h) key newPassword fresh
        simp only
        generalize directory.persisted iterations between key newPassword fresh = result at hadd ⊢
        obtain ⟨result, left⟩ := result
        cases result with
        | ok => exact ⟨between, hremoved, hadd⟩
        | error e => exact ⟨between, hremoved, hadd⟩

end Directory

end Keyring
