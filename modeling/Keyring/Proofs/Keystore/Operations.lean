import Keyring.Keystore
import Keyring.Proofs.Keyfile.Codec
import Keyring.Proofs.Storage.Directory

/-!
# What the keystore of a directory does

Each operation of a keystore that keeps its keyfiles in a directory is told by a function from the disk
to an answer and the disk that it leaves (`Effect`), as long as the path of the directory leads to one.
The functions are put together from three: opening a keyfile, removing the keyfiles of an account and
making a new one.
-/

namespace Keyring

open Keyring.Action (Yields)
open Keyfile (addressIn? entryName)

/-- The keystore of a directory. -/
def Directory.keystore (directory : Directory) (iterations : UInt32) : Keystore Disk :=
  ⟨directory.storage, iterations⟩

/-- An answer and the disk that is left. -/
abbrev Effect (α : Type) := Except AccountError α × Disk

namespace Directory

variable (directory : Directory) (iterations : UInt32) (disk : Disk) (place : Place)

/-! ## Effects -/

/-- The key pair in a keyfile. -/
def opened (name : Name) (password : String) : Except AccountError KeyPair :=
  match disk.read (directory.path.joinName name) with
  | .error e => .error (.io (directory.path.joinName name) e)
  | .ok content => (Keyfile.decode content password).mapError .invalidCredentials

/-- What loading an account answers, whatever is on the disk. -/
def fetched (address : Address) (password : String) : Except AccountError (Option KeyPair) :=
  match directory.found disk address with
  | .error e => .error e
  | .ok [] => .ok none
  | .ok (name :: _) => (directory.opened disk name password).map some

/-- What loading an account answers where the path leads to a directory. -/
def loaded (address : Address) (password : String) : Except AccountError (Option KeyPair) :=
  match keyfiles disk place address with
  | [] => .ok none
  | name :: _ => (directory.opened disk name password).map some

/-- What writing the keyfile of a key pair does. -/
def persisted (key : KeyPair) (password : String) (fresh : Seal) : Effect Address :=
  match disk.create (directory.keyfilePath key.address) keyfileMode
      (Keyfile.encode key password iterations fresh) with
  | .ok disk' => (.ok key.address, disk')
  | .error e => (.error (.io (directory.keyfilePath key.address) e), disk)

/-- What writing a keyfile does whose place may be taken. -/
def persistedNew (key : KeyPair) (password : String) (fresh : Seal) : Effect Bool :=
  match directory.persisted iterations disk key password fresh with
  | (.ok _, disk') => (.ok true, disk')
  | (.error (.io _ ⟨.alreadyExists, _⟩), disk') => (.ok false, disk')
  | (.error e, disk') => (.error e, disk')

/-- What importing a key pair does. -/
def imported (key : KeyPair) (password : String) (fresh : Seal) : Effect (Option Address) :=
  if (keyfiles disk place key.address).isEmpty then
    match directory.persistedNew iterations disk key password fresh with
    | (.ok true, disk') => (.ok (some key.address), disk')
    | (.ok false, disk') => (.ok none, disk')
    | (.error e, disk') => (.error e, disk')
  else (.ok none, disk)

/-- What deleting an account does. -/
def deleted (address : Address) : Effect Bool :=
  match keyfiles disk place address with
  | [] => (.ok false, disk)
  | names =>
    match directory.removed names disk with
    | (.ok (), disk') => (.ok true, disk')
    | (.error e, disk') => (.error e, disk')

/-- What a new password for an account does. -/
def updated (address : Address) (password newPassword : String) (fresh : Seal) : Effect Bool :=
  match keyfiles disk place address with
  | [] => (.ok false, disk)
  | name :: others =>
    match directory.opened disk name password with
    | .error e => (.error e, disk)
    | .ok key =>
      match directory.removed (name :: others) disk with
      | (.error e, disk') => (.error e, disk')
      | (.ok (), disk') =>
        match directory.persisted iterations disk' key newPassword fresh with
        | (.ok _, disk'') => (.ok true, disk'')
        | (.error e, disk'') => (.error e, disk'')

/-! ## Operations have these effects -/

section
variable {directory iterations disk place}

/-- Opening an entry reads its file and decodes it. -/
theorem yields_open (directory : Directory) (iterations : UInt32) (disk : Disk) (address : Address)
    (name : Name) (password : String) :
    Yields ((directory.keystore iterations).open? (directory.keyfile address name) password) disk
      (directory.opened disk name password) disk := by
  unfold opened
  cases hread : disk.read (directory.path.joinName name) with
  | error e =>
    have hfirst : Yields (directory.storage.read (directory.keyfile address name)) disk
        (.error (.io (directory.path.joinName name) e)) disk := yields_read_error hread
    exact hfirst.bind_error
  | ok content =>
    have hfirst : Yields (directory.storage.read (directory.keyfile address name)) disk
        (.ok content) disk := yields_read hread
    refine hfirst.bind ?_
    simp only
    cases Keyfile.decode content password with
    | ok key => exact Action.yields_pure _ _
    | error cause => exact Action.yields_throw _ _

/-- Loading fetches the first keyfile that is found, and changes nothing. -/
theorem yields_load_fetched (directory : Directory) (iterations : UInt32) (disk : Disk)
    (address : Address) (password : String) :
    Yields ((directory.keystore iterations).load address password) disk
      (directory.fetched disk address password) disk := by
  have hfind := yields_find_found directory disk address
  unfold fetched
  cases hfound : directory.found disk address with
  | error e =>
    rw [hfound] at hfind
    exact hfind.bind_error
  | ok names =>
    rw [hfound] at hfind
    refine hfind.bind ?_
    cases names with
    | nil => exact Action.yields_pure _ _
    | cons name names =>
      have hopen := yields_open directory iterations disk address name password
      simp only [List.map_cons]
      cases hopened : directory.opened disk name password with
      | error e => rw [hopened] at hopen; exact hopen.bind_error
      | ok key => rw [hopened] at hopen; exact hopen.bind (Action.yields_pure _ _)

/-- What is fetched is what is loaded from the place that the path leads to. -/
theorem fetched_eq (h : disk.LeadsTo directory.path place) (address : Address) (password : String) :
    directory.fetched disk address password = directory.loaded disk place address password := by
  rw [fetched, found_eq h, loaded]
  cases keyfiles disk place address with
  | nil => rfl
  | cons name names => rfl

/-- Loading opens the keyfile that is listed first, and changes nothing. -/
theorem yields_load (h : disk.LeadsTo directory.path place) (address : Address) (password : String) :
    Yields ((directory.keystore iterations).load address password) disk
      (directory.loaded disk place address password) disk := by
  rw [← fetched_eq h]
  exact yields_load_fetched directory iterations disk address password

/-- Persisting a key pair makes its keyfile, or fails and changes nothing. -/
theorem yields_persist (directory : Directory) (iterations : UInt32) (disk : Disk) (key : KeyPair)
    (password : String) (fresh : Seal) :
    Yields ((directory.keystore iterations).persist key password fresh) disk
      (directory.persisted iterations disk key password fresh).1
      (directory.persisted iterations disk key password fresh).2 := by
  unfold persisted
  cases hcreate : disk.create (directory.keyfilePath key.address) keyfileMode
      (Keyfile.encode key password iterations fresh) with
  | ok disk' => exact (yields_write hcreate).bind (Action.yields_pure _ _)
  | error e => exact (yields_write_error hcreate).bind_error

/-- Creating an account persists its key pair, whatever there is. -/
theorem yields_create (directory : Directory) (iterations : UInt32) (disk : Disk) (key : KeyPair)
    (password : String) (fresh : Seal) :
    Yields ((directory.keystore iterations).create key password fresh) disk
      (directory.persisted iterations disk key password fresh).1
      (directory.persisted iterations disk key password fresh).2 := by
  have hpersist := yields_persist directory iterations disk key password fresh
  cases hresult : (directory.persisted iterations disk key password fresh).1 with
  | ok address =>
    rw [hresult] at hpersist
    exact hpersist.bind ((Action.yields_note _ _).bind (Action.yields_pure _ _))
  | error e =>
    rw [hresult] at hpersist
    exact hpersist.bind_error

/-- An account is managed if it has a keyfile. -/
theorem yields_isManaged (h : disk.LeadsTo directory.path place) (address : Address) :
    Yields ((directory.keystore iterations).isManaged address) disk
      (.ok !(keyfiles disk place address).isEmpty) disk := by
  refine (yields_find h address).bind ?_
  rw [List.isEmpty_map]
  exact Action.yields_pure _ _

/-- All accounts with a keyfile are listed, in ascending order and each once. -/
theorem yields_list (h : disk.LeadsTo directory.path place) :
    Yields (directory.keystore iterations).list disk
      (.ok (Address.ascending ((disk.names place).filterMap addressIn?))) disk := by
  refine (yields_entries h).bind ?_
  rw [map_address_stored?]
  exact Action.yields_pure _ _

/-- Only the failure that tells that the place is taken is caught. -/
theorem yields_persistNew (directory : Directory) (iterations : UInt32) (disk : Disk) (key : KeyPair)
    (password : String) (fresh : Seal) :
    Yields ((directory.keystore iterations).persistNew key password fresh) disk
      (directory.persistedNew iterations disk key password fresh).1
      (directory.persistedNew iterations disk key password fresh).2 := by
  have hpersist := yields_persist directory iterations disk key password fresh
  unfold persistedNew Keystore.persistNew
  generalize directory.persisted iterations disk key password fresh = result at hpersist ⊢
  obtain ⟨result, disk'⟩ := result
  cases result with
  | ok address =>
    refine Yields.tryCatch_ok ?_
    exact hpersist.bind (Action.yields_pure _ _)
  | error e =>
    refine Yields.tryCatch_error hpersist.bind_error ?_
    cases e with
    | io path source =>
      obtain ⟨kind, text⟩ := source
      cases kind with
      | alreadyExists => exact Action.yields_pure _ _
      | notFound | other => exact Action.yields_throw _ _
    | _ => exact Action.yields_throw _ _

/-- Importing a key pair persists it unless its account has a keyfile. -/
theorem yields_importKey (h : disk.LeadsTo directory.path place) (key : KeyPair) (password : String)
    (fresh : Seal) :
    Yields ((directory.keystore iterations).importKey key password fresh) disk
      (directory.imported iterations disk place key password fresh).1
      (directory.imported iterations disk place key password fresh).2 := by
  have hpersist := yields_persistNew directory iterations disk key password fresh
  refine (yields_isManaged h key.address).bind ?_
  unfold imported
  generalize directory.persistedNew iterations disk key password fresh = result at hpersist ⊢
  obtain ⟨result, disk'⟩ := result
  cases hmanaged : (keyfiles disk place key.address).isEmpty with
  | false => exact (Action.yields_note _ _).bind (Action.yields_pure _ _)
  | true =>
    cases result with
    | error e => exact hpersist.bind_error
    | ok isNew =>
      cases isNew with
      | false => exact hpersist.bind ((Action.yields_note _ _).bind (Action.yields_pure _ _))
      | true => exact hpersist.bind ((Action.yields_note _ _).bind (Action.yields_pure _ _))

/-- Removing keyfiles notes that there are several, and then removes one after the other. -/
theorem yields_removeAll (directory : Directory) (iterations : UInt32) (disk : Disk)
    (address : Address) (names : List Name) :
    Yields ((directory.keystore iterations).removeAll address
        (names.map (directory.keyfile address))) disk
      (directory.removed names disk).1 (directory.removed names disk).2 := by
  have hremove := yields_forM_remove directory address names disk
  unfold Keystore.removeAll
  split
  · exact (Action.yields_note _ _).bind hremove
  · exact hremove

/-- Deleting removes the keyfiles of the account, one after the other. -/
theorem yields_delete (iterations : UInt32) (h : disk.LeadsTo directory.path place) (address : Address) :
    Yields ((directory.keystore iterations).delete address) disk
      (directory.deleted disk place address).1 (directory.deleted disk place address).2 := by
  refine (yields_find h address).bind ?_
  unfold deleted
  cases hnames : keyfiles disk place address with
  | nil => exact Action.yields_pure _ _
  | cons name names =>
    have hremove := yields_removeAll directory iterations disk address (name :: names)
    simp only
    generalize directory.removed (name :: names) disk = result at hremove ⊢
    obtain ⟨result, disk'⟩ := result
    cases result with
    | ok => exact hremove.bind ((Action.yields_note _ _).bind (Action.yields_pure _ _))
    | error e => exact hremove.bind_error

/-- The keyfiles are removed once the first of them is opened, and only then the new one is made. -/
theorem yields_update (h : disk.LeadsTo directory.path place) (address : Address)
    (password newPassword : String) (fresh : Seal) :
    Yields ((directory.keystore iterations).update address password newPassword fresh) disk
      (directory.updated iterations disk place address password newPassword fresh).1
      (directory.updated iterations disk place address password newPassword fresh).2 := by
  refine (yields_find h address).bind ?_
  unfold updated
  cases hnames : keyfiles disk place address with
  | nil => exact Action.yields_pure _ _
  | cons name names =>
    have hopen := yields_open directory iterations disk address name password
    have hremove := yields_removeAll directory iterations disk address (name :: names)
    simp only [List.map_cons]
    generalize directory.opened disk name password = opened at hopen ⊢
    cases opened with
    | error e => exact hopen.bind_error
    | ok key =>
      refine hopen.bind ?_
      simp only
      generalize directory.removed (name :: names) disk = result at hremove ⊢
      obtain ⟨result, disk'⟩ := result
      cases result with
      | error e => exact hremove.bind_error
      | ok =>
        refine hremove.bind ?_
        have hpersist := yields_persist directory iterations disk' key newPassword fresh
        simp only
        generalize directory.persisted iterations disk' key newPassword fresh = result at hpersist ⊢
        obtain ⟨result, disk''⟩ := result
        cases result with
        | ok => exact hpersist.bind ((Action.yields_note _ _).bind (Action.yields_pure _ _))
        | error e => exact hpersist.bind_error

end

/-! ## What a keyfile's place tells -/

section
variable {directory iterations disk place}

/-- A keyfile is read from its place. -/
theorem opened_eq (h : disk.LeadsTo directory.path place) {name : Name} {address : Address}
    (hname : addressIn? name = some address)
    (hcheck : Disk.checkPath (directory.path.joinName name) = .ok ()) {mode : Nat} {content : Bytes}
    (hfile : disk.get? (name :: place) = some (.file mode content)) (password : String) :
    directory.opened disk name password =
      (Keyfile.decode content password).mapError .invalidCredentials := by
  have hread := Disk.read_eq h (Keyfile.plain_of_addressIn? hname) hcheck
  rw [hfile] at hread
  rw [opened, hread]

/-- A keyfile is written where nothing is, if there is room for its path. -/
theorem persisted_eq (iterations : UInt32) (h : disk.LeadsTo directory.path place) (key : KeyPair)
    (password : String) (fresh : Seal)
    (hcheck : Disk.checkPath (directory.path.joinName (entryName key.address)) = .ok ())
    (hnone : disk.get? (entryName key.address :: place) = none) :
    directory.persisted iterations disk key password fresh =
      (.ok key.address, disk.put (entryName key.address :: place)
        (.file keyfileMode (Keyfile.encode key password iterations fresh))) := by
  have hcreate := Disk.create_eq h (Keyfile.plain_entryName key.address) hcheck keyfileMode
    (Keyfile.encode key password iterations fresh)
  rw [hnone] at hcreate
  unfold persisted
  rw [show directory.keyfilePath key.address = directory.path.joinName (entryName key.address) from
    rfl, hcreate]

/-- A keyfile that was written was not there. -/
theorem of_persisted_ok (h : disk.LeadsTo directory.path place) {key : KeyPair} {password : String}
    {fresh : Seal} {address : Address} {disk' : Disk}
    (hpersisted : directory.persisted iterations disk key password fresh = (.ok address, disk')) :
    address = key.address ∧
      Disk.checkPath (directory.path.joinName (entryName key.address)) = .ok () ∧
      disk.get? (entryName key.address :: place) = none ∧
      disk' = disk.put (entryName key.address :: place)
        (.file keyfileMode (Keyfile.encode key password iterations fresh)) := by
  unfold persisted at hpersisted
  cases hcreate : disk.create (directory.keyfilePath key.address) keyfileMode
      (Keyfile.encode key password iterations fresh) with
  | error e => rw [hcreate] at hpersisted; cases hpersisted
  | ok made =>
    rw [hcreate] at hpersisted
    cases hpersisted
    exact ⟨rfl, Disk.of_create_ok h (Keyfile.plain_entryName key.address) hcreate⟩

/-- Writing a keyfile changes nothing if it fails. -/
theorem persisted_cases (directory : Directory) (iterations : UInt32) (disk : Disk) (key : KeyPair)
    (password : String) (fresh : Seal) :
    (∃ disk', directory.persisted iterations disk key password fresh = (.ok key.address, disk')) ∨
      ∃ e, directory.persisted iterations disk key password fresh = (.error e, disk) := by
  unfold persisted
  split
  · exact .inl ⟨_, rfl⟩
  · exact .inr ⟨_, rfl⟩

end

end Directory

/-! ## A directory that theorems are tried on -/

/-- A directory below the root. -/
def Directory.sample : Directory :=
  ⟨⟨[0x2f, 0x6b]⟩⟩

/-- A disk with that directory, which is empty. -/
def Disk.sample : Disk :=
  ⟨[([[0x6b]], .directory Directory.privateMode)], by simp, ⟨[], 0⟩, fun _ => .byAge⟩

/-- The path of the sample directory leads to it. -/
theorem Disk.sample_leadsTo : Disk.sample.LeadsTo Directory.sample.path [[0x6b]] :=
  ⟨Directory.privateMode, by rfl⟩

/-- It is empty. -/
theorem Disk.names_sample : Disk.sample.names [[0x6b]] = [] := by decide

/-- There is nothing at any place in it. -/
theorem Disk.get?_sample (name : Name) : Disk.sample.get? (name :: [[0x6b]]) = none :=
  Disk.not_mem_names_iff.1 (by rw [names_sample]; exact List.not_mem_nil)

/-- No account has a keyfile in it. -/
theorem Directory.keyfiles_sample (address : Address) :
    Directory.keyfiles Disk.sample [[0x6b]] address = [] := by
  rw [Directory.keyfiles, Disk.names_sample]
  rfl

/-- Its path leaves room for the names of keyfiles. -/
theorem Directory.hasRoom_sample : Directory.sample.HasRoom :=
  ⟨entryName .zero, .zero, Keyfile.addressIn?_entryName _, by rfl⟩

/-- So the path of each keyfile is followed. -/
theorem Directory.checkPath_sample (address : Address) :
    Disk.checkPath (Directory.sample.path.joinName (entryName address)) = .ok () :=
  hasRoom_sample.checkPath (by decide) (Keyfile.addressIn?_entryName address)

end Keyring
