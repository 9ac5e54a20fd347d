import Keyring.Proofs.Keystore.Ledger

/-!
# Whose key a keyfile holds

An account's keyfile is found by its name alone, and the key pair that it opens to is held against the
address that its content records, if any, but not against the name. So whether a key pair has the address
that it was asked for is up to the content (`Directory.Faithful`): loading gives the key pairs of what is in
the first keyfile (`loads_iff`), and a new password writes that key pair under its own name
(`get?_updated`).
-/

namespace Keyring

open Keyring.Action (Yields)
open Keyfile (addressIn? entryName)

namespace Directory

section
variable (directory : Directory) (disk : Disk) (address : Address)

/-- The keyfile that is found for an account has the content. -/
def Holds (content : Bytes) : Prop :=
  ∃ place name others, disk.LeadsTo directory.path place ∧
    keyfiles disk place address = name :: others ∧
    disk.read (directory.path.joinName name) = .ok content

/-- The keyfile that is found for an account opens only to key pairs of this account. -/
def Faithful : Prop :=
  ∀ content, directory.Holds disk address content →
    ∀ password key, Keyfile.decode content password = .ok key → key.address = address

end

variable {directory : Directory} {iterations : UInt32} {disk : Disk} {place : Place}
  {address : Address}

/-- The bytes that are loaded for an account are those of the keyfile that is listed first. -/
theorem holds_iff (h : disk.LeadsTo directory.path place) {content : Bytes} :
    directory.Holds disk address content ↔
      ∃ name others, keyfiles disk place address = name :: others ∧
        disk.read (directory.path.joinName name) = .ok content := by
  constructor
  · rintro ⟨place', name, others, hleads, hnames, hread⟩
    cases h.unique hleads
    exact ⟨name, others, hnames, hread⟩
  · rintro ⟨name, others, hnames, hread⟩
    exact ⟨place, name, others, h, hnames, hread⟩

/-- One content is found. -/
theorem Holds.unique {content other : Bytes} (h : directory.Holds disk address content)
    (hother : directory.Holds disk address other) : content = other := by
  obtain ⟨place, name, others, hleads, hnames, hread⟩ := h
  obtain ⟨name', others', hnames', hread'⟩ := (holds_iff hleads).1 hother
  rw [hnames] at hnames'
  cases hnames'
  rw [hread] at hread'
  cases hread'
  rfl

/-- A directory whose keyfiles can be read has room for all of them. -/
theorem checkPath_of_read (h : disk.LeadsTo directory.path place) {first : Name} {content : Bytes}
    (hfirst : first ∈ keyfiles disk place address)
    (hread : disk.read (directory.path.joinName first) = .ok content) {name : Name} {other : Address}
    (hname : addressIn? name = some other) :
    Disk.checkPath (directory.path.joinName name) = .ok () := by
  obtain ⟨m, hlocate⟩ := h
  obtain ⟨-, hp, -⟩ := Disk.locate_ok hlocate
  obtain ⟨-, htells⟩ := mem_keyfiles_iff.1 hfirst
  have hroom : directory.HasRoom := by
    refine ⟨first, address, htells, ?_⟩
    cases hcheck : Disk.checkPath (directory.path.joinName first) with
    | ok => rfl
    | error e =>
      rw [Disk.read, Disk.locate_refused hcheck] at hread
      cases hread
  exact hroom.checkPath hp hname

/-- A keyfile that can be read is a file of that content. -/
theorem get?_of_read (h : disk.LeadsTo directory.path place) {name : Name}
    (hname : name ∈ keyfiles disk place address) {content : Bytes}
    (hread : disk.read (directory.path.joinName name) = .ok content) :
    ∃ mode, disk.get? (name :: place) = some (.file mode content) := by
  obtain ⟨-, htells⟩ := mem_keyfiles_iff.1 hname
  have hnode := Disk.read_eq h (Keyfile.plain_of_addressIn? htells)
    (checkPath_of_read h hname hread htells)
  rw [hread] at hnode
  split at hnode
  · next mode found hfile =>
    cases hnode
    exact ⟨mode, hfile⟩
  · cases hnode
  · cases hnode

/-- The content that is found for an account is that of a file whose name tells the account. -/
theorem Holds.exists_file {content : Bytes} (h : directory.Holds disk address content) :
    ∃ place name mode, disk.LeadsTo directory.path place ∧ addressIn? name = some address ∧
      disk.get? (name :: place) = some (.file mode content) := by
  obtain ⟨place, name, others, hleads, hnames, hread⟩ := h
  have hmem : name ∈ keyfiles disk place address := hnames ▸ List.mem_cons_self
  obtain ⟨mode, hfile⟩ := get?_of_read hleads hmem hread
  exact ⟨place, name, mode, hleads, (mem_keyfiles_iff.1 hmem).2, hfile⟩

/-! ## Loading -/

/-- A keyfile opens to what its content does. -/
theorem opened_eq_ok_iff {name : Name} {password : String} {key : KeyPair} :
    directory.opened disk name password = .ok key ↔
      ∃ content, disk.read (directory.path.joinName name) = .ok content ∧
        Keyfile.decode content password = .ok key := by
  unfold opened
  cases hread : disk.read (directory.path.joinName name) with
  | error e => exact ⟨nofun, nofun⟩
  | ok content =>
    simp only [mapError_eq_ok_iff, Except.ok.injEq, exists_eq_left']

/-- A directory whose first keyfile for an account is opened has room for all of them. -/
theorem checkPath_of_opened (h : disk.LeadsTo directory.path place) {first : Name} {others : List Name}
    (hnames : keyfiles disk place address = first :: others) {password : String} {key : KeyPair}
    (hopened : directory.opened disk first password = .ok key) {name : Name} {other : Address}
    (hname : addressIn? name = some other) :
    Disk.checkPath (directory.path.joinName name) = .ok () := by
  obtain ⟨content, hread, -⟩ := opened_eq_ok_iff.1 hopened
  exact checkPath_of_read h (hnames ▸ List.mem_cons_self) hread hname

/-- A key pair is loaded exactly if those bytes open to it. -/
theorem loaded_eq_ok_iff (h : disk.LeadsTo directory.path place) {password : String} {key : KeyPair} :
    directory.loaded disk place address password = .ok (some key) ↔
      ∃ content, directory.Holds disk address content ∧ Keyfile.decode content password = .ok key := by
  unfold loaded
  cases hnames : keyfiles disk place address with
  | nil =>
    constructor
    · exact nofun
    · rintro ⟨content, hholds, -⟩
      obtain ⟨name, others, hcons, -⟩ := (holds_iff h).1 hholds
      rw [hnames] at hcons
      cases hcons
  | cons name others =>
    simp only [map_eq_ok_iff, Option.some.injEq, exists_eq_right, opened_eq_ok_iff]
    constructor
    · rintro ⟨content, hread, hdecode⟩
      exact ⟨content, (holds_iff h).2 ⟨name, others, hnames, hread⟩, hdecode⟩
    · rintro ⟨content, hholds, hdecode⟩
      obtain ⟨first, rest, hcons, hread⟩ := (holds_iff h).1 hholds
      rw [hnames] at hcons
      cases hcons
      exact ⟨content, hread, hdecode⟩

/-- A key pair is loaded exactly if the content of the keyfile that is found opens to it; which address it
has makes no difference. -/
theorem loads_iff {traced : Traced Disk} {password : String} {key : KeyPair} :
    answer ((directory.keystore iterations).load address password) traced = .ok (some key) ↔
      ∃ content, directory.Holds traced.files address content ∧
        Keyfile.decode content password = .ok key := by
  obtain ⟨disk, events⟩ := traced
  by_cases h : ∃ place, disk.LeadsTo directory.path place
  · obtain ⟨place, h⟩ := h
    rw [(yields_load h address password events).1]
    exact loaded_eq_ok_iff h
  · have hnot : ¬ answer ((directory.keystore iterations).load address password) ⟨disk, events⟩ =
        .ok (some key) := by
      intro hok
      rw [(yields_load_fetched directory iterations disk address password events).1, fetched] at hok
      rcases found_nowhere (fun place hleads => h ⟨place, hleads⟩) address with hfound | ⟨e, hfound⟩
      · rw [hfound] at hok
        cases hok
      · rw [hfound] at hok
        cases hok
    refine ⟨fun hok => absurd hok hnot, ?_⟩
    rintro ⟨content, ⟨place, name, others, hleads, -⟩, -⟩
    exact absurd ⟨place, hleads⟩ h

/-! ## Setting a new password -/

/-- A new password that is set is set for the key pair that was found: the account's keyfiles are gone, and
the key pair has a new one under the name of its own address. -/
theorem of_updated_ok (h : disk.LeadsTo directory.path place) {password newPassword : String}
    {fresh : Seal} {disk' : Disk}
    (hupdated : directory.updated iterations disk place address password newPassword fresh =
      (.ok true, disk')) :
    ∃ content key, directory.Holds disk address content ∧ Keyfile.decode content password = .ok key ∧
      Disk.checkPath (directory.path.joinName (entryName key.address)) = .ok () ∧
      (without place (keyfiles disk place address) disk).LeadsTo directory.path place ∧
      (without place (keyfiles disk place address) disk).get? (entryName key.address :: place) = none ∧
      disk' = (without place (keyfiles disk place address) disk).put (entryName key.address :: place)
        (.file keyfileMode (Keyfile.encode key newPassword iterations fresh)) := by
  have hplain : ∀ name ∈ keyfiles disk place address, Path.Plain name := fun _ => plain_of_mem_keyfiles
  have hnodup := nodup_keyfiles disk place address
  unfold updated at hupdated
  cases hnames : keyfiles disk place address with
  | nil => rw [hnames] at hupdated; cases hupdated
  | cons name others =>
    rw [hnames] at hupdated hplain hnodup
    simp only at hupdated
    cases hopened : directory.opened disk name password with
    | error e => rw [hopened] at hupdated; cases hupdated
    | ok key =>
      rw [hopened] at hupdated
      simp only at hupdated
      obtain ⟨content, hread, hdecode⟩ := opened_eq_ok_iff.1 hopened
      have hremoved := removed_ok h hplain hnodup
      generalize directory.removed (name :: others) disk = result at hupdated hremoved
      obtain ⟨result, left⟩ := result
      cases result with
      | error e => cases hupdated
      | ok =>
        obtain ⟨rfl, -, hleads⟩ := hremoved rfl
        rcases directory.persisted_cases iterations (without place (name :: others) disk) key newPassword
          fresh with ⟨disk'', hpersisted⟩ | ⟨e, hpersisted⟩
        · simp only [hpersisted] at hupdated
          cases hupdated
          obtain ⟨-, hcheck, hnone, hput⟩ := of_persisted_ok hleads hpersisted
          exact ⟨content, key, (holds_iff h).2 ⟨name, others, hnames, hread⟩, hdecode, hcheck, hleads,
            hnone, hput⟩
        · simp only [hpersisted] at hupdated
          cases hupdated

/-- Setting a new password, whether it fails or not, changes keyfiles of the account, and the one of the
key pair that was found for it. -/
theorem get?_updated (h : disk.LeadsTo directory.path place) {password newPassword : String}
    {fresh : Seal} {other : Place}
    (hchanged : (directory.updated iterations disk place address password newPassword fresh).2.get? other ≠
      disk.get? other) :
    ∃ name, other = name :: place ∧
      (addressIn? name = some address ∨
        ∃ content key, directory.Holds disk address content ∧
          Keyfile.decode content password = .ok key ∧ name = entryName key.address) := by
  have htells : ∀ name ∈ keyfiles disk place address, addressIn? name = some address :=
    fun name hname => (mem_keyfiles_iff.1 hname).2
  have hplain : ∀ name ∈ keyfiles disk place address, Path.Plain name := fun _ => plain_of_mem_keyfiles
  obtain ⟨hleads, hkeeps⟩ := get?_removed h hplain
  unfold updated at hchanged
  cases hnames : keyfiles disk place address with
  | nil => rw [hnames] at hchanged; exact absurd rfl hchanged
  | cons name others =>
    rw [hnames] at hchanged hkeeps hleads htells
    simp only at hchanged
    cases hopened : directory.opened disk name password with
    | error e => rw [hopened] at hchanged; exact absurd rfl hchanged
    | ok key =>
      rw [hopened] at hchanged
      simp only at hchanged
      obtain ⟨content, hread, hdecode⟩ := opened_eq_ok_iff.1 hopened
      have hholds : directory.Holds disk address content :=
        (holds_iff h).2 ⟨name, others, hnames, hread⟩
      -- What is removed are keyfiles of the account.
      have hown (hremoved : (directory.removed (name :: others) disk).2.get? other ≠
          disk.get? other) : ∃ name, other = name :: place ∧ addressIn? name = some address := by
        by_cases hplace : ∃ removed ∈ name :: others, other = removed :: place
        · obtain ⟨removed, hmem, rfl⟩ := hplace
          exact ⟨removed, rfl, htells removed hmem⟩
        · exact absurd (hkeeps other fun removed hmem heq => hplace ⟨removed, hmem, heq⟩) hremoved
      generalize directory.removed (name :: others) disk = result at hchanged hown hleads
      obtain ⟨result, left⟩ := result
      cases result with
      | error e =>
        obtain ⟨removed, hplace, haddress⟩ := hown hchanged
        exact ⟨removed, hplace, .inl haddress⟩
      | ok =>
        rcases directory.persisted_cases iterations left key newPassword fresh with
          ⟨disk', hpersisted⟩ | ⟨e, hpersisted⟩
        · obtain ⟨-, -, -, rfl⟩ := of_persisted_ok hleads hpersisted
          simp only [hpersisted] at hchanged
          rw [Disk.get?_put _ _ _ _ (List.cons_ne_nil _ _)] at hchanged
          split at hchanged
          · next hplace => exact ⟨_, hplace, .inr ⟨content, key, hholds, hdecode, rfl⟩⟩
          · obtain ⟨removed, hplace, haddress⟩ := hown hchanged
            exact ⟨removed, hplace, .inl haddress⟩
        · simp only [hpersisted] at hchanged
          obtain ⟨removed, hplace, haddress⟩ := hown hchanged
          exact ⟨removed, hplace, .inl haddress⟩

/-- Where the path leads to no directory no new password is set, and nothing is changed. -/
theorem yields_update_nowhere (iterations : UInt32) (h : ∀ place, ¬ disk.LeadsTo directory.path place)
    (address : Address) (password newPassword : String) (fresh : Seal) :
    ∃ result, result ≠ .ok true ∧
      Yields ((directory.keystore iterations).update address password newPassword fresh) disk result disk := by
  have hfind := yields_find_found directory disk address
  rcases found_nowhere h address with hfound | ⟨e, hfound⟩
  · rw [hfound] at hfind
    exact ⟨.ok false, by simp, hfind.bind (Action.yields_pure _ _)⟩
  · rw [hfound] at hfind
    exact ⟨.error e, by simp, hfind.bind_error⟩

/-! ## When a keyfile is the account's -/

/-- A keyfile that records the account's address is the account's. -/
theorem Faithful.of_records
    (h : ∀ content, directory.Holds disk address content →
      Keyfile.Records content address.toBytes) : directory.Faithful disk address := by
  intro content hholds password key hdecode
  exact Address.ext ((h content hholds).eq hdecode)

/-- A keyfile that records another address is not the account's as soon as some password opens it. -/
theorem not_faithful_of_records {content recorded : Bytes} {password : String} {key : KeyPair}
    (hholds : directory.Holds disk address content) (h : Keyfile.Records content recorded)
    (hne : recorded ≠ address.toBytes) (hdecode : Keyfile.decode content password = .ok key) :
    ¬ directory.Faithful disk address := by
  intro hfaithful
  have hkey := hfaithful content hholds password key hdecode
  rw [← hkey, h.eq hdecode] at hne
  exact hne rfl

/-- The keyfile that is found is another account's only if some password opens it to a key pair of that
account. -/
theorem exists_of_not_faithful (h : ¬ directory.Faithful disk address) :
    ∃ content password key, directory.Holds disk address content ∧
      Keyfile.decode content password = .ok key ∧ key.address ≠ address := by
  simp only [Faithful, Classical.not_forall] at h
  obtain ⟨content, hholds, password, key, hdecode, hne⟩ := h
  exact ⟨content, password, key, hholds, hdecode, hne⟩

/-- The keyfiles that the manager itself keeps are their accounts'. -/
theorem faithful_of_agrees {ledger : Ledger} (h : Agrees directory iterations place ledger disk)
    (address : Address) : directory.Faithful disk address := by
  intro content hholds password key hdecode
  obtain ⟨name, others, hnames, hread⟩ := (holds_iff h.leads).1 hholds
  cases hholding : ledger.get? address with
  | none =>
    rw [h.keyfiles_eq_nil hholding] at hnames
    cases hnames
  | some holding =>
    rw [h.keyfiles_eq_singleton hholding] at hnames
    cases hnames
    obtain ⟨written, fresh, haddress, -, hopened⟩ := h.opened_eq hholding
    have hkey := opened_eq_ok_iff.2 ⟨content, hread, hdecode⟩
    rw [hopened] at hkey
    cases hagain : Keyfile.decode (Keyfile.encode written holding.password iterations fresh) password with
    | error cause => rw [hagain] at hkey; cases hkey
    | ok found =>
      rw [hagain] at hkey
      cases hkey
      rw [← haddress]
      exact (Keyfile.of_decode_encode hagain).1

end Directory

end Keyring
