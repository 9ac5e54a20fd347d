import Mathlib.Data.List.Nodup
import Keyring.Proofs.Keystore.Duplicates

/-!
# What a directory lists

Accounts are told by the names in the directory alone. The storage answers one keyfile for each name that
tells an account, whatever else the directory holds (`Directory.forall₂_stored?`); looking up an account
picks those of them that are for it; and the accounts are the addresses that some name tells, each once and
in ascending order. So the three agree on every directory (`Keystore.listing_agrees`), and the accounts
depend neither on the order in which the directory tells its names nor on what stands under them.
-/

namespace Keyring

open Keyfile (addressIn? entryName)

namespace Path

/-- A path that two names are joined with tells them apart. -/
theorem joinName_injective {p : Path} (hp : p.bytes ≠ []) {name other : Name} (hname : Plain name)
    (hother : Plain other) (h : p.joinName name = p.joinName other) : name = other := by
  have hbytes : (p.joinName name).bytes = (p.joinName other).bytes := by rw [h]
  rw [bytes_joinName hp hname, bytes_joinName hp hother] at hbytes
  split at hbytes
  · exact List.append_cancel_left hbytes
  · exact (List.cons.inj (List.append_cancel_left hbytes)).2

end Path

namespace Directory

variable {directory : Directory} {names : List Name}

/-- The keyfile has the account and the path that a name in the directory tells. -/
def Tells (directory : Directory) (name : Name) (stored : StoredKeyfile) : Prop :=
  addressIn? name = some stored.address ∧ stored.path = directory.path.joinName name

/-- Each name that tells an account is one keyfile, and a name that tells none is passed over. -/
theorem forall₂_stored? (directory : Directory) (names : List Name) :
    List.Forall₂ directory.Tells (names.filter fun name => (addressIn? name).isSome)
      (names.filterMap directory.stored?) := by
  induction names with
  | nil => exact .nil
  | cons name names ih =>
    rw [List.filterMap_cons, stored?_eq]
    cases hname : addressIn? name with
    | none =>
      rw [List.filter_cons_of_neg (by simp [hname])]
      exact ih
    | some address =>
      rw [List.filter_cons_of_pos (by simp [hname])]
      exact .cons ⟨hname, rfl⟩ ih

/-- The paths of the keyfiles are those of the names that tell accounts. -/
theorem map_path_eq {stored : List StoredKeyfile} (h : List.Forall₂ directory.Tells names stored) :
    stored.map (·.path) = names.map directory.path.joinName := by
  induction h with
  | nil => rfl
  | cons htells _ ih => rw [List.map_cons, List.map_cons, htells.2, ih]

/-- Different names are keyfiles at different paths. -/
theorem nodup_paths (hp : directory.path.bytes ≠ []) (hnames : names.Nodup)
    {stored : List StoredKeyfile}
    (h : List.Forall₂ directory.Tells (names.filter fun name => (addressIn? name).isSome) stored) :
    (stored.map (·.path)).Nodup := by
  have hplain {name : Name} (hname : name ∈ names.filter fun name => (addressIn? name).isSome) :
      Path.Plain name := by
    obtain ⟨address, haddress⟩ := Option.isSome_iff_exists.1 (List.mem_filter.1 hname).2
    exact Keyfile.plain_of_addressIn? haddress
  rw [map_path_eq h]
  refine List.Nodup.map_on (fun name hname other hother heq => ?_) (hnames.filter _)
  exact Path.joinName_injective hp (hplain hname) (hplain hother) heq

/-- An account has a keyfile exactly if some name tells it. -/
theorem isEmpty_keyfiles (disk : Disk) (place : Place) (address : Address) :
    (!(keyfiles disk place address).isEmpty) =
      decide (∃ name ∈ disk.names place, addressIn? name = some address) := by
  rw [Bool.eq_iff_iff, decide_eq_true_eq, Bool.not_eq_true', List.isEmpty_eq_false_iff_exists_mem]
  simp only [keyfiles, List.mem_filter, decide_eq_true_eq]

/-- The accounts are told by the names, in whatever order these come. -/
theorem mem_accounts {address : Address} :
    address ∈ Address.ascending (names.filterMap addressIn?) ↔
      ∃ name ∈ names, addressIn? name = some address := by
  rw [Address.mem_ascending, List.mem_filterMap]

/-- The accounts that are listed depend on which names there are only. -/
theorem accounts_congr {others : List Name} (h : ∀ name, name ∈ others ↔ name ∈ names) :
    Address.ascending (others.filterMap addressIn?) =
      Address.ascending (names.filterMap addressIn?) := by
  refine Address.eq_of_ascending (Address.pairwise_ascending _) (Address.pairwise_ascending _)
    fun address => ?_
  rw [mem_accounts, mem_accounts]
  simp only [h]

end Directory

open Directory in
/-- In every directory the storage answers one keyfile for each name that tells an account, with this account
and the path of the name. What is looked up for an account are those of them that are for it, and there is a
keyfile for it exactly if it is among the accounts. The accounts ascend strictly and are the addresses that
some name tells; every other disk whose directory has these names, in any order and for any entries, has the
same accounts. -/
theorem Keystore.listing_agrees (directory : Directory) (iterations : UInt32) {traced : Traced Disk}
    {place : Place} (h : traced.files.LeadsTo directory.path place) :
    let keystore := directory.keystore iterations
    let names := traced.files.names place
    ∃ stored accounts,
      answer keystore.storage.entries traced = .ok stored ∧
      answer keystore.list traced = .ok accounts ∧
      List.Forall₂ directory.Tells (names.filter fun name => (addressIn? name).isSome) stored ∧
      (stored.map (·.path)).Nodup ∧
      (∀ address, answer (keystore.storage.find address) traced =
        .ok (stored.filter fun entry => entry.address = address)) ∧
      (∀ address, answer (keystore.isManaged address) traced = .ok (decide (address ∈ accounts))) ∧
      (accounts.Pairwise fun a b => Address.before a b = true) ∧
      (∀ address, address ∈ accounts ↔ ∃ name ∈ names, addressIn? name = some address) ∧
      ∀ (other : Traced Disk) (elsewhere : Place), other.files.LeadsTo directory.path elsewhere →
        (∀ name, name ∈ other.files.names elsewhere ↔ name ∈ names) →
        answer keystore.list other = .ok accounts := by
  intro keystore names
  obtain ⟨disk, events⟩ := traced
  have hstored := forall₂_stored? directory names
  refine ⟨names.filterMap directory.stored?, Address.ascending (names.filterMap addressIn?),
    (yields_entries h events).1, (yields_list h events).1, hstored, ?_, fun address => ?_,
    fun address => ?_, Address.pairwise_ascending _, fun _ => mem_accounts, ?_⟩
  · obtain ⟨m, hlocate⟩ := h
    exact nodup_paths (Disk.locate_ok hlocate).2.1 (Disk.nodup_names disk place) hstored
  · rw [filter_filterMap_stored?]
    exact (yields_find h address events).1
  · rw [(yields_isManaged h address events).1, isEmpty_keyfiles]
    simp only [mem_accounts, names]
  · intro other elsewhere hother hsame
    obtain ⟨files, noted⟩ := other
    rw [(yields_list hother noted).1, accounts_congr hsame]

/-- Two spellings of one account are two keyfiles and one account. -/
theorem Keystore.listing_agrees_doubled :
    let keystore := Directory.sample.keystore 1
    ∃ stored accounts,
      answer keystore.storage.entries ⟨.doubled, []⟩ = .ok stored ∧
      answer keystore.list ⟨.doubled, []⟩ = .ok accounts ∧
      (stored.filter fun entry => entry.address = KeyPair.one.address).length = 2 ∧
      KeyPair.one.address ∈ accounts ∧ accounts.Nodup := by
  intro keystore
  obtain ⟨hleads, hnames, -⟩ := Disk.doubled_entries
  have htraced : (⟨.doubled, []⟩ : Traced Disk).files.LeadsTo Directory.sample.path [[0x6b]] := hleads
  obtain ⟨stored, accounts, hstored, hlist, -, -, hfind, hmanaged, hascending, -⟩ :=
    Keystore.listing_agrees Directory.sample 1 htraced
  refine ⟨stored, accounts, hstored, hlist, ?_, ?_, hascending.imp fun hab => Address.ne_of_before hab⟩
  · have hfound := (Directory.yields_find hleads KeyPair.one.address []).1
    rw [hnames] at hfound
    have hsame := (hfind KeyPair.one.address).symm.trans hfound
    rw [Except.ok.inj hsame]
    rfl
  · have hthere : answer (keystore.isManaged KeyPair.one.address) ⟨.doubled, []⟩ = _ :=
      (Directory.yields_isManaged hleads KeyPair.one.address []).1
    rw [hnames] at hthere
    have hsame := (hmanaged KeyPair.one.address).symm.trans hthere
    exact of_decide_eq_true (Except.ok.inj hsame)

end Keyring
