import Keyring.Address.Map
import Keyring.Proofs.Keyfile.Codec
import Keyring.Proofs.Keystore.Operations

/-!
# A ledger of the kept accounts

A ledger tells for each account with which key pair it was kept and what its password is. A directory
agrees with a ledger (`Agrees`) if its keyfiles are those of the ledger's accounts, one for each under its
own name, sealed with the account's password. Creating, importing, deleting and setting a new password
keep a directory in agreement with the ledger that follows them, and each of them fails only where it
leaves everything as it was.
-/

namespace Keyring

open Keyfile (addressIn? entryName)

/-- Ascending lists of the same addresses are equal. -/
theorem Address.eq_of_ascending {addresses others : List Address}
    (h : addresses.Pairwise fun a b => before a b = true)
    (hothers : others.Pairwise fun a b => before a b = true)
    (hmem : ∀ a, a ∈ addresses ↔ a ∈ others) : addresses = others := by
  have hnodup {l : List Address} (hl : l.Pairwise fun a b => before a b = true) : l.Nodup :=
    hl.imp fun hab => ne_of_before hab
  have hperm := (List.perm_ext_iff_of_nodup (hnodup h) (hnodup hothers)).2 hmem
  refine List.Perm.eq_of_pairwise (fun a b _ _ hab hba => ?_) h hothers hperm
  exact absurd rfl (ne_of_before (before_trans hab hba))

/-- Ascending addresses that are among others are these with some left out. -/
theorem Address.sublist_of_ascending {addresses others : List Address}
    (h : addresses.Pairwise fun a b => before a b = true)
    (hothers : others.Pairwise fun a b => before a b = true) (hsub : addresses ⊆ others) :
    addresses.Sublist others := by
  have hmem (a : Address) : a ∈ others.filter (· ∈ addresses) ↔ a ∈ addresses := by
    rw [List.mem_filter, decide_eq_true_eq]
    exact and_iff_right_of_imp (hsub ·)
  rw [← eq_of_ascending (hothers.filter _) h hmem]
  exact List.filter_sublist

/-- What is known of a kept account. -/
structure Holding where
  /-- The key pair that the account was kept with. -/
  key : KeyPair
  /-- The password that was set last. -/
  password : String
  /-- Every new password was given together with the one before it. -/
  faithful : Bool

/-- The kept accounts. -/
abbrev Ledger := AddressMap Holding

namespace Ledger

/-- Keeps a key pair for an account under a password. -/
def keep (ledger : Ledger) (address : Address) (key : KeyPair) (password : String) : Ledger :=
  ledger.insert address ⟨key, password, true⟩

/-- Sets a new password that is given together with another one. -/
def setPassword (ledger : Ledger) (address : Address) (password newPassword : String) : Ledger :=
  match ledger.get? address with
  | none => ledger
  | some holding =>
    ledger.insert address
      ⟨holding.key, newPassword, holding.faithful && decide (password = holding.password)⟩

end Ledger

/-- The keyfiles of the directory at a place are those of the ledger's accounts. -/
structure Agrees (directory : Directory) (iterations : UInt32) (place : Place) (ledger : Ledger)
    (disk : Disk) : Prop where
  leads : disk.LeadsTo directory.path place
  /-- An entry that counts as a keyfile is one of the ledger, under its own name. -/
  listed : ∀ {name address}, addressIn? name = some address →
    (disk.get? (name :: place)).isSome = true → name = entryName address ∧ ledger.get? address ≠ none
  /-- An account of the ledger has a keyfile that is sealed with its password. -/
  sealed : ∀ {address holding}, ledger.get? address = some holding →
    ∃ key fresh mode, disk.get? (entryName address :: place) =
        some (.file mode (Keyfile.encode key holding.password iterations fresh)) ∧
      key.address = address ∧ (holding.faithful = true → key = holding.key)
  /-- Paths of keyfiles are short enough as soon as there is one. -/
  room : ∀ {address holding}, ledger.get? address = some holding → directory.HasRoom

namespace Agrees

variable {directory : Directory} {iterations : UInt32} {place : Place} {ledger : Ledger}
  {disk : Disk} {address : Address} {holding : Holding}

/-! ## What is found -/

/-- An account outside the ledger has no keyfile. -/
theorem keyfiles_eq_nil (h : Agrees directory iterations place ledger disk)
    (hnone : ledger.get? address = none) : Directory.keyfiles disk place address = [] := by
  rw [List.eq_nil_iff_forall_not_mem]
  intro name hname
  obtain ⟨hsome, htells⟩ := Directory.mem_keyfiles_iff.1 hname
  exact (h.listed htells hsome).2 hnone

/-- An account of the ledger has one keyfile, under its own name. -/
theorem keyfiles_eq_singleton (h : Agrees directory iterations place ledger disk)
    (hsome : ledger.get? address = some holding) :
    Directory.keyfiles disk place address = [entryName address] := by
  have hmem : entryName address ∈ Directory.keyfiles disk place address := by
    obtain ⟨key, fresh, mode, hfile, -⟩ := h.sealed hsome
    exact Directory.mem_keyfiles_iff.2 ⟨by rw [hfile]; rfl, Keyfile.addressIn?_entryName address⟩
  have hall : ∀ name ∈ Directory.keyfiles disk place address, name = entryName address := by
    intro name hname
    obtain ⟨hthere, htells⟩ := Directory.mem_keyfiles_iff.1 hname
    exact (h.listed htells hthere).1
  have hnodup := Directory.nodup_keyfiles disk place address
  cases hnames : Directory.keyfiles disk place address with
  | nil => rw [hnames] at hmem; cases hmem
  | cons name names =>
    rw [hnames] at hall hnodup
    rw [hall name List.mem_cons_self]
    cases names with
    | nil => rfl
    | cons other names =>
      have heq : name = other := by
        rw [hall name List.mem_cons_self, hall other (List.mem_cons_of_mem _ List.mem_cons_self)]
      rw [heq] at hnodup
      exact absurd List.mem_cons_self (List.nodup_cons.1 hnodup).1

/-- The path of an account's keyfile is followed. -/
theorem checkPath (h : Agrees directory iterations place ledger disk)
    (hsome : ledger.get? address = some holding) :
    Disk.checkPath (directory.path.joinName (entryName address)) = .ok () := by
  obtain ⟨m, hlocate⟩ := h.leads
  exact (h.room hsome).checkPath (Disk.locate_ok hlocate).2.1 (Keyfile.addressIn?_entryName address)

/-- The keyfile of an account is opened as the bytes that were written. -/
theorem opened_eq (h : Agrees directory iterations place ledger disk)
    (hsome : ledger.get? address = some holding) :
    ∃ key fresh, key.address = address ∧ (holding.faithful = true → key = holding.key) ∧
      ∀ password, directory.opened disk (entryName address) password =
        (Keyfile.decode (Keyfile.encode key holding.password iterations fresh) password).mapError
          .invalidCredentials := by
  obtain ⟨key, fresh, mode, hfile, haddress, hkey⟩ := h.sealed hsome
  refine ⟨key, fresh, haddress, hkey, fun password => ?_⟩
  exact Directory.opened_eq h.leads (Keyfile.addressIn?_entryName address) (h.checkPath hsome) hfile
    password

/-- Loading an account outside the ledger finds nothing. -/
theorem loaded_none (h : Agrees directory iterations place ledger disk)
    (hnone : ledger.get? address = none) (password : String) :
    directory.loaded disk place address password = .ok none := by
  rw [Directory.loaded, h.keyfiles_eq_nil hnone]

/-- Loading an account of the ledger opens what was written for it. -/
theorem loaded_some (h : Agrees directory iterations place ledger disk)
    (hsome : ledger.get? address = some holding) :
    ∃ key fresh, key.address = address ∧ (holding.faithful = true → key = holding.key) ∧
      ∀ password, directory.loaded disk place address password =
        ((Keyfile.decode (Keyfile.encode key holding.password iterations fresh) password).mapError
          .invalidCredentials).map some := by
  obtain ⟨key, fresh, haddress, hkey, hopened⟩ := h.opened_eq hsome
  refine ⟨key, fresh, haddress, hkey, fun password => ?_⟩
  rw [Directory.loaded, h.keyfiles_eq_singleton hsome]
  simp only [hopened]

/-- The accounts of the ledger are those that are listed. -/
theorem listed_eq (h : Agrees directory iterations place ledger disk) :
    Address.ascending ((disk.names place).filterMap addressIn?) = ledger.addresses := by
  have hmem : ∀ a, a ∈ Address.ascending ((disk.names place).filterMap addressIn?) ↔
      a ∈ ledger.addresses := by
    intro a
    rw [Address.mem_ascending, List.mem_filterMap, AddressMap.mem_addresses_iff]
    constructor
    · rintro ⟨name, hname, htells⟩
      exact Option.ne_none_iff_exists'.1 (h.listed htells (Disk.mem_names_iff.1 hname)).2
    · rintro ⟨holding, hholding⟩
      obtain ⟨key, fresh, mode, hfile, -⟩ := h.sealed hholding
      exact ⟨entryName a, Disk.mem_names_iff.2 (by rw [hfile]; rfl), Keyfile.addressIn?_entryName a⟩
  have hascending := Address.pairwise_ascending ((disk.names place).filterMap addressIn?)
  have haddresses : ledger.addresses.Pairwise fun a b => Address.before a b = true :=
    List.pairwise_map.2 ledger.ascending
  exact Address.eq_of_ascending hascending haddresses hmem

/-! ## What is changed -/

/-- A keyfile that is made where there was none is one more account of the ledger. -/
theorem put (h : Agrees directory iterations place ledger disk) {key : KeyPair} {fresh : Seal}
    (holding : Holding) (hkey : holding.faithful = true → key = holding.key)
    (hnone : disk.get? (entryName key.address :: place) = none) (hroom : directory.HasRoom) :
    Agrees directory iterations place (ledger.insert key.address holding)
      (disk.put (entryName key.address :: place)
        (.file Directory.keyfileMode (Keyfile.encode key holding.password iterations fresh))) where
  leads := h.leads.put (List.cons_ne_nil _ _) hnone _
  listed := by
    intro name address htells hthere
    rw [Disk.get?_put _ _ _ _ (List.cons_ne_nil _ _)] at hthere
    rw [AddressMap.get?_insert]
    split at hthere
    · next heq =>
      injection heq with heq
      rw [heq, Keyfile.addressIn?_entryName] at htells
      cases htells
      exact ⟨heq, by simp⟩
    · obtain ⟨hname, hledger⟩ := h.listed htells hthere
      refine ⟨hname, ?_⟩
      split
      · exact nofun
      · exact hledger
  sealed := by
    intro address other hother
    rw [AddressMap.get?_insert] at hother
    rw [Disk.get?_put _ _ _ _ (List.cons_ne_nil _ _)]
    split at hother
    · next heq =>
      cases hother
      subst heq
      exact ⟨key, fresh, _, if_pos rfl, rfl, hkey⟩
    · next hne =>
      rw [if_neg (Keyfile.entryName_cons_ne hne place)]
      exact h.sealed hother
  room := fun _ => hroom

/-- A keyfile that is removed is no account of the ledger any more. -/
theorem erase (h : Agrees directory iterations place ledger disk)
    (hsome : ledger.get? address = some holding) :
    Agrees directory iterations place (ledger.erase address)
      (disk.erase (entryName address :: place)) where
  leads := by
    obtain ⟨key, fresh, mode, hfile, -⟩ := h.sealed hsome
    exact h.leads.erase (List.cons_ne_nil _ _) hfile
  listed := by
    intro name other htells hthere
    rw [Disk.get?_erase _ _ _ (List.cons_ne_nil _ _)] at hthere
    rw [AddressMap.get?_erase]
    split at hthere
    · cases hthere
    · next hne =>
      obtain ⟨hname, hledger⟩ := h.listed htells hthere
      refine ⟨hname, ?_⟩
      have hother : ¬ other = address := fun heq => hne (by rw [hname, heq])
      rw [if_neg hother]
      exact hledger
  sealed := by
    intro other holding' hother
    rw [AddressMap.get?_erase] at hother
    rw [Disk.get?_erase _ _ _ (List.cons_ne_nil _ _)]
    split at hother
    · cases hother
    · next hne =>
      rw [if_neg (Keyfile.entryName_cons_ne hne place)]
      exact h.sealed hother
  room := fun _ => h.room hsome

/-! ## What operations do -/

/-- A keyfile is written, or nothing changes. -/
theorem persisted (h : Agrees directory iterations place ledger disk) (key : KeyPair)
    (password : String) (fresh : Seal) :
    (∃ disk', directory.persisted iterations disk key password fresh = (.ok key.address, disk') ∧
      Agrees directory iterations place (ledger.keep key.address key password) disk') ∨
    ∃ e, directory.persisted iterations disk key password fresh = (.error e, disk) := by
  rcases directory.persisted_cases iterations disk key password fresh with ⟨disk', hresult⟩ | hfails
  · obtain ⟨-, hcheck, hnone, rfl⟩ := Directory.of_persisted_ok h.leads hresult
    have hroom : directory.HasRoom :=
      ⟨entryName key.address, key.address, Keyfile.addressIn?_entryName _, hcheck⟩
    exact .inl ⟨_, hresult, h.put ⟨key, password, true⟩ (fun _ => rfl) hnone hroom⟩
  · exact .inr hfails

/-- An import keeps the key pair, or nothing changes. -/
theorem imported (h : Agrees directory iterations place ledger disk) (key : KeyPair)
    (password : String) (fresh : Seal) :
    (∃ disk', directory.imported iterations disk place key password fresh =
        (.ok (some key.address), disk') ∧
      Agrees directory iterations place (ledger.keep key.address key password) disk') ∨
    directory.imported iterations disk place key password fresh = (.ok none, disk) ∨
    ∃ e, directory.imported iterations disk place key password fresh = (.error e, disk) := by
  unfold Directory.imported Directory.persistedNew
  split
  · rcases h.persisted key password fresh with ⟨disk', hresult, hagrees⟩ | ⟨e, hresult⟩
    · rw [hresult]
      exact .inl ⟨disk', rfl, hagrees⟩
    · rw [hresult]
      cases e with
      | io path source =>
        obtain ⟨kind, text⟩ := source
        cases kind with
        | alreadyExists => exact .inr (.inl rfl)
        | notFound | other => exact .inr (.inr ⟨_, rfl⟩)
      | _ => exact .inr (.inr ⟨_, rfl⟩)
  · exact .inr (.inl rfl)

/-- The one keyfile of an account is removed. -/
theorem removed_eq (h : Agrees directory iterations place ledger disk)
    (hsome : ledger.get? address = some holding) :
    directory.removed [entryName address] disk =
      (.ok (), disk.erase (entryName address :: place)) := by
  obtain ⟨key, fresh, mode, hfile, -⟩ := h.sealed hsome
  have hremove := Disk.remove_eq h.leads (Keyfile.plain_entryName address) (h.checkPath hsome)
  rw [hfile] at hremove
  rw [Directory.removed, hremove]
  rfl

/-- Deleting tells whether the account is in the ledger, and takes it out. -/
theorem deleted (h : Agrees directory iterations place ledger disk) (address : Address) :
    (ledger.get? address = none ∧ Directory.deleted directory disk place address = (.ok false, disk)) ∨
    ∃ disk', Directory.deleted directory disk place address = (.ok true, disk') ∧
      Agrees directory iterations place (ledger.erase address) disk' := by
  unfold Directory.deleted
  cases hholding : ledger.get? address with
  | none =>
    rw [h.keyfiles_eq_nil hholding]
    exact .inl ⟨rfl, rfl⟩
  | some holding =>
    rw [h.keyfiles_eq_singleton hholding]
    simp only [h.removed_eq hholding]
    exact .inr ⟨_, rfl, h.erase hholding⟩

/-- A new password is set for an account of the ledger, or nothing changes. The keyfile is removed before
the new one is made; that succeeds, because the place is the one that the old keyfile had. -/
theorem updated (h : Agrees directory iterations place ledger disk) (address : Address)
    (password newPassword : String) (fresh : Seal) :
    (∃ disk', directory.updated iterations disk place address password newPassword fresh =
        (.ok true, disk') ∧
      Agrees directory iterations place (ledger.setPassword address password newPassword) disk') ∨
    directory.updated iterations disk place address password newPassword fresh = (.ok false, disk) ∨
    ∃ e, directory.updated iterations disk place address password newPassword fresh =
      (.error e, disk) := by
  unfold Directory.updated
  cases hholding : ledger.get? address with
  | none =>
    rw [h.keyfiles_eq_nil hholding]
    exact .inr (.inl rfl)
  | some holding =>
    rw [h.keyfiles_eq_singleton hholding]
    obtain ⟨key, sealing, haddress, hkey, hopened⟩ := h.opened_eq hholding
    simp only [hopened]
    cases hdecode : Keyfile.decode (Keyfile.encode key holding.password iterations sealing) password with
    | error cause => exact .inr (.inr ⟨_, rfl⟩)
    | ok found =>
      obtain ⟨hfound, -⟩ := Keyfile.of_decode_encode hdecode
      rw [haddress] at hfound
      subst hfound
      have hagrees := h.erase hholding
      have hfree : (disk.erase (entryName found.address :: place)).get?
          (entryName found.address :: place) = none := by
        rw [Disk.get?_erase_self]
      have hpersisted := Directory.persisted_eq iterations hagrees.leads found newPassword fresh
        (h.checkPath hholding) hfree
      have hroom := h.room hholding
      simp only [mapError_ok, h.removed_eq hholding, hpersisted]
      refine .inl ⟨_, rfl, ?_⟩
      have hledger : ledger.setPassword found.address password newPassword =
          (ledger.erase found.address).insert found.address
            ⟨holding.key, newPassword, holding.faithful && decide (password = holding.password)⟩ := by
        rw [Ledger.setPassword, hholding]
        refine AddressMap.ext_get? fun a => ?_
        simp only [AddressMap.get?_insert, AddressMap.get?_erase]
        split <;> rfl
      rw [hledger]
      refine hagrees.put ⟨holding.key, newPassword, _⟩ (fun hfaithful => ?_) hfree hroom
      rw [Bool.and_eq_true, decide_eq_true_eq] at hfaithful
      obtain ⟨hbefore, rfl⟩ := hfaithful
      have hopens := Keyfile.opens_of_decode_encode hdecode
      rw [Keyfile.decode_encode key holding.password sealing hopens] at hdecode
      cases hdecode
      exact hkey hbefore

end Agrees

end Keyring
