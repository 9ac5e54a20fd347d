import Keyring.Proofs.Keystore.Changes
import Keyring.Proofs.Keystore.Ledger

/-!
# One account's keyfile

Every operation of a keystore looks through the whole directory. Where the directory agrees with a ledger
(`Agrees`) all that it finds for an account is what is under the account's canonical name. So the operation
is told by a function from that entry to an answer and the entry that is left, and it leaves everything else
as it is (`Directory.Local`). Names and contents have to agree for this: a keyfile that held another
account's key would be written back under that account's name.
-/

namespace Keyring

open Keyfile (addressIn? entryName)

/-! ## What an entry comes to -/

/-- What loading an account answers that has this under its name. -/
def loadedFrom (keyfile : Option Node) (password : String) : Except AccountError (Option KeyPair) :=
  match keyfile with
  | some (.file _ content) => ((Keyfile.decode content password).mapError .invalidCredentials).map some
  | _ => .ok none

namespace Directory

variable (directory : Directory) (iterations : UInt32)

/-- Writing a keyfile where this is. -/
def persistedAt (key : KeyPair) (password : String) (fresh : Seal) (keyfile : Option Node) :
    Except AccountError Address × Option Node :=
  match Disk.checkPath (directory.keyfilePath key.address) with
  | .error e => (.error (.io (directory.keyfilePath key.address) e), keyfile)
  | .ok () =>
    match keyfile with
    | some _ => (.error (.io (directory.keyfilePath key.address) .entryExists), keyfile)
    | none =>
      (.ok key.address, some (.file keyfileMode (Keyfile.encode key password iterations fresh)))

/-- Importing a key pair for whose account there is this. -/
def importedAt (key : KeyPair) (password : String) (fresh : Seal) (keyfile : Option Node) :
    Except AccountError (Option Address) × Option Node :=
  match keyfile with
  | some _ => (.ok none, keyfile)
  | none =>
    (importedFrom (directory.persistedAt iterations key password fresh none).1,
      (directory.persistedAt iterations key password fresh none).2)

/-- Setting a new password for an account that has this. -/
def updatedAt (password newPassword : String) (fresh : Seal) (keyfile : Option Node) :
    Except AccountError Bool × Option Node :=
  match loadedFrom keyfile password with
  | .error e => (.error e, keyfile)
  | .ok none => (.ok false, keyfile)
  | .ok (some key) =>
    (.ok true, some (.file keyfileMode (Keyfile.encode key newPassword iterations fresh)))

/-- The effect answers and leaves under the account's name what is given, and all else is as before. -/
structure Local {α : Type} (place : Place) (address : Address) (disk : Disk) (effect : Effect α)
    (result : Except AccountError α × Option Node) : Prop where
  answer_eq : effect.1 = result.1
  left_eq : effect.2.get? (entryName address :: place) = result.2
  kept : ∀ other ≠ entryName address :: place, effect.2.get? other = disk.get? other

section
variable {directory iterations} {α : Type} {disk : Disk} {place : Place} {address : Address}

/-- What changes nothing is told by the entry that is there. -/
theorem Local.same {keyfile : Option Node} (h : disk.get? (entryName address :: place) = keyfile)
    (result : Except AccountError α) : Local place address disk (result, disk) (result, keyfile) :=
  ⟨rfl, h, fun _ _ => rfl⟩

/-- A keyfile is put where nothing else was changed. -/
theorem Local.put {left : Disk}
    (h : ∀ other ≠ entryName address :: place, left.get? other = disk.get? other) (node : Node)
    (result : Except AccountError α) :
    Local place address disk (result, left.put (entryName address :: place) node) (result, some node) := by
  refine ⟨rfl, ?_, fun other hother => ?_⟩
  · exact Disk.get?_put_self
  · rw [Disk.get?_put_of_ne hother, h other hother]

/-- Writing a keyfile does not depend on anything else, whatever is in the directory. -/
theorem local_persisted (iterations : UInt32) (h : disk.LeadsTo directory.path place) (key : KeyPair)
    (password : String) (fresh : Seal) :
    Local place key.address disk (directory.persisted iterations disk key password fresh)
      (directory.persistedAt iterations key password fresh
        (disk.get? (entryName key.address :: place))) := by
  have hpath : directory.keyfilePath key.address = directory.path.joinName (entryName key.address) := rfl
  unfold persisted persistedAt
  rw [hpath]
  generalize Keyfile.encode key password iterations fresh = content
  cases hcheck : Disk.checkPath (directory.path.joinName (entryName key.address)) with
  | error e =>
    have hcreate : disk.create (directory.path.joinName (entryName key.address)) keyfileMode content =
        .error e := by
      rw [Disk.create, Disk.make, Disk.locate_refused hcheck]
      rfl
    rw [hcreate]
    exact .same rfl _
  | ok =>
    rw [Disk.create_eq h (Keyfile.plain_entryName key.address) hcheck]
    cases hnode : disk.get? (entryName key.address :: place) with
    | some node => exact .same hnode _
    | none => exact .put (fun _ _ => rfl) _ _

end

end Directory

/-! ## What operations do -/

namespace Agrees

open Directory (Local)

variable {directory : Directory} {iterations : UInt32} {place : Place} {ledger : Ledger} {disk : Disk}

/-- For an account there is either nothing, or one keyfile under its name, with a key pair of its own. -/
theorem keyfile_cases (h : Agrees directory iterations place ledger disk) (address : Address) :
    (ledger.get? address = none ∧ disk.get? (entryName address :: place) = none) ∨
      ∃ holding key fresh mode, ledger.get? address = some holding ∧ key.address = address ∧
        disk.get? (entryName address :: place) =
          some (.file mode (Keyfile.encode key holding.password iterations fresh)) := by
  cases hholding : ledger.get? address with
  | none =>
    refine .inl ⟨rfl, ?_⟩
    cases hnode : disk.get? (entryName address :: place) with
    | none => rfl
    | some node =>
      have hlisted := h.listed (Keyfile.addressIn?_entryName address) (by rw [hnode]; rfl)
      exact absurd hholding hlisted.2
  | some holding =>
    obtain ⟨key, fresh, mode, hfile, haddress, -⟩ := h.sealed hholding
    exact .inr ⟨holding, key, fresh, mode, rfl, haddress, hfile⟩

/-- An account's keyfile is found by its canonical name. -/
theorem keyfiles_eq (h : Agrees directory iterations place ledger disk) (address : Address) :
    Directory.keyfiles disk place address =
      if (disk.get? (entryName address :: place)).isSome then [entryName address] else [] := by
  rcases h.keyfile_cases address with ⟨hnone, hfile⟩ | ⟨holding, key, fresh, mode, hsome, -, hfile⟩
  · rw [h.keyfiles_eq_nil hnone, hfile]
    rfl
  · rw [h.keyfiles_eq_singleton hsome, hfile]
    rfl

/-- An account is loaded from what is under its canonical name. -/
theorem loaded_eq (h : Agrees directory iterations place ledger disk) (address : Address)
    (password : String) :
    directory.loaded disk place address password =
      loadedFrom (disk.get? (entryName address :: place)) password := by
  rcases h.keyfile_cases address with ⟨hnone, hfile⟩ | ⟨holding, key, fresh, mode, hsome, -, hfile⟩
  · rw [h.loaded_none hnone, hfile]
    rfl
  · have hopened := Directory.opened_eq h.leads (Keyfile.addressIn?_entryName address) (h.checkPath hsome)
      hfile password
    rw [Directory.loaded, h.keyfiles_eq_singleton hsome, hfile]
    simp only [hopened]
    rfl

/-- A key pair that is loaded is the account's own. -/
theorem address_of_loadedFrom (h : Agrees directory iterations place ledger disk) {address : Address}
    {password : String} {found : KeyPair}
    (hloaded : loadedFrom (disk.get? (entryName address :: place)) password = .ok (some found)) :
    found.address = address := by
  rcases h.keyfile_cases address with ⟨-, hfile⟩ | ⟨holding, key, fresh, mode, -, haddress, hfile⟩
  · rw [hfile] at hloaded
    cases hloaded
  · rw [hfile, loadedFrom] at hloaded
    obtain ⟨opened, hdecode, hsome⟩ := map_eq_ok_iff.1 hloaded
    cases hsome
    obtain ⟨hfound, -⟩ := Keyfile.of_decode_encode (mapError_eq_ok_iff.1 hdecode)
    exact hfound.trans haddress

/-- Importing a key pair depends on what is under its canonical name, and changes nothing else. -/
theorem local_imported (h : Agrees directory iterations place ledger disk) (key : KeyPair)
    (password : String) (fresh : Seal) :
    Local place key.address disk (directory.imported iterations disk place key password fresh)
      (directory.importedAt iterations key password fresh
        (disk.get? (entryName key.address :: place))) := by
  have hkeyfiles := h.keyfiles_eq key.address
  have hlocal := Directory.local_persisted iterations h.leads key password fresh
  cases hnode : disk.get? (entryName key.address :: place) with
  | some node =>
    rw [hnode] at hkeyfiles
    rw [Directory.imported_of_keyfiles_ne_nil (hkeyfiles ▸ List.cons_ne_nil _ _)]
    exact .same hnode _
  | none =>
    rw [hnode] at hkeyfiles hlocal
    rw [Directory.imported_of_keyfiles_nil hkeyfiles]
    unfold Directory.importedAt
    generalize directory.persisted iterations disk key password fresh = effect at hlocal ⊢
    generalize directory.persistedAt iterations key password fresh none = result at hlocal ⊢
    exact ⟨congrArg importedFrom hlocal.answer_eq, hlocal.left_eq, hlocal.kept⟩

/-- So does deleting an account. -/
theorem local_deleted (h : Agrees directory iterations place ledger disk) (address : Address) :
    Local place address disk (directory.deleted disk place address)
      (.ok (disk.get? (entryName address :: place)).isSome, none) := by
  rcases h.keyfile_cases address with ⟨hnone, hfile⟩ | ⟨holding, key, fresh, mode, hsome, -, hfile⟩
  · rw [Directory.deleted, h.keyfiles_eq_nil hnone, hfile]
    exact .same hfile _
  · rw [Directory.deleted, h.keyfiles_eq_singleton hsome]
    simp only [h.removed_eq hsome]
    rw [hfile]
    refine ⟨rfl, ?_, fun other hother => ?_⟩
    · exact Disk.get?_erase_self
    · exact Disk.get?_erase_of_ne hother

/-- The new keyfile takes the place of the old one, because the key pair is the account's own. -/
theorem local_updated (h : Agrees directory iterations place ledger disk) (address : Address)
    (password newPassword : String) (fresh : Seal) :
    Local place address disk
      (directory.updated iterations disk place address password newPassword fresh)
      (Directory.updatedAt iterations password newPassword fresh
        (disk.get? (entryName address :: place))) := by
  have hloaded := h.loaded_eq address password
  unfold Directory.updatedAt
  unfold Directory.loaded at hloaded
  unfold Directory.updated
  rcases h.keyfile_cases address with ⟨hnone, hfile⟩ | ⟨holding, key, sealing, mode, hsome, -, hfile⟩
  · rw [h.keyfiles_eq_nil hnone] at hloaded ⊢
    rw [← hloaded]
    exact .same rfl _
  · rw [h.keyfiles_eq_singleton hsome] at hloaded ⊢
    simp only at hloaded ⊢
    cases hopened : directory.opened disk (entryName address) password with
    | error e =>
      rw [hopened] at hloaded
      rw [← hloaded]
      exact .same rfl _
    | ok found =>
      rw [hopened] at hloaded
      -- The new keyfile goes where the key pair belongs, which is where the old one was.
      have haddress := h.address_of_loadedFrom hloaded.symm
      subst haddress
      have hfree : (disk.erase (entryName found.address :: place)).get?
          (entryName found.address :: place) = none := Disk.get?_erase_self
      rw [← hloaded]
      simp only [h.removed_eq hsome, Directory.persisted_eq iterations (h.erase hsome).leads found newPassword
        fresh (h.checkPath hsome) hfree]
      refine .put (fun other hother => ?_) _ _
      exact Disk.get?_erase_of_ne hother

end Agrees

end Keyring
