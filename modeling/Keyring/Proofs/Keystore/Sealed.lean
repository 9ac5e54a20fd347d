import Keyring.Proofs.Keystore.Stored

/-!
# Keyfiles sealed with a password

A new password that is set, or an import after which an account has its first keyfile, leaves the account
with one keyfile that opens under this password (`Directory.Sealed`), whatever is done with other
accounts.
-/

namespace Keyring

open Keyfile (entryName)

namespace Directory

variable {directory : Directory} {iterations : UInt32} {disk disk' : Disk} {place : Place}
  {key : KeyPair} {password : String} {fresh : Seal}

/-- The password opens the keyfile of the key pair's account, if readers take its number of iterations. -/
structure Sealed (directory : Directory) (iterations : UInt32) (place : Place) (key : KeyPair)
    (password : String) (disk : Disk) : Prop where
  leads : disk.LeadsTo directory.path place
  loaded_eq : Keyfile.Opens iterations → directory.loaded disk place key.address password = .ok (some key)

/-- A keyfile that is written for an account without one is the only one. -/
theorem sealed_put (h : disk.LeadsTo directory.path place)
    (hcheck : Disk.checkPath (directory.path.joinName (entryName key.address)) = .ok ())
    (hnone : disk.get? (entryName key.address :: place) = none)
    (hfirst : keyfiles disk place key.address = [])
    (hput : disk' = disk.put (entryName key.address :: place)
      (.file keyfileMode (Keyfile.encode key password iterations fresh))) :
    directory.Sealed iterations place key password disk' where
  leads := by
    rw [hput]
    exact h.put (List.cons_ne_nil _ _) hnone _
  loaded_eq hopens := by
    have honly := keyfiles_put_of_nil hnone (Keyfile.addressIn?_entryName key.address) hfirst
      (.file keyfileMode (Keyfile.encode key password iterations fresh))
    rw [← hput] at honly
    exact (loaded_sealed h hcheck hnone hput honly).1.2 hopens

/-- A new password that is set seals the account's keyfile, if that is faithful. -/
theorem sealed_of_updated {address : Address} (h : disk.LeadsTo directory.path place)
    (hfaithful : directory.Faithful disk address) {given : String}
    (hupdated : directory.updated iterations disk place address given password fresh = (.ok true, disk')) :
    ∃ key, key.address = address ∧ directory.Sealed iterations place key password disk' := by
  obtain ⟨content, key, hholds, hdecode, hcheck, hleft, hnone, hput⟩ := of_updated_ok h hupdated
  obtain rfl : key.address = address := hfaithful content hholds given key hdecode
  exact ⟨key, rfl, sealed_put hleft hcheck hnone (keyfiles_without _ _ _) hput⟩

/-- The first keyfile of an account is imported if it can be written. -/
theorem imported_eq (hfirst : keyfiles disk place key.address = [])
    (hpersisted : directory.persisted iterations disk key password fresh = (.ok key.address, disk')) :
    directory.imported iterations disk place key password fresh = (.ok (some key.address), disk') := by
  unfold imported persistedNew
  rw [hfirst, hpersisted]
  rfl

/-- An import after which an account has a keyfile that had none seals it. -/
theorem sealed_of_imported {address : Address} {found : Option Address}
    (h : disk.LeadsTo directory.path place) (hbefore : keyfiles disk place address = [])
    (hafter : keyfiles disk' place address ≠ [])
    (himported : directory.imported iterations disk place key password fresh = (.ok found, disk')) :
    key.address = address ∧ directory.Sealed iterations place key password disk' := by
  rcases of_imported himported with ⟨-, rfl⟩ | ⟨-, hfirst, hpersisted⟩
  · exact absurd hbefore hafter
  · obtain ⟨-, hcheck, hnone, hput⟩ := of_persisted_ok h hpersisted
    refine ⟨?_, sealed_put h hcheck hnone hfirst hput⟩
    by_contra hne
    have hkeyfiles := keyfiles_put hnone
      (.file keyfileMode (Keyfile.encode key password iterations fresh)) address
    rw [← hput, hbefore, Keyfile.addressIn?_entryName, if_neg fun heq => hne (Option.some.inj heq)]
      at hkeyfiles
    exact hafter (List.perm_nil.1 hkeyfiles)

/-- Where a new password is set, there is a directory. -/
theorem exists_leadsTo_of_update {traced : Traced Disk} {address : Address} {given : String}
    (h : answer ((directory.keystore iterations).update address given password fresh) traced = .ok true) :
    ∃ place, traced.files.LeadsTo directory.path place := by
  by_contra hnowhere
  obtain ⟨result, hresult, hupdate⟩ := yields_update_nowhere iterations
    (fun place hleads => hnowhere ⟨place, hleads⟩) address given password fresh
  rw [(hupdate traced.events).1] at h
  exact hresult h

end Directory

end Keyring
