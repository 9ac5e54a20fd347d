import Keyring.Proofs.Keystore.Faithful

/-!
# Loading what was stored

A keyfile that is made may be listed anywhere among those of its account (`Directory.exists_first_put`). If
it is listed first, and so if it is the only one, loading the account opens it (`Directory.loaded_put`), so
that the password it was sealed with gives its key pair back exactly if its number of iterations is one that
readers take (`Directory.loaded_sealed`). If another one is listed first, loading opens that one as before
(`Directory.opened_put`).
-/

namespace Keyring

open Keyfile (addressIn? entryName)

namespace Directory

variable {directory : Directory} {iterations : UInt32} {disk disk' : Disk} {place : Place}
  {address : Address} {name : Name}

/-! ## Loading after a keyfile was made -/

/-- Of an account's keyfiles after one was made, the first is that one or was there before. -/
theorem exists_first_put (hnone : disk.get? (name :: place) = none) (hname : addressIn? name = some address)
    (node : Node) :
    ∃ first others, keyfiles (disk.put (name :: place) node) place address = first :: others ∧
      (first = name ∨ first ∈ keyfiles disk place address) := by
  have hperm := keyfiles_put hnone node address
  rw [if_pos hname, List.singleton_append] at hperm
  cases hlisted : keyfiles (disk.put (name :: place) node) place address with
  | nil =>
    rw [hlisted] at hperm
    exact absurd (List.perm_nil.1 hperm.symm) (List.cons_ne_nil _ _)
  | cons first others =>
    rw [hlisted] at hperm
    exact ⟨first, others, rfl, List.mem_cons.1 (hperm.mem_iff.1 List.mem_cons_self)⟩

/-- Loading an account opens the keyfile that was made for it, if that is listed first. -/
theorem loaded_put (h : disk.LeadsTo directory.path place) {key : KeyPair}
    (hcheck : Disk.checkPath (directory.path.joinName (entryName key.address)) = .ok ())
    (hnone : disk.get? (entryName key.address :: place) = none) {mode : Nat} {content : Bytes}
    {others : List Name}
    (hfirst : keyfiles (disk.put (entryName key.address :: place) (.file mode content)) place key.address =
      entryName key.address :: others) (password : String) :
    directory.loaded (disk.put (entryName key.address :: place) (.file mode content)) place key.address
        password =
      ((Keyfile.decode content password).mapError .invalidCredentials).map some := by
  have hput := h.put (List.cons_ne_nil _ _) hnone (.file mode content)
  have hfile : (disk.put (entryName key.address :: place) (.file mode content)).get?
      (entryName key.address :: place) = some (.file mode content) := Disk.get?_put_self
  have hopened := opened_eq hput (Keyfile.addressIn?_entryName key.address) hcheck hfile password
  rw [loaded, hfirst]
  simp only [hopened]

/-- A keyfile is opened as before after another one was made. -/
theorem opened_put (h : disk.LeadsTo directory.path place)
    (hnone : disk.get? (name :: place) = none) {other : Name} {address : Address}
    (hother : addressIn? other = some address) (hne : other ≠ name) (node : Node) (password : String) :
    directory.opened (disk.put (name :: place) node) other password =
      directory.opened disk other password := by
  have hplain := Keyfile.plain_of_addressIn? hother
  have hput := h.put (List.cons_ne_nil _ _) hnone node
  have hread : (disk.put (name :: place) node).read (directory.path.joinName other) =
      disk.read (directory.path.joinName other) := by
    cases hcheck : Disk.checkPath (directory.path.joinName other) with
    | error e =>
      rw [Disk.read, Disk.read, Disk.locate_refused hcheck, Disk.locate_refused hcheck]
    | ok =>
      have hplace : ¬ other :: place = name :: place := by
        intro heq
        cases heq
        exact hne rfl
      rw [Disk.read_eq hput hplain hcheck, Disk.read_eq h hplain hcheck, Disk.get?_put_of_ne hplace]
  rw [opened, opened, hread]

/-! ## Loading what was sealed -/

/-- A keyfile that was just sealed and is listed first gives its key pair back if readers take its number of
iterations, and else no password opens it. -/
theorem loaded_sealed (h : disk.LeadsTo directory.path place) {key : KeyPair} {password : String}
    {fresh : Seal}
    (hcheck : Disk.checkPath (directory.path.joinName (entryName key.address)) = .ok ())
    (hnone : disk.get? (entryName key.address :: place) = none)
    (hleft : disk' = disk.put (entryName key.address :: place)
      (.file keyfileMode (Keyfile.encode key password iterations fresh))) {others : List Name}
    (hfirst : keyfiles disk' place key.address = entryName key.address :: others) :
    (directory.loaded disk' place key.address password = .ok (some key) ↔ Keyfile.Opens iterations) ∧
      (¬ Keyfile.Opens iterations → ∀ given, directory.loaded disk' place key.address given =
        .error (.invalidCredentials (.iterations iterations))) := by
  subst hleft
  have hloaded := loaded_put h hcheck hnone hfirst
  have hrefused (hopens : ¬ Keyfile.Opens iterations) (given : String) :
      directory.loaded (disk.put (entryName key.address :: place)
        (.file keyfileMode (Keyfile.encode key password iterations fresh))) place key.address given =
        .error (.invalidCredentials (.iterations iterations)) := by
    rw [hloaded, Keyfile.decode_encode_refused key password given fresh hopens]
    rfl
  refine ⟨⟨fun hok => ?_, fun hopens => ?_⟩, hrefused⟩
  · by_cases hopens : Keyfile.Opens iterations
    · exact hopens
    · rw [hrefused hopens] at hok
      cases hok
  · rw [hloaded, Keyfile.decode_encode key password fresh hopens]
    rfl

/-! ## What importing did -/

/-- A key pair that is imported had no keyfile before, and has one now. An import that answers no account
changes nothing. -/
theorem of_imported {key : KeyPair} {password : String} {fresh : Seal} {found : Option Address}
    (h : directory.imported iterations disk place key password fresh = (.ok found, disk')) :
    found = none ∧ disk' = disk ∨
      found = some key.address ∧ keyfiles disk place key.address = [] ∧
        directory.persisted iterations disk key password fresh = (.ok key.address, disk') := by
  unfold imported persistedNew at h
  split at h
  · next hempty =>
    rcases directory.persisted_cases iterations disk key password fresh with ⟨made, hmade⟩ | ⟨e, hmade⟩
    · rw [hmade] at h ⊢
      cases h
      exact .inr ⟨rfl, List.isEmpty_iff.1 hempty, rfl⟩
    · rw [hmade] at h
      cases e with
      | io path source =>
        obtain ⟨kind, text⟩ := source
        cases kind <;> cases h
        exact .inl ⟨rfl, rfl⟩
      | _ => cases h
  · cases h
    exact .inl ⟨rfl, rfl⟩

end Directory

end Keyring
