import Keyring.Proofs.Keystore.Stored
import Keyring.Proofs.Manager.Ownership

/-!
# Whether a stored key is given back

A call that stores a key pair and says so has made one keyfile, in a directory that is otherwise as before,
or without the account's old keyfiles (`Manager.exists_put`). So the key is given back exactly if the
number of iterations that the manager writes is one that it also reads. A keyfile that was made beside another
one of the same account, which only creating an account does, is given back in the same way where it is listed
first; otherwise the older one is opened (`Manager.exportKey_stored_iff`).
-/

namespace Keyring

open Keyfile (addressIn? entryName)

namespace Entry

/-- The call stored the key pair under the password, and answered so. -/
inductive Stores (manager : Manager Disk) (e : Entry Disk) (key : KeyPair) (password : String) : Prop
  | created {fresh : Seal} {address : Address} : e.call = .create key password fresh →
      e.reply = .ok (.created address) → Stores manager e key password
  | imported {address : Address} : e.call.kept? = some (key, password) →
      e.reply = .ok (.imported (some address)) → Stores manager e key password
  | updated {address : Address} {given : String} {fresh : Seal} :
      e.call = .update address given password fresh → e.reply = .ok (.told true) →
      answer (manager.keystore.load address given) e.before.traced = .ok (some key) →
      Stores manager e key password

/-- The call creates an account that has a keyfile already. -/
def Doubles (manager : Manager Disk) (e : Entry Disk) (key : KeyPair) : Prop :=
  (∃ password fresh, e.call = .create key password fresh) ∧
    answer (manager.isManaged key.address) e.before = .ok true

end Entry

namespace Manager

variable {directory : Directory} {iterations : UInt32} {signer : Signer} {session : Session Disk}
  {place : Place} {now : Instant} {key : KeyPair} {password : String}

/-! ## What was written -/

/-- A call that imports a key pair is no creation and does what the keystore's import does. -/
theorem imported_of_kept (hleads : session.traced.files.LeadsTo directory.path place) {call : Call}
    (hkept : call.kept? = some (key, password)) {found : Option Address}
    (hreply : answer ((directory.manager iterations signer).perform now call) session =
      .ok (.imported found)) :
    (∀ key password fresh, call ≠ .create key password fresh) ∧
      ∃ fresh, directory.imported iterations session.traced.files place key password fresh =
        (.ok found,
          (leaves ((directory.manager iterations signer).perform now call) session).traced.files) := by
  have hresult {x : SessionAction Disk (Option Address)} {fresh : Seal}
      (heffect : SessionAction.HasEffect x session
        (directory.imported iterations session.traced.files place key password fresh))
      (hanswer : answer (Answer.imported <$> x : SessionAction Disk Answer) session =
        .ok (.imported found)) :
      directory.imported iterations session.traced.files place key password fresh =
        (.ok found,
          (leaves (Answer.imported <$> x : SessionAction Disk Answer) session).traced.files) := by
    obtain ⟨reported, heq, hresult⟩ := heffect.of_map hanswer
    cases heq
    exact hresult
  cases call with
  | importSecret secret given fresh =>
    cases hkey : KeyPair.ofText? secret with
    | none => rw [Call.kept?, hkey] at hkept; cases hkept
    | some kept =>
      rw [Call.kept?, hkey] at hkept
      cases hkept
      rw [perform, importSecret, hkey] at hreply ⊢
      exact ⟨by simp, fresh, hresult (hasEffect_importKey hleads key password fresh) hreply⟩
  | importKeyfile content given newPassword fresh =>
    cases hdecode : Keyfile.decode content given with
    | error cause => rw [Call.kept?, hdecode] at hkept; cases hkept
    | ok kept =>
      rw [Call.kept?, hdecode] at hkept
      cases hkept
      rw [perform] at hreply ⊢
      exact ⟨by simp, fresh, hresult (hasEffect_importKeyfile_ok hleads hdecode password fresh) hreply⟩
  | importFile disk path given newPassword fresh =>
    cases hread : disk.read path with
    | error e => rw [Call.kept?, hread] at hkept; cases hkept
    | ok content =>
      cases hdecode : Keyfile.decode content given with
      | error cause =>
        simp only [Call.kept?, hread, Except.toOption, Option.bind_some, hdecode] at hkept
        cases hkept
      | ok kept =>
        simp only [Call.kept?, hread, Except.toOption, Option.bind_some, hdecode] at hkept
        cases hkept
        rw [perform, importFile, hread] at hreply ⊢
        exact ⟨by simp, fresh, hresult (hasEffect_importKeyfile_ok hleads hdecode password fresh) hreply⟩
  | create created given fresh =>
    rw [perform] at hreply
    obtain ⟨made, -, ⟨⟩⟩ := of_answer_map hreply
  | _ => cases hkept

/-- Every creation, import and new password that is reported to have succeeded stored some key pair. -/
theorem exists_stores {turn : Turn Disk} {e : Entry Disk}
    (he : e = (directory.manager iterations signer).take session turn)
    (hleads : e.before.traced.files.LeadsTo directory.path place)
    (hreply : (∃ address, e.reply = .ok (.created address)) ∨
      (∃ address, e.reply = .ok (.imported (some address))) ∨
      (∃ address given password fresh, e.call = .update address given password fresh) ∧
        e.reply = .ok (.told true)) :
    ∃ key password, e.Stores (directory.manager iterations signer) key password := by
  obtain ⟨hanswer, -⟩ := of_eq_take he
  rcases hreply with ⟨address, hreply⟩ | ⟨address, hreply⟩ |
    ⟨⟨address, given, password, fresh, hcall⟩, hreply⟩
  · cases hcall : e.call with
    | create key password fresh => exact ⟨key, password, .created hcall hreply⟩
    | _ =>
      rw [hanswer, hcall, perform] at hreply
      obtain ⟨found, -, ⟨⟩⟩ := of_answer_map hreply
  · have hreported := hreply
    rw [hanswer] at hreported
    obtain ⟨key, password, hkept⟩ := exists_kept (.inr ⟨_, hreported⟩)
    exact ⟨key, password, .imported hkept hreply⟩
  · have hreported := hreply
    rw [hanswer, hcall, perform] at hreported
    have heffect : SessionAction.HasEffect ((directory.manager iterations signer).update address given
        password fresh) e.before _ := hasEffect_update hleads address given password fresh
    obtain ⟨told, ⟨⟩, hupdated⟩ := heffect.of_map hreported
    obtain ⟨content, key, hholds, hdecode, -⟩ := Directory.of_updated_ok hleads hupdated
    exact ⟨key, password, .updated hcall hreply (Directory.loads_iff.2 ⟨content, hholds, hdecode⟩)⟩

/-- What a call that stores a key pair writes: a keyfile under the key pair's own name, at a place that is
free. The account has no other keyfile then, unless it was created beside one. -/
theorem exists_put {turn : Turn Disk} {e : Entry Disk}
    (he : e = (directory.manager iterations signer).take session turn)
    (hleads : e.before.traced.files.LeadsTo directory.path place)
    (hfaithful : ∀ address, directory.Faithful e.before.traced.files address)
    (hstores : e.Stores (directory.manager iterations signer) key password) :
    ∃ disk fresh, disk.LeadsTo directory.path place ∧
      Disk.checkPath (directory.path.joinName (entryName key.address)) = .ok () ∧
      disk.get? (entryName key.address :: place) = none ∧
      e.after.traced.files = disk.put (entryName key.address :: place)
        (.file Directory.keyfileMode (Keyfile.encode key password iterations fresh)) ∧
      (((∀ key password fresh, e.call ≠ .create key password fresh) ∧
          Directory.keyfiles disk place key.address = []) ∨
        (∃ fresh, e.call = .create key password fresh) ∧ disk = e.before.traced.files) := by
  obtain ⟨hanswer, hafter⟩ := of_eq_take he
  cases hstores with
  | @created fresh address hcall hreply =>
    rw [hanswer, hcall, perform] at hreply
    rw [hafter, hcall, perform]
    obtain ⟨found, -, hpersisted⟩ :=
      (hasEffect_create directory iterations signer e.before key password fresh).of_map hreply
    obtain ⟨-, hcheck, hnone, hput⟩ := Directory.of_persisted_ok hleads hpersisted
    exact ⟨e.before.traced.files, fresh, hleads, hcheck, hnone, hput, .inr ⟨⟨fresh, rfl⟩, rfl⟩⟩
  | @imported address hkept hreply =>
    rw [hanswer] at hreply
    rw [hafter]
    obtain ⟨hcall, fresh, himported⟩ := imported_of_kept hleads hkept hreply
    obtain ⟨⟨⟩, -⟩ | ⟨-, hempty, hpersisted⟩ := Directory.of_imported himported
    obtain ⟨-, hcheck, hnone, hput⟩ := Directory.of_persisted_ok hleads hpersisted
    exact ⟨e.before.traced.files, fresh, hleads, hcheck, hnone, hput, .inl ⟨hcall, hempty⟩⟩
  | @updated address given fresh hcall hreply hload =>
    rw [hanswer, hcall, perform] at hreply
    rw [hafter, hcall, perform]
    have haddress : key.address = address := address_of_load (hfaithful address) hload
    subst haddress
    have heffect : SessionAction.HasEffect ((directory.manager iterations signer).update key.address given
        password fresh) e.before _ := hasEffect_update hleads key.address given password fresh
    obtain ⟨told, ⟨⟩, hupdated⟩ := heffect.of_map hreply
    obtain ⟨content, found, hholds, hdecode, hcheck, hleft, hnone, hput⟩ :=
      Directory.of_updated_ok hleads hupdated
    obtain ⟨content', hholds', hdecode'⟩ := Directory.loads_iff.1 hload
    cases hholds.unique hholds'
    rw [hdecode] at hdecode'
    cases hdecode'
    exact ⟨_, fresh, hleft, hcheck, hnone, hput, .inl ⟨by simp, Directory.keyfiles_without _ _ _⟩⟩

/-! ## What is given back -/

/-- An account is managed if it has a keyfile. -/
theorem answer_isManaged (h : session.traced.files.LeadsTo directory.path place) (address : Address) :
    answer ((directory.manager iterations signer).isManaged address) session =
      .ok !(Directory.keyfiles session.traced.files place address).isEmpty :=
  SessionAction.answer_of_yields (Directory.yields_isManaged h address)

/-- The password gives the key pair back exactly if the number of iterations is one that readers take, and if
it is not, no password gives anything back. -/
def GivenBack (manager : Manager Disk) (iterations : UInt32) (session : Session Disk) (key : KeyPair)
    (password : String) : Prop :=
  (answer (manager.exportKey key.address password) session = .ok (some key) ↔
    0 < iterations.toNat ∧ iterations.toNat ≤ Keyfile.maxIterations) ∧
  (¬ (0 < iterations.toNat ∧ iterations.toNat ≤ Keyfile.maxIterations) → ∀ given,
    answer (manager.exportKey key.address given) session =
      .error (.invalidCredentials (.iterations iterations)))

/-- A keyfile that was sealed and is listed first is given back under its password. -/
theorem givenBack_of_first {disk : Disk} {fresh : Seal} (h : disk.LeadsTo directory.path place)
    (hcheck : Disk.checkPath (directory.path.joinName (entryName key.address)) = .ok ())
    (hnone : disk.get? (entryName key.address :: place) = none)
    (hput : session.traced.files = disk.put (entryName key.address :: place)
      (.file Directory.keyfileMode (Keyfile.encode key password iterations fresh))) {others : List Name}
    (hfirst : Directory.keyfiles session.traced.files place key.address =
      entryName key.address :: others) :
    GivenBack (directory.manager iterations signer) iterations session key password := by
  have hleft : session.traced.files.LeadsTo directory.path place := by
    rw [hput]
    exact h.put (List.cons_ne_nil _ _) hnone _
  obtain ⟨hiff, hrefused⟩ := Directory.loaded_sealed h hcheck hnone hput hfirst
  refine ⟨?_, fun hopens given => ?_⟩
  · rw [answer_exportKey hleft]
    exact hiff
  · rw [answer_exportKey hleft]
    exact hrefused hopens given

/-- Where the listing starts with a keyfile that was there before, that one is opened as it was. -/
theorem answer_exportKey_of_older {disk : Disk} {node : Node} (h : disk.LeadsTo directory.path place)
    (hnone : disk.get? (entryName key.address :: place) = none)
    (hput : session.traced.files = disk.put (entryName key.address :: place) node)
    {first : Name} {others : List Name}
    (hfirst : Directory.keyfiles session.traced.files place key.address = first :: others)
    (hne : first ≠ entryName key.address) (given : String) :
    answer ((directory.manager iterations signer).exportKey key.address given) session =
      (directory.opened disk first given).map some := by
  have hleft : session.traced.files.LeadsTo directory.path place := by
    rw [hput]
    exact h.put (List.cons_ne_nil _ _) hnone _
  have hmem : first ∈ Directory.keyfiles session.traced.files place key.address :=
    hfirst ▸ List.mem_cons_self
  rw [answer_exportKey hleft, Directory.loaded, hfirst]
  simp only [hput]
  rw [Directory.opened_put h hnone (Directory.mem_keyfiles_iff.1 hmem).2 hne]

/-- A call that says that it stored a key pair under a password, in a directory whose names agree with the
keys in the keyfiles, stored it so that the password gives it back exactly if the manager's number of
iterations is one that readers take; otherwise no password gives anything back. Only of an account that is
created although it has a keyfile already there are several then, and the one that is listed first is
loaded: that may be the new one, of which the same holds, or one that is opened as it was before. -/
theorem exportKey_stored_iff (directory : Directory) (iterations : UInt32) (signer : Signer)
    {manager : Manager Disk} (hmanager : manager = directory.manager iterations signer)
    {session : Session Disk} {turn : Turn Disk} {e : Entry Disk} (he : e = manager.take session turn)
    {place : Place} (hleads : e.before.traced.files.LeadsTo directory.path place)
    (hfaithful : ∀ address, directory.Faithful e.before.traced.files address) {key : KeyPair}
    {password : String} (hstores : e.Stores manager key password) :
    (¬ e.Doubles manager key → GivenBack manager iterations e.after key password) ∧
    (e.Doubles manager key → ∃ first others,
      Directory.keyfiles e.after.traced.files place key.address = first :: others ∧
      (first = entryName key.address → GivenBack manager iterations e.after key password) ∧
      (first ≠ entryName key.address →
        first ∈ Directory.keyfiles e.before.traced.files place key.address ∧
        ∀ given, answer (manager.exportKey key.address given) e.after =
          (directory.opened e.before.traced.files first given).map some)) := by
  subst hmanager
  obtain ⟨disk, fresh, hdisk, hcheck, hnone, hafter, hothers⟩ := exists_put he hleads hfaithful hstores
  have hname := Keyfile.addressIn?_entryName key.address
  constructor
  · intro hsingle
    have hfirst : Directory.keyfiles disk place key.address = [] := by
      rcases hothers with ⟨-, hnil⟩ | ⟨⟨sealing, hcall⟩, rfl⟩
      · exact hnil
      · cases hnames : Directory.keyfiles e.before.traced.files place key.address with
        | nil => rfl
        | cons name names =>
          refine absurd ⟨⟨password, sealing, hcall⟩, ?_⟩ hsingle
          rw [answer_isManaged hleads, hnames]
          rfl
    have hlisted : Directory.keyfiles e.after.traced.files place key.address = [entryName key.address] := by
      rw [hafter]
      exact Directory.keyfiles_put_of_nil hnone hname hfirst _
    exact givenBack_of_first hdisk hcheck hnone hafter hlisted
  · rintro ⟨⟨created, sealing, hcreates⟩, -⟩
    rcases hothers with ⟨hcall, -⟩ | ⟨-, rfl⟩
    · exact absurd hcreates (hcall key created sealing)
    · obtain ⟨first, others, hlisted, holder⟩ := Directory.exists_first_put hnone hname _
      rw [← hafter] at hlisted
      refine ⟨first, others, hlisted, ?_, fun hne => ⟨holder.resolve_left hne, fun given => ?_⟩⟩
      · rintro rfl
        exact givenBack_of_first hdisk hcheck hnone hafter hlisted
      · exact answer_exportKey_of_older hdisk hnone hafter hlisted hne given

/-! ### Accounts that are created in the sample directory -/

/-- What the account that was created exports is what its keyfile opens to. -/
theorem exportKey_create_sample (iterations : UInt32) (key : KeyPair) (password : String)
    (fresh : Seal) (given : String) :
    answer ((Directory.sample.manager iterations .ecdsa).exportKey key.address given)
        (leaves ((Directory.sample.manager iterations .ecdsa).create key password fresh)
          (.opened ⟨.sample, []⟩)) =
      ((Keyfile.decode (Keyfile.encode key password iterations fresh) given).mapError
        .invalidCredentials).map some := by
  obtain ⟨-, hfiles⟩ := hasEffect_create_sample iterations key password fresh
  have hleads := Disk.sample_leadsTo
  have hcheck := Directory.checkPath_sample key.address
  have hnone := Disk.get?_sample (entryName key.address)
  have hfirst := Directory.keyfiles_sample key.address
  generalize Disk.sample = disk at hleads hnone hfirst hfiles ⊢
  generalize leaves ((Directory.sample.manager iterations .ecdsa).create key password fresh)
    (.opened ⟨disk, []⟩) = session at hfiles ⊢
  have hleft : session.traced.files.LeadsTo Directory.sample.path [[0x6b]] := by
    rw [hfiles]
    exact hleads.put (List.cons_ne_nil _ _) hnone _
  rw [answer_exportKey hleft, hfiles]
  exact Directory.loaded_put hleads hcheck hnone
    (Directory.keyfiles_put_of_nil hnone (Keyfile.addressIn?_entryName _) hfirst _) given

/-- With no iterations an account is created, and then no password opens its keyfile. -/
theorem create_unreadable :
    answer ((Directory.sample.manager 0 .ecdsa).create .one "p" .zero) (.opened ⟨.sample, []⟩) =
        .ok KeyPair.one.address ∧
      ∀ given, answer ((Directory.sample.manager 0 .ecdsa).exportKey KeyPair.one.address given)
        (leaves ((Directory.sample.manager 0 .ecdsa).create .one "p" .zero) (.opened ⟨.sample, []⟩)) =
          .error (.invalidCredentials (.iterations 0)) := by
  have hopens : ¬ Keyfile.Opens 0 := by decide
  refine ⟨(hasEffect_create_sample 0 .one "p" .zero).1, fun given => ?_⟩
  rw [exportKey_create_sample, Keyfile.decode_encode_refused _ _ _ _ hopens]
  rfl

/-- The account that is created in the sample directory is given back after one iteration, and not after
none. -/
theorem exportKey_stored_iff_create :
    answer ((Directory.sample.manager 1 .ecdsa).exportKey KeyPair.one.address "p")
        ((Directory.sample.manager 1 .ecdsa).take (.opened ⟨.sample, []⟩)
          ⟨id, 0, .create .one "p" .zero⟩).after = .ok (some .one) ∧
      answer ((Directory.sample.manager 0 .ecdsa).exportKey KeyPair.one.address "p")
        ((Directory.sample.manager 0 .ecdsa).take (.opened ⟨.sample, []⟩)
          ⟨id, 0, .create .one "p" .zero⟩).after ≠ .ok (some .one) := by
  have hleads := Disk.sample_leadsTo
  have hkeyfiles := Directory.keyfiles_sample
  have hcreate (iterations : UInt32) := hasEffect_create_sample iterations .one "p" .zero
  generalize KeyPair.one = key at hcreate ⊢
  generalize Disk.sample = disk at hleads hkeyfiles hcreate ⊢
  have hfaithful (address : Address) : Directory.sample.Faithful disk address := by
    intro content hholds
    obtain ⟨name, others, hcons, -⟩ := (Directory.holds_iff hleads).1 hholds
    rw [hkeyfiles] at hcons
    cases hcons
  have hcase (iterations : UInt32) :
      answer ((Directory.sample.manager iterations .ecdsa).exportKey key.address "p")
          ((Directory.sample.manager iterations .ecdsa).take (.opened ⟨disk, []⟩)
            ⟨id, 0, .create key "p" .zero⟩).after = .ok (some key) ↔
        0 < iterations.toNat ∧ iterations.toNat ≤ Keyfile.maxIterations := by
    have hreply : answer ((Directory.sample.manager iterations .ecdsa).perform 0 (.create key "p" .zero))
        (.opened ⟨disk, []⟩) = .ok (.created key.address) :=
      ((hcreate iterations).map Answer.created).1
    generalize hentry : (Directory.sample.manager iterations .ecdsa).take (.opened ⟨disk, []⟩)
      ⟨id, 0, .create key "p" .zero⟩ = e
    have hbefore : e.before.traced.files = disk := by rw [← hentry, take_undisturbed]; rfl
    have hcall : e.call = .create key "p" .zero := by rw [← hentry, take_undisturbed]
    have hcreated : e.reply = .ok (.created key.address) := by
      rw [← hentry, take_undisturbed]
      simp only [hreply]
    have hstores : e.Stores (Directory.sample.manager iterations .ecdsa) key "p" :=
      .created hcall hcreated
    rw [← hbefore] at hleads hfaithful hkeyfiles
    refine ((exportKey_stored_iff Directory.sample iterations .ecdsa rfl hentry.symm hleads hfaithful
      hstores).1 ?_).1
    rintro ⟨-, hmanaged⟩
    rw [answer_isManaged hleads, hkeyfiles] at hmanaged
    cases hmanaged
  refine ⟨(hcase 1).2 (by decide), fun hok => ?_⟩
  exact absurd ((hcase 0).1 hok) (by decide)

end Manager

end Keyring
