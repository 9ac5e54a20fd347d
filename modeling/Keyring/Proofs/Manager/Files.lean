import Keyring.Proofs.Keystore.Operations
import Keyring.Proofs.Manager.Registry

/-!
# What calls do to the files

The manager of a directory does to the files what its keystore does. Calls that only look, unlock, lock
or sign leave them as they are (`Manager.keepsFiles_perform`); the others have the effects of the
keystore's operations.
-/

namespace Keyring

open Keyring.Action (Yields)

/-- The manager of a directory. -/
def Directory.manager (directory : Directory) (iterations : UInt32) (signer : Signer) :
    Manager Disk :=
  ⟨directory.keystore iterations, signer⟩

namespace SessionAction

section
variable {σ α β : Type} {x : SessionAction σ α} {f : α → SessionAction σ β} {files files' : σ}
  {session : Session σ}

/-- An operation on the files answers and leaves what it yields. -/
theorem answer_of_yields {action : Action σ α} {result : Except AccountError α}
    (h : Yields action session.traced.files result files') :
    answer (onFiles action) session = result := by
  rw [answer_onFiles]
  exact (h session.traced.events).1

/-- An operation on the files leaves them as it says. -/
theorem files_of_yields {action : Action σ α} {result : Except AccountError α}
    (h : Yields action session.traced.files result files') :
    (leaves (onFiles action) session).traced.files = files' := by
  rw [leaves_onFiles]
  exact (h session.traced.events).2

/-- The operation answers and leaves as files what the effect tells. -/
def HasEffect (x : SessionAction Disk α) (session : Session Disk) (effect : Effect α) : Prop :=
  answer x session = effect.1 ∧ (leaves x session).traced.files = effect.2

/-- What is worked out from an answer has the same effect on the files. -/
theorem HasEffect.map {y : SessionAction Disk α} {session : Session Disk} {effect : Effect α}
    (h : HasEffect y session effect) (g : α → β) :
    HasEffect (g <$> y) session (effect.1.map g, effect.2) := by
  obtain ⟨hanswer, hfiles⟩ := h
  exact ⟨by rw [answer_map, hanswer], by rw [leaves_map, hfiles]⟩

/-- The effect of an operation that succeeds. -/
theorem HasEffect.eq_ok {y : SessionAction Disk α} {session : Session Disk} {effect : Effect α} {a : α}
    (h : HasEffect y session effect) (ha : answer y session = .ok a) :
    effect = (.ok a, (leaves y session).traced.files) := by
  obtain ⟨hanswer, hfiles⟩ := h
  rw [ha] at hanswer
  exact Prod.ext hanswer.symm hfiles.symm

/-- The effect of an operation whose answer is handed on. -/
theorem HasEffect.of_map {y : SessionAction Disk α} {session : Session Disk} {effect : Effect α}
    {g : α → β} {b : β} (h : HasEffect y session effect)
    (hb : answer (g <$> y : SessionAction Disk β) session = .ok b) :
    ∃ a, g a = b ∧
      effect = (.ok a, (leaves (g <$> y : SessionAction Disk β) session).traced.files) := by
  obtain ⟨a, ha, hb⟩ := of_answer_map hb
  rw [leaves_map]
  exact ⟨a, hb, h.eq_ok ha⟩

/-- An operation of the keystore has its effect in a session, too. -/
theorem hasEffect_onFiles {action : Action Disk α} {session : Session Disk} {effect : Effect α}
    (h : Yields action session.traced.files effect.1 effect.2) :
    HasEffect (onFiles action) session effect :=
  ⟨answer_of_yields h, files_of_yields h⟩

/-- A failure has no effect on the files. -/
theorem hasEffect_throw (e : AccountError) (session : Session Disk) :
    HasEffect (throw e : SessionAction Disk α) session (.error e, session.traced.files) :=
  ⟨rfl, rfl⟩

/-- A value that is given has no effect on the files. -/
theorem hasEffect_pure (a : α) (session : Session Disk) :
    HasEffect (pure a : SessionAction Disk α) session (.ok a, session.traced.files) :=
  ⟨rfl, rfl⟩

/-- What is done with the unlocked accounts has no effect on the files. -/
theorem hasEffect_onUnlocked (step : UnlockRegistry → α × UnlockRegistry) (session : Session Disk) :
    HasEffect (onUnlocked step) session (.ok (step session.unlocked).1, session.traced.files) :=
  ⟨rfl, rfl⟩

section
variable {y : SessionAction Disk α} {g : α → SessionAction Disk β} {session : Session Disk} {disk : Disk}

/-- One operation, and then another one that goes on from what it leaves. -/
theorem HasEffect.bind {a : α} {effect : Effect β} (hy : HasEffect y session (.ok a, disk))
    (hg : ∀ after : Session Disk, after.traced.files = disk → HasEffect (g a) after effect) :
    HasEffect (y >>= g) session effect := by
  obtain ⟨hanswer, hfiles⟩ := hy
  obtain ⟨hanswer', hfiles'⟩ := hg _ hfiles
  constructor
  · rw [answer_bind_ok hanswer, hanswer']
  · rw [leaves_bind_ok hanswer, hfiles']

/-- A failure is passed on. -/
theorem HasEffect.bind_error {e : AccountError} (hy : HasEffect y session (.error e, disk)) :
    HasEffect (y >>= g) session (.error e, disk) := by
  obtain ⟨hanswer, hfiles⟩ := hy
  constructor
  · rw [answer_bind_error hanswer]
  · rw [leaves_bind_error hanswer, hfiles]

end

/-- The operation leaves the files as they are. -/
def KeepsFiles (x : SessionAction σ α) (files : σ) : Prop :=
  ∀ session : Session σ, session.traced.files = files → (leaves x session).traced.files = files

/-- A value that is given keeps the files. -/
theorem keepsFiles_pure (a : α) (files : σ) : KeepsFiles (pure a : SessionAction σ α) files :=
  fun _ h => h

/-- A failure keeps the files. -/
theorem keepsFiles_throw (e : AccountError) (files : σ) :
    KeepsFiles (throw e : SessionAction σ α) files :=
  fun _ h => h

/-- What is done with the unlocked accounts keeps the files. -/
theorem keepsFiles_onUnlocked (step : UnlockRegistry → α × UnlockRegistry) (files : σ) :
    KeepsFiles (onUnlocked step) files :=
  fun _ h => h

/-- An operation of the keystore that leaves the files as they are keeps them in a session, too. -/
theorem keepsFiles_onFiles {action : Action σ α} {result : Except AccountError α}
    (h : Yields action files result files) : KeepsFiles (onFiles action) files := by
  intro session hfiles
  rw [← hfiles] at h
  rw [files_of_yields h, hfiles]

/-- Two steps that keep the files keep them together. -/
theorem KeepsFiles.bind (hx : KeepsFiles x files) (hf : ∀ a, KeepsFiles (f a) files) :
    KeepsFiles (x >>= f) files := by
  intro session hfiles
  cases hresult : answer x session with
  | error e => rw [leaves_bind_error hresult, hx session hfiles]
  | ok a =>
    rw [leaves_bind_ok hresult]
    exact hf a _ (hx session hfiles)

/-- What is worked out from an answer keeps the files as the operation does. -/
theorem KeepsFiles.map (g : α → β) (hx : KeepsFiles x files) : KeepsFiles (g <$> x) files := by
  intro session hfiles
  rw [leaves_map, hx session hfiles]

end

end SessionAction

namespace Manager

open SessionAction

variable {directory : Directory} {iterations : UInt32} {signer : Signer} {disk : Disk}
  {place : Place}

/-- Loading keeps the files. -/
theorem keepsFiles_load (directory : Directory) (iterations : UInt32) (signer : Signer) (disk : Disk)
    (address : Address) (password : String) :
    KeepsFiles (onFiles ((directory.manager iterations signer).keystore.load address password))
      disk :=
  keepsFiles_onFiles (Directory.yields_load_fetched directory iterations disk address password)

/-- Resolving a key looks at the files at most. -/
theorem keepsFiles_resolveKey (directory : Directory) (iterations : UInt32) (signer : Signer)
    (disk : Disk) (now : Instant) (address : Address) (password : Option String) :
    KeepsFiles ((directory.manager iterations signer).resolveKey now address password) disk := by
  refine (keepsFiles_onUnlocked _ disk).bind fun found => ?_
  split
  · exact keepsFiles_pure _ _
  · exact keepsFiles_throw _ _
  · exact keepsFiles_throw _ _
  · refine (keepsFiles_onFiles (Action.yields_note _ _)).bind fun _ => ?_
    refine (keepsFiles_load directory iterations signer disk address _).bind fun key => ?_
    cases key with
    | some key => exact keepsFiles_pure _ _
    | none => exact keepsFiles_throw _ _

/-- Signing keeps the files. -/
theorem keepsFiles_sign (directory : Directory) (iterations : UInt32) (signer : Signer) (disk : Disk)
    (now : Instant) (address : Address) (password : Option String) (message : Bytes) (hashFirst : Bool) :
    KeepsFiles ((directory.manager iterations signer).sign now address password message hashFirst)
      disk := by
  refine (keepsFiles_resolveKey directory iterations signer disk now address password).bind fun key => ?_
  split
  · exact keepsFiles_pure _ _
  · exact keepsFiles_throw _ _

/-- The calls that are not meant to change files leave them as they are, whether they fail or not. -/
theorem keepsFiles_perform (h : disk.LeadsTo directory.path place) (now : Instant) {call : Call}
    (hcall : call.changesFiles = false) :
    KeepsFiles ((directory.manager iterations signer).perform now call) disk := by
  cases call with
  | create | delete | update | importKeyfile | importFile | importSecret => cases hcall
  | list => exact (keepsFiles_onFiles (Directory.yields_list h)).map _
  | isManaged address => exact (keepsFiles_onFiles (Directory.yields_isManaged h address)).map _
  | exportKey address password => exact (keepsFiles_load _ _ _ disk address password).map _
  | unlock address password timeout =>
    refine KeepsFiles.map _ ((keepsFiles_load _ _ _ disk address password).bind fun found => ?_)
    cases found with
    | none => exact keepsFiles_pure _ _
    | some key => exact keepsFiles_onUnlocked _ _
  | lock | isUnlocked | unlockedAccounts | purgeExpired =>
    exact (keepsFiles_onUnlocked _ disk).map _
  | resolveKey address password => exact (keepsFiles_resolveKey _ _ _ disk now address password).map _
  | signMessage address password message hashFirst =>
    refine KeepsFiles.map _ ((keepsFiles_sign _ _ _ disk now address password message hashFirst).bind ?_)
    exact fun _ => keepsFiles_pure _ _
  | signTransaction address password tx =>
    refine KeepsFiles.map _ ((keepsFiles_sign _ _ _ disk now address password _ false).bind ?_)
    exact fun _ => keepsFiles_pure _ _

/-! ## Calls that change files -/

section
variable {session : Session Disk}

/-- Creating an account makes its keyfile. -/
theorem hasEffect_create (directory : Directory) (iterations : UInt32) (signer : Signer)
    (session : Session Disk) (key : KeyPair) (password : String) (fresh : Seal) :
    HasEffect ((directory.manager iterations signer).create key password fresh) session
      (directory.persisted iterations session.traced.files key password fresh) :=
  hasEffect_onFiles (Directory.yields_create _ _ _ key password fresh)

/-- Importing a key pair makes its keyfile unless there is one. -/
theorem hasEffect_importKey (h : session.traced.files.LeadsTo directory.path place) (key : KeyPair)
    (password : String) (fresh : Seal) :
    HasEffect (onFiles ((directory.manager iterations signer).keystore.importKey key password fresh))
      session (directory.imported iterations session.traced.files place key password fresh) :=
  hasEffect_onFiles (Directory.yields_importKey h key password fresh)

/-- Setting a new password makes the keyfile anew. -/
theorem hasEffect_update (h : session.traced.files.LeadsTo directory.path place) (address : Address)
    (password newPassword : String) (fresh : Seal) :
    HasEffect ((directory.manager iterations signer).update address password newPassword fresh)
      session (directory.updated iterations session.traced.files place address password newPassword
        fresh) :=
  hasEffect_onFiles (Directory.yields_update h address password newPassword fresh)

/-- Deleting does to the files what the keystore does, and locks the account besides. -/
theorem hasEffect_delete (now : Instant) (h : session.traced.files.LeadsTo directory.path place)
    (address : Address) :
    HasEffect ((directory.manager iterations signer).delete now address) session
      (directory.deleted session.traced.files place address) := by
  obtain ⟨hanswer, hfiles⟩ := Directory.yields_delete iterations h address session.traced.events
  constructor
  · rw [answer_delete]
    exact hanswer
  · rw [leaves_delete]
    exact hfiles

/-- A keyfile is imported as the key pair that it opens to, or not at all. -/
theorem hasEffect_importKeyfile (h : session.traced.files.LeadsTo directory.path place)
    (content : Bytes) (password newPassword : String) (fresh : Seal) :
    HasEffect ((directory.manager iterations signer).importKeyfile content password newPassword fresh)
      session
      (match Keyfile.decode content password with
        | .ok key => directory.imported iterations session.traced.files place key newPassword fresh
        | .error cause => (.error (.invalidCredentials cause), session.traced.files)) := by
  refine hasEffect_onFiles ?_
  unfold Keystore.importKeyfile
  cases Keyfile.decode content password with
  | ok key => exact Directory.yields_importKey h key newPassword fresh
  | error cause => exact Action.yields_throw _ _

/-- Importing a keyfile that opens imports its key pair. -/
theorem hasEffect_importKeyfile_ok (h : session.traced.files.LeadsTo directory.path place)
    {content : Bytes} {password : String} {key : KeyPair}
    (hdecode : Keyfile.decode content password = .ok key) (newPassword : String) (fresh : Seal) :
    HasEffect ((directory.manager iterations signer).importKeyfile content password newPassword fresh)
      session (directory.imported iterations session.traced.files place key newPassword fresh) := by
  have heffect : HasEffect ((directory.manager iterations signer).importKeyfile content password
      newPassword fresh) session _ := hasEffect_importKeyfile h content password newPassword fresh
  rw [hdecode] at heffect
  exact heffect

end

/-- What creating an account in the empty sample directory does. -/
theorem hasEffect_create_sample (iterations : UInt32) (key : KeyPair) (password : String)
    (fresh : Seal) :
    HasEffect ((Directory.sample.manager iterations .ecdsa).create key password fresh)
      (.opened ⟨.sample, []⟩)
      (.ok key.address, Disk.sample.put (Keyfile.entryName key.address :: [[0x6b]])
        (.file Directory.keyfileMode (Keyfile.encode key password iterations fresh))) := by
  have hleads := Disk.sample_leadsTo
  have hcheck := Directory.checkPath_sample key.address
  have hnone := Disk.get?_sample (Keyfile.entryName key.address)
  generalize Disk.sample = disk at hleads hnone ⊢
  rw [← Directory.persisted_eq iterations hleads key password fresh hcheck hnone]
  exact hasEffect_create Directory.sample iterations .ecdsa (.opened ⟨disk, []⟩) key password fresh

end Manager

end Keyring
