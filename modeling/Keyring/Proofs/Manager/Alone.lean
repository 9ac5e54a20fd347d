import Keyring.Proofs.Keystore.Alone
import Keyring.Proofs.Manager.Resolution
import Keyring.Proofs.Manager.Stored

/-!
# Calls that concern one account

What there is of an account is what is under the name of its keyfile and its entry at hand (`Share`). Each
call that is about one account answers and leaves of the account what its share alone determines, and it
leaves the shares of all others and every other file as they are (`Manager.exists_step`). That is so
wherever the directory agrees with a ledger.
-/

namespace Keyring

open Keyfile (addressIn? entryName)

/-! ## Shares -/

/-- What there is of an account: what is under the name of its keyfile, and its entry at hand. -/
structure Share where
  keyfile : Option Node
  unlock : Option Unlock

/-- What there is of an account in a session. -/
def Session.share (session : Session Disk) (place : Place) (address : Address) : Share :=
  ⟨session.traced.files.get? (entryName address :: place), session.unlocked.entries.get? address⟩

namespace Share

variable {α β : Type}

/-- What happens to the keyfile alone. -/
def onKeyfile (step : Option Node → Except AccountError α × Option Node) (share : Share) :
    Except AccountError α × Share :=
  ((step share.keyfile).1, ⟨(step share.keyfile).2, share.unlock⟩)

/-- Looking at the keyfile. -/
def onSight (look : Option Node → Except AccountError α) (share : Share) : Except AccountError α × Share :=
  (look share.keyfile, share)

/-- Deleting the account, which locks it if there is a keyfile. -/
def deleted (share : Share) : Except AccountError Bool × Share :=
  (.ok share.keyfile.isSome, ⟨none, if share.keyfile.isSome then none else share.unlock⟩)

/-- Unlocking the account. -/
def unlocked (now : Instant) (password : String) (timeout : Option Duration) (share : Share) :
    Except AccountError Bool × Share :=
  match loadedFrom share.keyfile password with
  | .error e => (.error e, share)
  | .ok none => (.ok false, share)
  | .ok (some key) => (.ok true, ⟨share.keyfile, some ⟨key, deadline? now timeout⟩⟩)

/-- The entry at hand is there and not expired. -/
def isUnlocked (now : Instant) (share : Share) : Bool :=
  share.unlock.any fun unlock => !unlock.isExpired now

/-- Locking the account. -/
def locked (now : Instant) (share : Share) : Except AccountError Bool × Share :=
  (.ok (share.isUnlocked now), ⟨share.keyfile, none⟩)

/-- The key pair that a password opens the keyfile to. -/
def decrypted (address : Address) (share : Share) (password : String) : Except AccountError KeyPair :=
  match loadedFrom share.keyfile password with
  | .error e => .error e
  | .ok none => .error (.accountNotFound address)
  | .ok (some key) => .ok key

/-- Resolving a key: the entry at hand comes first, and it is dropped if it is expired. -/
def resolved (now : Instant) (address : Address) (password : Option String) (share : Share) :
    Except AccountError KeyPair × Share :=
  (match UnlockRegistry.unexpired now share.unlock, password.filter (· ≠ "") with
    | some entry, _ => .ok entry.key
    | none, some given => share.decrypted address given
    | none, none => .error (if share.unlock.isSome then .unlockExpired address else .locked address),
  ⟨share.keyfile, UnlockRegistry.unexpired now share.unlock⟩)

/-- A signature with the key that is resolved. -/
def signed (signer : Signer) (now : Instant) (address : Address) (password : Option String)
    (message : Bytes) (hashFirst : Bool) (share : Share) : Except AccountError Signature × Share :=
  ((share.resolved now address password).1.bind fun key => signer.sign message key hashFirst,
    (share.resolved now address password).2)

/-- The same with the answer handed on. -/
def handOn (f : α → β) (result : Except AccountError α × Share) : Except AccountError β × Share :=
  (result.1.map f, result.2)

end Share

/-! ## Operations that act on one share -/

namespace SessionAction

section
variable {α β : Type} {place : Place} {address : Address} {x : SessionAction Disk α}
  {session : Session Disk} {result : Except AccountError α × Share}

/-- The operation answers and leaves of the account what is given, and all else is as before. -/
structure Local (place : Place) (address : Address) (x : SessionAction Disk α) (session : Session Disk)
    (result : Except AccountError α × Share) : Prop where
  answer_eq : answer x session = result.1
  share_eq : (leaves x session).share place address = result.2
  files_kept : ∀ other ≠ entryName address :: place,
    (leaves x session).traced.files.get? other = session.traced.files.get? other
  unlocked_kept : ∀ other ≠ address,
    (leaves x session).unlocked.entries.get? other = session.unlocked.entries.get? other

/-- What is there of other accounts is as before. -/
theorem Local.share_of_ne (h : Local place address x session result) {other : Address}
    (hne : other ≠ address) : (leaves x session).share place other = session.share place other := by
  rw [Session.share, h.files_kept _ (Keyfile.entryName_cons_ne hne place), h.unlocked_kept _ hne,
    Session.share]

/-- What is at each place after the operation. -/
theorem Local.get?_files (h : Local place address x session result) (other : Place) :
    (leaves x session).traced.files.get? other =
      if other = entryName address :: place then result.2.keyfile
      else session.traced.files.get? other := by
  split
  · next heq =>
    rw [heq, ← h.share_eq]
    rfl
  · next hne => exact h.files_kept other hne

/-- What is at hand for each account after the operation. -/
theorem Local.get?_unlocked (h : Local place address x session result) (other : Address) :
    (leaves x session).unlocked.entries.get? other =
      if other = address then result.2.unlock else session.unlocked.entries.get? other := by
  split
  · next heq =>
    rw [heq, ← h.share_eq]
    rfl
  · next hne => exact h.unlocked_kept other hne

/-- What is worked out from an answer acts on the same share. -/
theorem Local.map (h : Local place address x session result) (f : α → β) :
    Local place address (f <$> x) session (Share.handOn f result) := by
  refine ⟨by rw [answer_map, h.answer_eq, Share.handOn], ?_, ?_, ?_⟩
  · rw [leaves_map, h.share_eq, Share.handOn]
  · rw [leaves_map]
    exact h.files_kept
  · rw [leaves_map]
    exact h.unlocked_kept

/-- What is worked out from the answer changes nothing more. -/
theorem Local.bind {f : α → SessionAction Disk β} {g : α → Except AccountError β}
    (h : Local place address x session result)
    (hf : ∀ a after, answer (f a) after = g a ∧ leaves (f a) after = after) :
    Local place address (x >>= f) session (result.1.bind g, result.2) := by
  have hleaves : leaves (x >>= f) session = leaves x session := by
    cases hanswer : answer x session with
    | error e => rw [leaves_bind_error hanswer]
    | ok a => rw [leaves_bind_ok hanswer, (hf a _).2]
  refine ⟨?_, by rw [hleaves, h.share_eq], by rw [hleaves]; exact h.files_kept,
    by rw [hleaves]; exact h.unlocked_kept⟩
  rw [← h.answer_eq]
  cases hanswer : answer x session with
  | error e =>
    rw [answer_bind_error hanswer]
    rfl
  | ok a =>
    rw [answer_bind_ok hanswer, (hf a _).1]
    rfl

/-- An operation that does nothing. -/
theorem Local.of_leaves_eq (hanswer : answer x session = result.1) (hleaves : leaves x session = session)
    (hshare : result.2 = session.share place address) : Local place address x session result :=
  ⟨hanswer, by rw [hleaves, hshare], fun _ _ => by rw [hleaves], fun _ _ => by rw [hleaves]⟩

/-- An operation whose effect on the directory is local, and that does to the unlocked accounts nothing but to
the one. -/
theorem HasEffect.toLocal {effect : Effect α} {left : Except AccountError α × Option Node}
    (heffect : HasEffect x session effect)
    (hlocal : Directory.Local place address session.traced.files effect left) {unlock : Option Unlock}
    (hunlocked : ∀ other, (leaves x session).unlocked.entries.get? other =
      if other = address then unlock else session.unlocked.entries.get? other) :
    Local place address x session (left.1, ⟨left.2, unlock⟩) := by
  obtain ⟨hanswer, hfiles⟩ := heffect
  refine ⟨hanswer.trans hlocal.answer_eq, ?_, fun other hother => ?_, fun other hother => ?_⟩
  · rw [Session.share, hfiles, hlocal.left_eq, hunlocked, if_pos rfl]
  · rw [hfiles, hlocal.kept other hother]
  · rw [hunlocked, if_neg hother]

/-- An operation that keeps the unlocked accounts. -/
theorem HasEffect.toLocal_of_keeps {effect : Effect α} {left : Except AccountError α × Option Node}
    (heffect : HasEffect x session effect)
    (hlocal : Directory.Local place address session.traced.files effect left)
    (hkeeps : (leaves x session).unlocked = session.unlocked) :
    Local place address x session (left.1, ⟨left.2, (session.share place address).unlock⟩) := by
  refine heffect.toLocal hlocal fun other => ?_
  rw [hkeeps]
  split
  · next heq => rw [heq, Session.share]
  · rfl

end

end SessionAction

/-! ## What each operation does to a share -/

namespace Manager

open SessionAction (Local HasEffect onFiles)

variable {directory : Directory} {iterations : UInt32} {signer : Signer} {place : Place}
  {ledger : Ledger} {session : Session Disk}

/-- Creating an account does something to its keyfile alone. -/
theorem local_create (h : Agrees directory iterations place ledger session.traced.files) (key : KeyPair)
    (password : String) (fresh : Seal) :
    Local place key.address ((directory.manager iterations signer).create key password fresh) session
      ((session.share place key.address).onKeyfile
        (directory.persistedAt iterations key password fresh)) :=
  (hasEffect_create directory iterations signer session key password fresh).toLocal_of_keeps
    (Directory.local_persisted iterations h.leads key password fresh) (KeepsUnlocked.onFiles _ session)

/-- So does importing a key pair. -/
theorem local_importKey (h : Agrees directory iterations place ledger session.traced.files) (key : KeyPair)
    (password : String) (fresh : Seal) :
    Local place key.address
      (onFiles ((directory.manager iterations signer).keystore.importKey key password fresh)) session
      ((session.share place key.address).onKeyfile
        (directory.importedAt iterations key password fresh)) :=
  (hasEffect_importKey h.leads key password fresh).toLocal_of_keeps
    (h.local_imported key password fresh) (KeepsUnlocked.onFiles _ session)

/-- So does setting a new password. -/
theorem local_update (h : Agrees directory iterations place ledger session.traced.files)
    (address : Address) (password newPassword : String) (fresh : Seal) :
    Local place address ((directory.manager iterations signer).update address password newPassword fresh)
      session
      ((session.share place address).onKeyfile
        (Directory.updatedAt iterations password newPassword fresh)) :=
  (hasEffect_update h.leads address password newPassword fresh).toLocal_of_keeps
    (h.local_updated address password newPassword fresh) (KeepsUnlocked.onFiles _ session)

/-- Deleting an account does something to its keyfile, and locks it. -/
theorem local_delete (h : Agrees directory iterations place ledger session.traced.files) (now : Instant)
    (address : Address) :
    Local place address ((directory.manager iterations signer).delete now address) session
      (session.share place address).deleted := by
  have heffect : HasEffect ((directory.manager iterations signer).delete now address) session _ :=
    hasEffect_delete now h.leads address
  have hlocal := h.local_deleted address
  have hanswer : answer ((directory.manager iterations signer).keystore.delete address) session.traced =
      .ok (session.share place address).keyfile.isSome := by
    rw [← answer_delete _ session now, heffect.1, hlocal.answer_eq]
    rfl
  refine heffect.toLocal hlocal fun other => ?_
  rw [leaves_delete, hanswer]
  cases (session.share place address).keyfile.isSome with
  | true => exact UnlockRegistry.get?_remove _ now address other
  | false =>
    by_cases heq : other = address
    · rw [heq, if_pos rfl]
      rfl
    · rw [if_neg heq]
      rfl

/-- Loading an account looks at its keyfile alone. -/
theorem hasEffect_load (signer : Signer)
    (h : Agrees directory iterations place ledger session.traced.files) (address : Address)
    (password : String) :
    HasEffect (onFiles ((directory.manager iterations signer).keystore.load address password)) session
      (loadedFrom (session.share place address).keyfile password, session.traced.files) := by
  rw [Session.share, ← h.loaded_eq]
  exact SessionAction.hasEffect_onFiles (Directory.yields_load h.leads address password)

/-- Exporting a key looks at its account's keyfile alone. -/
theorem local_exportKey (h : Agrees directory iterations place ledger session.traced.files)
    (address : Address) (password : String) :
    Local place address ((directory.manager iterations signer).exportKey address password) session
      ((session.share place address).onSight (loadedFrom · password)) :=
  HasEffect.toLocal_of_keeps (hasEffect_load signer h address password) (.same rfl _)
    (KeepsUnlocked.onFiles _ session)

/-- So does telling whether an account is managed. -/
theorem local_isManaged (h : Agrees directory iterations place ledger session.traced.files)
    (address : Address) :
    Local place address ((directory.manager iterations signer).isManaged address) session
      ((session.share place address).onSight fun keyfile => .ok keyfile.isSome) := by
  have hmanaged : HasEffect ((directory.manager iterations signer).isManaged address) session (_, _) :=
    SessionAction.hasEffect_onFiles (Directory.yields_isManaged h.leads address)
  have hsome : (!(Directory.keyfiles session.traced.files place address).isEmpty) =
      (session.share place address).keyfile.isSome := by
    rw [h.keyfiles_eq, Session.share]
    cases (session.traced.files.get? (entryName address :: place)).isSome <;> rfl
  rw [hsome] at hmanaged
  exact hmanaged.toLocal_of_keeps (.same rfl _) (KeepsUnlocked.onFiles _ session)

/-- Unlocking an account opens its keyfile and puts the key at hand. -/
theorem local_unlock (h : Agrees directory iterations place ledger session.traced.files) (now : Instant)
    (address : Address) (password : String) (timeout : Option Duration) :
    Local place address ((directory.manager iterations signer).unlock now address password timeout) session
      ((session.share place address).unlocked now password timeout) := by
  have hload := hasEffect_load signer h address password
  have hanswer := hload.1
  rw [SessionAction.answer_onFiles] at hanswer
  unfold Share.unlocked
  cases hloaded : loadedFrom (session.share place address).keyfile password with
  | error e =>
    rw [hloaded] at hload hanswer
    obtain ⟨-, hunlocked⟩ := unlock_of_not_ok now timeout fun key hkey => by
      rw [hanswer] at hkey
      cases hkey
    exact HasEffect.toLocal_of_keeps hload.bind_error (.same rfl _) hunlocked
  | ok found =>
    rw [hloaded] at hload hanswer
    cases found with
    | none =>
      obtain ⟨-, hunlocked⟩ := unlock_of_not_ok now timeout fun key hkey => by
        rw [hanswer] at hkey
        cases hkey
      refine HasEffect.toLocal_of_keeps (hload.bind fun after hafter => ?_) (.same rfl _) hunlocked
      exact hafter ▸ SessionAction.hasEffect_pure false after
    | some key =>
      obtain ⟨-, hunlocked⟩ := unlock_ok now timeout hanswer
      have heffect : HasEffect ((directory.manager iterations signer).unlock now address password timeout)
          session (.ok true, session.traced.files) :=
        hload.bind fun after hafter => hafter ▸ SessionAction.hasEffect_onUnlocked _ after
      refine heffect.toLocal (.same rfl _) fun other => ?_
      rw [hunlocked]
      exact UnlockRegistry.get?_insert ..

/-- Locking an account drops its entry at hand alone. -/
theorem local_lock (session : Session Disk) (place : Place) (now : Instant) (address : Address) :
    Local place address (Manager.lock now address) session
      ((session.share place address).locked now) :=
  HasEffect.toLocal (SessionAction.hasEffect_onUnlocked _ session) (.same rfl _) fun other =>
    UnlockRegistry.get?_remove _ now address other

/-- Telling whether an account is unlocked looks at its entry at hand alone. -/
theorem local_isUnlocked (session : Session Disk) (place : Place) (now : Instant) (address : Address) :
    Local place address (Manager.isUnlocked now address) session
      (.ok ((session.share place address).isUnlocked now), session.share place address) :=
  .of_leaves_eq rfl rfl rfl

/-- Decrypting looks at the account's keyfile alone. -/
theorem decrypted_share (h : Agrees directory iterations place ledger session.traced.files)
    (address : Address) (password : String) :
    directory.decrypted session.traced.files address password =
      (session.share place address).decrypted address password := by
  rw [Directory.decrypted_eq, Directory.fetched_eq h.leads, h.loaded_eq]
  rfl

/-- Resolving a key looks at the account's share alone. -/
theorem resolved_share (h : Agrees directory iterations place ledger session.traced.files) (now : Instant)
    (address : Address) (password : Option String) :
    (directory.resolved session.traced.files session.unlocked now address password).1 =
      ((session.share place address).resolved now address password).1 := by
  have hentry : (session.share place address).unlock = session.unlocked.entries.get? address := rfl
  unfold Share.resolved UnlockRegistry.unexpired
  rw [hentry]
  rcases Directory.without_or_with password with hnone | ⟨given, hgiven, rfl⟩
  · have hfilter : password.filter (· ≠ "") = none := by
      rcases hnone with rfl | rfl <;> rfl
    rw [Directory.resolved_without hnone, hfilter, UnlockRegistry.atHand]
    cases session.unlocked.entries.get? address with
    | none => rfl
    | some entry => cases hexpired : entry.isExpired now <;> simp [hexpired, Option.filter]
  · have hfilter : (some given).filter (· ≠ "") = some given := by simp [hgiven]
    rw [Directory.resolved_with hgiven, hfilter, Directory.byPassword, decrypted_share h]
    cases session.unlocked.entries.get? address with
    | none => rfl
    | some entry => cases hexpired : entry.isExpired now <;> simp [hexpired, Option.filter]

/-- Resolving a key looks at its account's share alone, and drops an entry that is expired. -/
theorem local_resolveKey (h : Agrees directory iterations place ledger session.traced.files) (now : Instant)
    (address : Address) (password : Option String) :
    Local place address ((directory.manager iterations signer).resolveKey now address password) session
      ((session.share place address).resolved now address password) := by
  have heffect := hasEffect_resolveKey directory iterations signer session now address password
  rw [resolved_share h] at heffect
  refine heffect.toLocal (.same rfl _) fun other => ?_
  rw [unlocked_resolveKey, UnlockRegistry.get?_lookup]
  split
  · next heq => rw [heq, Session.share]
  · rfl

/-- A signature is made with the key that is resolved. -/
theorem local_sign (h : Agrees directory iterations place ledger session.traced.files) (now : Instant)
    (address : Address) (password : Option String) (message : Bytes) (hashFirst : Bool) :
    Local place address
      ((directory.manager iterations signer).sign now address password message hashFirst) session
      ((session.share place address).signed signer now address password message hashFirst) := by
  refine (local_resolveKey h now address password).bind fun key after => ?_
  have hsigner : (directory.manager iterations signer).signer = signer := rfl
  rw [hsigner]
  cases signer.sign message key hashFirst with
  | ok sig => exact ⟨rfl, rfl⟩
  | error cause => exact ⟨rfl, rfl⟩

end Manager

/-! ## Calls about one account -/

/-- The call is about the account: it names the account, or what it keeps is a key pair of the account, if
anything. -/
def Call.Concerns (address : Address) : Call → Prop
  | create key .. => key.address = address
  | importKeyfile content password .. =>
    ∀ key, Keyfile.decode content password = .ok key → key.address = address
  | importFile disk path password .. =>
    ∀ content key, disk.read path = .ok content → Keyfile.decode content password = .ok key →
      key.address = address
  | importSecret secret .. => ∀ key, KeyPair.ofText? secret = some key → key.address = address
  | isManaged other | delete other | update other .. | exportKey other _ | unlock other .. | lock other
  | isUnlocked other | resolveKey other _ | signMessage other .. | signTransaction other .. =>
    other = address
  | list | unlockedAccounts | purgeExpired => False

namespace Manager

open SessionAction (Local onFiles)

/-- An operation is told by a function of the account's share, wherever the directory agrees with a ledger. -/
def ActsBy {α : Type} (directory : Directory) (iterations : UInt32) (place : Place) (address : Address)
    (x : SessionAction Disk α) (step : Share → Except AccountError α × Share) : Prop :=
  ∀ (session : Session Disk) (ledger : Ledger),
    Agrees directory iterations place ledger session.traced.files →
      Local place address x session (step (session.share place address))

variable {directory : Directory} {iterations : UInt32} {signer : Signer} {place : Place}

/-- What is worked out from an answer acts by the same function of the share. -/
theorem ActsBy.map {α β : Type} {address : Address} {x : SessionAction Disk α}
    {step : Share → Except AccountError α × Share} (h : ActsBy directory iterations place address x step)
    (f : α → β) :
    ActsBy directory iterations place address (f <$> x) fun share => Share.handOn f (step share) :=
  fun session ledger hagrees => (h session ledger hagrees).map f

/-- An operation that only fails. -/
theorem actsBy_throw {α : Type} (address : Address) (e : AccountError) :
    ActsBy directory iterations place address (throw e : SessionAction Disk α) fun share =>
      (.error e, share) :=
  fun _ _ _ => .of_leaves_eq rfl rfl rfl

/-- Signing looks at the signer's share alone. -/
theorem actsBy_sign (now : Instant) (address : Address) (password : Option String) (message : Bytes)
    (hashFirst : Bool) :
    ActsBy directory iterations place address
      ((directory.manager iterations signer).sign now address password message hashFirst)
      (Share.signed signer now address password message hashFirst) :=
  fun _ _ hagrees => local_sign hagrees now address password message hashFirst

/-- Importing someone's keyfile acts on the account of the key pair in it. -/
theorem exists_step_importKeyfile {address : Address} {content : Bytes} {password : String}
    (haddress : ∀ key, Keyfile.decode content password = .ok key → key.address = address)
    (newPassword : String) (fresh : Seal) :
    ∃ step, ActsBy directory iterations place address
      ((directory.manager iterations signer).importKeyfile content password newPassword fresh) step := by
  unfold importKeyfile Keystore.importKeyfile
  cases hdecode : Keyfile.decode content password with
  | error cause => exact ⟨_, actsBy_throw address (.invalidCredentials cause)⟩
  | ok key =>
    obtain rfl := haddress key hdecode
    exact ⟨_, fun session ledger hagrees => local_importKey hagrees key newPassword fresh⟩

/-- A call that is about an account acts on the account's share alone. -/
theorem exists_step (directory : Directory) (iterations : UInt32) (signer : Signer) (place : Place)
    (now : Instant) {call : Call} {address : Address} (h : call.Concerns address) :
    ∃ step, ActsBy directory iterations place address
      ((directory.manager iterations signer).perform now call) step := by
  have hmap {α : Type} {x : SessionAction Disk α} (f : α → Answer)
      (hx : ∃ step, ActsBy directory iterations place address x step) :
      ∃ step, ActsBy directory iterations place address (f <$> x) step :=
    let ⟨_, hstep⟩ := hx
    ⟨_, hstep.map f⟩
  cases call with
  | create key password fresh =>
    obtain rfl := h
    exact hmap _ ⟨_, fun session ledger hagrees => local_create hagrees key password fresh⟩
  | importKeyfile content password newPassword fresh =>
    exact hmap _ (exists_step_importKeyfile h newPassword fresh)
  | importFile disk path password newPassword fresh =>
    refine hmap _ ?_
    unfold importFile
    cases hread : disk.read path with
    | error source => exact ⟨_, actsBy_throw address (.io path source)⟩
    | ok content => exact exists_step_importKeyfile (fun key => h content key hread) newPassword fresh
  | importSecret secret password fresh =>
    refine hmap _ ?_
    unfold importSecret
    cases hkey : KeyPair.ofText? secret with
    | none => exact ⟨_, actsBy_throw address .invalidPrivateKey⟩
    | some key =>
      obtain rfl := h key hkey
      exact ⟨_, fun session ledger hagrees => local_importKey hagrees key password fresh⟩
  | isManaged other =>
    obtain rfl := h
    exact hmap _ ⟨_, fun session ledger hagrees => local_isManaged hagrees other⟩
  | delete other =>
    obtain rfl := h
    exact hmap _ ⟨_, fun session ledger hagrees => local_delete hagrees now other⟩
  | update other password newPassword fresh =>
    obtain rfl := h
    exact hmap _ ⟨_, fun session ledger hagrees => local_update hagrees other password newPassword fresh⟩
  | exportKey other password =>
    obtain rfl := h
    exact hmap _ ⟨_, fun session ledger hagrees => local_exportKey hagrees other password⟩
  | unlock other password timeout =>
    obtain rfl := h
    exact hmap _ ⟨_, fun session ledger hagrees => local_unlock hagrees now other password timeout⟩
  | lock other =>
    obtain rfl := h
    exact hmap _ ⟨_, fun session ledger hagrees => local_lock session place now other⟩
  | isUnlocked other =>
    obtain rfl := h
    exact hmap _ ⟨fun share => (.ok (share.isUnlocked now), share),
      fun session ledger hagrees => local_isUnlocked session place now other⟩
  | resolveKey other password =>
    obtain rfl := h
    exact hmap _ ⟨_, fun session ledger hagrees => local_resolveKey hagrees now other password⟩
  | signMessage other password message hashFirst =>
    obtain rfl := h
    exact hmap _ ⟨_, (actsBy_sign now other password message hashFirst).map fun sig =>
      "0x" ++ Hex.text sig.toBytes⟩
  | signTransaction other password tx =>
    obtain rfl := h
    exact hmap _ ⟨_, (actsBy_sign now other password tx.digest.toBytes false).map tx.signed⟩
  | list | unlockedAccounts | purgeExpired => exact h.elim

end Manager

end Keyring
