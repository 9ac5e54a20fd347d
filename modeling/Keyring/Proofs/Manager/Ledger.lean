import Mathlib.Data.List.Induction
import Keyring.Proofs.Keystore.Alone
import Keyring.Proofs.Manager.Files

/-!
# The store after a run

A ledger follows a run by its calls and their replies alone (`Ledger.ofRun`). If nobody else touches the
directory, it agrees with the ledger after every call (`agrees_final`), so that the ledger tells what is
listed, which passwords open an account and what they open it to (`Manager.store_of_run`).
-/

namespace Keyring

open Keyfile (addressIn? entryName)

/-! ## Following a run -/

/-- The key pair that a call keeps if it succeeds, and its password. -/
def Call.kept? : Call → Option (KeyPair × String)
  | create key password _ => some (key, password)
  | importSecret secret password _ => (KeyPair.ofText? secret).map fun key => (key, password)
  | importKeyfile content password newPassword _ =>
    (Keyfile.decode content password).toOption.map fun key => (key, newPassword)
  | importFile disk path password newPassword _ =>
    (disk.read path).toOption.bind fun content =>
      (Keyfile.decode content password).toOption.map fun key => (key, newPassword)
  | _ => none

/-- A call that tells that it kept an account, or that there is one already, has a key pair to keep. -/
theorem Manager.exists_kept {σ : Type} {manager : Manager σ} {session : Session σ} {now : Instant}
    {call : Call}
    (hreply : (∃ address, answer (manager.perform now call) session = .ok (.created address)) ∨
      ∃ found, answer (manager.perform now call) session = .ok (.imported found)) :
    ∃ key password, call.kept? = some (key, password) := by
  obtain ⟨reported, hreported⟩ : ∃ reported, answer (manager.perform now call) session = .ok reported :=
    hreply.elim (fun ⟨_, h⟩ => ⟨_, h⟩) fun ⟨_, h⟩ => ⟨_, h⟩
  cases call with
  | create key password fresh => exact ⟨key, password, rfl⟩
  | importSecret secret given fresh =>
    cases hkey : KeyPair.ofText? secret with
    | some key => exact ⟨key, given, by rw [Call.kept?, hkey]; rfl⟩
    | none =>
      rw [perform, importSecret, hkey] at hreported
      obtain ⟨found, ⟨⟩, -⟩ := of_answer_map hreported
  | importKeyfile content given newPassword fresh =>
    cases hdecode : Keyfile.decode content given with
    | ok key => exact ⟨key, newPassword, by rw [Call.kept?, hdecode]; rfl⟩
    | error cause =>
      rw [perform, importKeyfile, Keystore.importKeyfile, hdecode] at hreported
      obtain ⟨found, ⟨⟩, -⟩ := of_answer_map hreported
  | importFile disk path given newPassword fresh =>
    cases hread : disk.read path with
    | error e =>
      rw [perform, importFile, hread] at hreported
      obtain ⟨found, ⟨⟩, -⟩ := of_answer_map hreported
    | ok content =>
      cases hdecode : Keyfile.decode content given with
      | ok key =>
        refine ⟨key, newPassword, ?_⟩
        simp only [Call.kept?, hread, Except.toOption, Option.bind_some, hdecode, Option.map_some]
      | error cause =>
        rw [perform, importFile, hread] at hreported
        simp only [importKeyfile, Keystore.importKeyfile, hdecode] at hreported
        obtain ⟨found, ⟨⟩, -⟩ := of_answer_map hreported
  -- The other calls answer something else.
  | _ =>
    rw [perform] at hreply
    rcases hreply with ⟨address, hreply⟩ | ⟨found, hreply⟩
    · obtain ⟨other, -, ⟨⟩⟩ := of_answer_map hreply
    · obtain ⟨other, -, ⟨⟩⟩ := of_answer_map hreply

namespace Entry

variable {σ : Type} (e : Entry σ) (address : Address)

/-- The account was created or imported. -/
def Keeps : Prop :=
  e.reply = .ok (.created address) ∨ e.reply = .ok (.imported (some address))

/-- The account was deleted. -/
def Deletes : Prop :=
  e.call = .delete address ∧ e.reply = .ok (.told true)

end Entry

namespace Ledger

variable {σ : Type}

/-- Follows a call and its reply: an account is kept once it is created or imported, gets the password
that it is updated to, and goes when it is deleted. -/
def follow (ledger : Ledger) (call : Call) : Except AccountError Answer → Ledger
  | .ok (.created address) | .ok (.imported (some address)) =>
    match call.kept? with
    | some (key, password) => ledger.keep address key password
    | none => ledger
  | .ok (.told true) =>
    match call with
    | .update address password newPassword _ => ledger.setPassword address password newPassword
    | .delete address => ledger.erase address
    | _ => ledger
  | _ => ledger

/-- Nothing happens to an account in a call that is not meant to change files. -/
theorem follow_of_not_changesFiles (ledger : Ledger) {call : Call} (h : call.changesFiles = false)
    (reply : Except AccountError Answer) : ledger.follow call reply = ledger := by
  have hkept : call.kept? = none := by cases call <;> first | rfl | cases h
  unfold follow
  split
  · rw [hkept]
  · rw [hkept]
  · cases call <;> first | rfl | cases h
  · rfl

/-- The ledger of a run that starts without accounts. -/
def ofRun (entries : List (Entry σ)) : Ledger :=
  entries.foldl (fun ledger e => ledger.follow e.call e.reply) .empty

/-- An account is kept after it was kept, and others as before. -/
theorem get?_keep (ledger : Ledger) (a b : Address) (key : KeyPair) (password : String) :
    (ledger.keep a key password).get? b ≠ none ↔ b = a ∨ ledger.get? b ≠ none := by
  rw [keep, AddressMap.get?_insert]
  by_cases h : b = a
  · simp [h]
  · simp [h]

/-- Setting a password keeps and drops no account. -/
theorem get?_setPassword (ledger : Ledger) (a b : Address) (password newPassword : String) :
    (ledger.setPassword a password newPassword).get? b ≠ none ↔ ledger.get? b ≠ none := by
  unfold setPassword
  cases hholding : ledger.get? a with
  | none => exact Iff.rfl
  | some holding =>
    rw [AddressMap.get?_insert]
    by_cases h : b = a
    · simp [h, hholding]
    · simp [h]

/-- An account is in the ledger after a call that keeps it, and else if it was before and the call does not
delete it. -/
theorem get?_follow {manager : Manager σ} {session : Session σ} {turn : Turn σ} {e : Entry σ}
    (he : e = manager.take session turn) (ledger : Ledger) (address : Address) :
    (ledger.follow e.call e.reply).get? address ≠ none ↔
      e.Keeps address ∨ ledger.get? address ≠ none ∧ ¬ e.Deletes address := by
  obtain ⟨hanswer, -⟩ := Manager.of_eq_take he
  have hkept {kept : Address} (h : e.Keeps kept) : ∃ key password, e.call.kept? = some (key, password) := by
    unfold Entry.Keeps at h
    rw [hanswer] at h
    exact Manager.exists_kept (h.imp (⟨kept, ·⟩) (⟨some kept, ·⟩))
  unfold Entry.Keeps at hkept ⊢
  unfold follow Entry.Deletes
  split
  · next kept hreply =>
    obtain ⟨key, password, hcall⟩ := hkept (.inl hreply)
    rw [hcall, hreply]
    simp only [get?_keep]
    simp [eq_comm]
  · next kept hreply =>
    obtain ⟨key, password, hcall⟩ := hkept (.inr hreply)
    rw [hcall, hreply]
    simp only [get?_keep]
    simp [eq_comm]
  · next hreply =>
    rw [hreply]
    split
    · next changed password newPassword fresh hcall =>
      rw [hcall, get?_setPassword]
      simp
    · next deleted hcall =>
      rw [hcall, AddressMap.get?_erase]
      by_cases h : address = deleted
      · simp [h]
      · simp [h, eq_comm]
    · next hupdate hdelete =>
      constructor
      · exact fun h => .inr ⟨h, fun hdeletes => hdelete address hdeletes.1⟩
      · rintro ((h | h) | ⟨h, -⟩)
        · cases h
        · cases h
        · exact h
  · next hcreated himported htold =>
    constructor
    · exact fun h => .inr ⟨h, fun hdeletes => htold hdeletes.2⟩
    · rintro ((h | h) | ⟨h, -⟩)
      · exact absurd h (hcreated address)
      · exact absurd h (himported address)
      · exact h

/-- The accounts of the ledger are those that were created or imported and not deleted since. -/
theorem mem_addresses_ofRun (manager : Manager σ) (traced : Traced σ) (turns : List (Turn σ))
    (address : Address) :
    address ∈ (ofRun (manager.history (.opened traced) turns)).addresses ↔
      ∃ earlier e later, manager.history (.opened traced) turns = earlier ++ e :: later ∧
        e.Keeps address ∧ ∀ other ∈ later, ¬ other.Deletes address := by
  have hget : (ofRun (manager.history (.opened traced) turns)).get? address ≠ none ↔
      ∃ earlier e later, manager.history (.opened traced) turns = earlier ++ e :: later ∧
        e.Keeps address ∧ ∀ other ∈ later, ¬ other.Deletes address := by
    induction turns using List.reverseRecOn with
    | nil =>
      constructor
      · intro h
        exact absurd (AddressMap.get?_empty address) h
      · rintro ⟨earlier, e, later, h, -⟩
        cases earlier <;> cases h
    | append_singleton turns turn ih =>
      rw [Manager.history_concat, Manager.exists_last_concat_iff, ← ih, ofRun, List.foldl_append,
        List.foldl_cons, List.foldl_nil]
      exact get?_follow rfl _ address
  rw [AddressMap.mem_addresses_iff, ← hget, Option.ne_none_iff_exists']

end Ledger

namespace Manager

variable {directory : Directory} {iterations : UInt32} {signer : Signer} {place : Place}
  {ledger : Ledger} {session : Session Disk}

/-- Creating an account keeps the agreement. -/
theorem agrees_create (h : Agrees directory iterations place ledger session.traced.files)
    (key : KeyPair) (password : String) (fresh : Seal) :
    Agrees directory iterations place
      (ledger.follow (.create key password fresh)
        ((directory.persisted iterations session.traced.files key password fresh).1.map .created))
      (directory.persisted iterations session.traced.files key password fresh).2 := by
  rcases h.persisted key password fresh with ⟨disk', hresult, hagrees⟩ | ⟨e, hresult⟩
  · rw [hresult]
    exact hagrees
  · rw [hresult]
    exact h

/-- Importing a key pair keeps the agreement, whichever call it is done by. -/
theorem agrees_import (h : Agrees directory iterations place ledger session.traced.files)
    {call : Call} {key : KeyPair} {password : String} (fresh : Seal)
    (hkept : call.kept? = some (key, password)) :
    Agrees directory iterations place
      (ledger.follow call
        ((directory.imported iterations session.traced.files place key password fresh).1.map .imported))
      (directory.imported iterations session.traced.files place key password fresh).2 := by
  rcases h.imported key password fresh with ⟨disk', hresult, hagrees⟩ | hresult | ⟨e, hresult⟩
  · have hfollow : ledger.follow call (.ok (.imported (some key.address))) =
        ledger.keep key.address key password := by
      rw [Ledger.follow, hkept]
    rw [hresult]
    exact hfollow ▸ hagrees
  · rw [hresult]
    exact h
  · rw [hresult]
    exact h

/-- Deleting an account keeps the agreement. -/
theorem agrees_delete (h : Agrees directory iterations place ledger session.traced.files)
    (address : Address) :
    Agrees directory iterations place
      (ledger.follow (.delete address)
        ((directory.deleted session.traced.files place address).1.map .told))
      (directory.deleted session.traced.files place address).2 := by
  rcases h.deleted address with ⟨-, hresult⟩ | ⟨disk', hresult, hagrees⟩
  · rw [hresult]
    exact h
  · rw [hresult]
    exact hagrees

/-- Setting a new password keeps the agreement. -/
theorem agrees_update (h : Agrees directory iterations place ledger session.traced.files)
    (address : Address) (password newPassword : String) (fresh : Seal) :
    Agrees directory iterations place
      (ledger.follow (.update address password newPassword fresh)
        ((directory.updated iterations session.traced.files place address password newPassword
          fresh).1.map .told))
      (directory.updated iterations session.traced.files place address password newPassword fresh).2 := by
  rcases h.updated address password newPassword fresh with
    ⟨disk', hresult, hagrees⟩ | hresult | ⟨e, hresult⟩
  · rw [hresult]
    exact hagrees
  · rw [hresult]
    exact h
  · rw [hresult]
    exact h

/-- What agrees with the effect of an operation agrees with the operation. -/
theorem agrees_of_effect {α : Type} {x : SessionAction Disk α} {effect : Effect α} {call : Call}
    (heffect : SessionAction.HasEffect x session effect) (f : α → Answer)
    (h : Agrees directory iterations place (ledger.follow call (effect.1.map f)) effect.2) :
    Agrees directory iterations place
      (ledger.follow call (answer (f <$> x : SessionAction Disk Answer) session))
      (leaves (f <$> x : SessionAction Disk Answer) session).traced.files := by
  obtain ⟨hanswer, hfiles⟩ := heffect.map f
  rw [hanswer, hfiles]
  exact h

/-- A call keeps the directory in agreement with the ledger that follows it. -/
theorem agrees_perform (h : Agrees directory iterations place ledger session.traced.files)
    (now : Instant) (call : Call) :
    Agrees directory iterations place
      (ledger.follow call (answer ((directory.manager iterations signer).perform now call) session))
      (leaves ((directory.manager iterations signer).perform now call) session).traced.files := by
  have hleads := h.leads
  cases hchanges : call.changesFiles with
  | false =>
    rw [Ledger.follow_of_not_changesFiles ledger hchanges,
      keepsFiles_perform hleads now hchanges session rfl]
    exact h
  | true =>
    cases call with
    | create key password fresh =>
      rw [perform]
      refine agrees_of_effect (hasEffect_create _ _ _ _ key password fresh) .created ?_
      exact agrees_create h key password fresh
    | delete address =>
      rw [perform]
      refine agrees_of_effect (hasEffect_delete now hleads address) .told ?_
      exact agrees_delete h address
    | update address password newPassword fresh =>
      rw [perform]
      refine agrees_of_effect (hasEffect_update hleads address password newPassword fresh) .told ?_
      exact agrees_update h address password newPassword fresh
    | importKeyfile content password newPassword fresh =>
      rw [perform]
      refine agrees_of_effect (hasEffect_importKeyfile hleads content password newPassword fresh)
        .imported ?_
      cases hdecode : Keyfile.decode content password with
      | ok key => exact agrees_import h fresh (by rw [Call.kept?, hdecode]; rfl)
      | error cause => exact h
    | importFile disk path password newPassword fresh =>
      rw [perform, importFile]
      cases hread : disk.read path with
      | error e => exact agrees_of_effect (SessionAction.hasEffect_throw _ session) .imported h
      | ok content =>
        refine agrees_of_effect (hasEffect_importKeyfile hleads content password newPassword fresh)
          .imported ?_
        cases hdecode : Keyfile.decode content password with
        | ok key =>
          refine agrees_import h fresh ?_
          rw [Call.kept?, hread]
          simp only [Except.toOption, Option.bind_some, hdecode, Option.map_some]
        | error cause => exact h
    | importSecret secret password fresh =>
      rw [perform, importSecret]
      cases hkey : KeyPair.ofText? secret with
      | none => exact agrees_of_effect (SessionAction.hasEffect_throw _ session) .imported h
      | some key =>
        refine agrees_of_effect (hasEffect_importKey hleads key password fresh) .imported ?_
        exact agrees_import h fresh (by rw [Call.kept?, hkey]; rfl)
    | _ => cases hchanges

/-- After a call whose answer is known the directory agrees with the ledger that follows that answer. -/
theorem agrees_of_answer (h : Agrees directory iterations place ledger session.traced.files)
    {now : Instant} {call : Call} {reply : Except AccountError Answer}
    (hreply : answer ((directory.manager iterations signer).perform now call) session = reply) :
    Agrees directory iterations place (ledger.follow call reply)
      (leaves ((directory.manager iterations signer).perform now call) session).traced.files :=
  hreply ▸ agrees_perform h now call

/-- The ledger that follows a run agrees with the directory after it, if nobody else changed the
directory. -/
theorem agrees_final (h : Agrees directory iterations place ledger session.traced.files)
    {turns : List (Turn Disk)} (houtside : ∀ turn ∈ turns, turn.outside = id) :
    Agrees directory iterations place
      (((directory.manager iterations signer).history session turns).foldl
        (fun ledger e => ledger.follow e.call e.reply) ledger)
      ((directory.manager iterations signer).final session turns).traced.files := by
  induction turns generalizing ledger session with
  | nil => exact h
  | cons turn turns ih =>
    obtain ⟨outside, now, call⟩ := turn
    have hid : outside = id := houtside _ List.mem_cons_self
    subst hid
    rw [history, final, List.foldl_cons]
    exact ih (agrees_perform h now call)
      fun other hother => houtside other (List.mem_cons_of_mem _ hother)

/-- Every call of a run that nobody disturbs finds the directory in agreement with some ledger. -/
theorem agrees_history (h : Agrees directory iterations place ledger session.traced.files)
    {turns : List (Turn Disk)} (houtside : ∀ turn ∈ turns, turn.outside = id) :
    ∀ e ∈ (directory.manager iterations signer).history session turns,
      ∃ ledger, Agrees directory iterations place ledger e.before.traced.files := by
  induction turns generalizing ledger session with
  | nil => exact fun e he => absurd he List.not_mem_nil
  | cons turn turns ih =>
    obtain ⟨outside, now, call⟩ := turn
    have hid : outside = id := houtside _ List.mem_cons_self
    subst hid
    intro e he
    rw [history] at he
    rcases List.mem_cons.1 he with rfl | he
    · exact ⟨ledger, h⟩
    · exact ih (agrees_perform h now call)
        (fun other hother => houtside other (List.mem_cons_of_mem _ hother)) e he

/-- A directory without keyfiles agrees with the ledger without accounts. -/
theorem agrees_empty {disk : Disk} (hleads : disk.LeadsTo directory.path place)
    (hempty : ∀ name ∈ disk.names place, addressIn? name = none) :
    Agrees directory iterations place .empty disk where
  leads := hleads
  listed := by
    intro name address htells hthere
    rw [hempty name (Disk.mem_names_iff.2 hthere)] at htells
    cases htells
  sealed := by
    intro address holding hholding
    rw [AddressMap.get?_empty] at hholding
    cases hholding
  room := by
    intro address holding hholding
    rw [AddressMap.get?_empty] at hholding
    cases hholding

/-! ## Calls that succeed -/

section
variable (signer) (now : Instant)

/-- An account outside the ledger is created, if the paths of keyfiles are short enough. -/
theorem answer_create_of_agrees (h : Agrees directory iterations place ledger session.traced.files)
    (hroom : directory.HasRoom) {key : KeyPair} (hnone : ledger.get? key.address = none)
    (password : String) (fresh : Seal) :
    answer ((directory.manager iterations signer).perform now (.create key password fresh)) session =
      .ok (.created key.address) := by
  obtain ⟨mode, hlocate⟩ := h.leads
  have hcheck := hroom.checkPath (Disk.locate_ok hlocate).2.1 (Keyfile.addressIn?_entryName key.address)
  have hfree : session.traced.files.get? (entryName key.address :: place) = none := by
    rcases h.keyfile_cases key.address with ⟨-, hfree⟩ | ⟨holding, -, -, -, hsome, -⟩
    · exact hfree
    · rw [hnone] at hsome
      cases hsome
  obtain ⟨hanswer, -⟩ :=
    (hasEffect_create directory iterations signer session key password fresh).map Answer.created
  rw [perform, hanswer, Directory.persisted_eq iterations h.leads key password fresh hcheck hfree]
  rfl

/-- An account of the ledger is given a new password with its password. -/
theorem answer_update_of_agrees (hopens : Keyfile.Opens iterations)
    (h : Agrees directory iterations place ledger session.traced.files) {address : Address}
    {holding : Holding} (hholding : ledger.get? address = some holding) (newPassword : String)
    (fresh : Seal) :
    answer ((directory.manager iterations signer).perform now
      (.update address holding.password newPassword fresh)) session = .ok (.told true) := by
  obtain ⟨key, sealing, mode, hfile, -⟩ := h.sealed hholding
  have hupdated := (h.local_updated address holding.password newPassword fresh).answer_eq
  rw [hfile, Directory.updatedAt, loadedFrom, Keyfile.decode_encode key holding.password sealing hopens]
    at hupdated
  obtain ⟨hanswer, -⟩ := (hasEffect_update h.leads address holding.password newPassword fresh).map
    Answer.told
  rw [perform, hanswer, hupdated]
  rfl

/-- An account of the ledger is deleted. -/
theorem answer_delete_of_agrees (h : Agrees directory iterations place ledger session.traced.files)
    {address : Address} (hledger : ledger.get? address ≠ none) :
    answer ((directory.manager iterations signer).perform now (.delete address)) session =
      .ok (.told true) := by
  obtain ⟨hanswer, -⟩ := (hasEffect_delete now h.leads address).map Answer.told
  rcases h.deleted address with ⟨hnone, -⟩ | ⟨disk, hdeleted, -⟩
  · exact absurd hnone hledger
  · rw [perform, hanswer, hdeleted]
    rfl

end

/-! ## What is found after a run -/

section
variable {holding : Holding} {address : Address}

/-- The accounts of the ledger are those that are listed. -/
theorem answer_list (h : Agrees directory iterations place ledger session.traced.files) :
    answer (directory.manager iterations signer).list session = .ok ledger.addresses := by
  rw [← h.listed_eq]
  exact SessionAction.answer_of_yields (Directory.yields_list h.leads)

/-- Exporting a key loads it from the account's keyfile. -/
theorem answer_exportKey (h : session.traced.files.LeadsTo directory.path place) (address : Address)
    (password : String) :
    answer ((directory.manager iterations signer).exportKey address password) session =
      directory.loaded session.traced.files place address password :=
  SessionAction.answer_of_yields (Directory.yields_load h address password)

/-- An account of the ledger is loaded with its password, and with another one only if that has the
same code. -/
theorem exportKey_holding (hopens : Keyfile.Opens iterations)
    (h : Agrees directory iterations place ledger session.traced.files)
    (hholding : ledger.get? address = some holding) :
    ∃ key fresh, key.address = address ∧ (holding.faithful = true → key = holding.key) ∧
      answer ((directory.manager iterations signer).exportKey address holding.password) session =
        .ok (some key) ∧
      ∀ other,
        (∃ cause, answer ((directory.manager iterations signer).exportKey address other) session =
          .error (.invalidCredentials cause)) ∨
        ∃ found, answer ((directory.manager iterations signer).exportKey address other) session =
            .ok (some found) ∧
          found.address = address ∧ Keyfile.SameCode key holding.password other iterations fresh := by
  obtain ⟨key, fresh, haddress, hkey, hloaded⟩ := h.loaded_some hholding
  have hanswer (password : String) :
      answer ((directory.manager iterations signer).exportKey address password) session =
        ((Keyfile.decode (Keyfile.encode key holding.password iterations fresh) password).mapError
          .invalidCredentials).map some := by
    rw [answer_exportKey h.leads, hloaded]
  refine ⟨key, fresh, haddress, hkey, ?_, fun other => ?_⟩
  · rw [hanswer, Keyfile.decode_encode key holding.password fresh hopens]
    rfl
  · rw [hanswer]
    cases hdecode : Keyfile.decode (Keyfile.encode key holding.password iterations fresh) other with
    | error cause => exact .inl ⟨cause, rfl⟩
    | ok found =>
      obtain ⟨hfound, hcode⟩ := Keyfile.of_decode_encode hdecode
      exact .inr ⟨found, rfl, hfound.trans haddress, hcode⟩

end

/-- A run that starts without keyfiles and that nobody disturbs ends with one keyfile, under its own name,
for each account that was created or imported and not deleted since; these accounts are listed in
ascending order. The password that was set last loads a key pair of the account: the one that was kept, if
every new password was given with the one before it. Any other password is refused, unless its code over
the encrypted secret is the one in the keyfile, and even then it loads no key pair of another account. -/
theorem store_of_run (directory : Directory) {iterations : UInt32} (signer : Signer)
    (hopens : 0 < iterations.toNat ∧ iterations.toNat ≤ Keyfile.maxIterations) {disk : Disk}
    {place : Place} (hleads : disk.LeadsTo directory.path place)
    (hempty : ∀ name ∈ disk.names place, addressIn? name = none) (events : List Event)
    {turns : List (Turn Disk)} (houtside : ∀ turn ∈ turns, turn.outside = id)
    {manager : Manager Disk} (hmanager : manager = directory.manager iterations signer)
    {session : Session Disk} (hsession : session = manager.final (.opened ⟨disk, events⟩) turns)
    {ledger : Ledger}
    (hledger : ledger = .ofRun (manager.history (.opened ⟨disk, events⟩) turns)) :
    (∀ name ∈ session.traced.files.names place, ∀ address, addressIn? name = some address →
      name = entryName address ∧ ∃ mode content,
        session.traced.files.get? (name :: place) = some (.file mode content)) ∧
    answer manager.list session = .ok ledger.addresses ∧
    (ledger.addresses.Pairwise fun a b => Address.before a b = true) ∧
    (∀ address, address ∈ ledger.addresses ↔
      ∃ earlier e later, manager.history (.opened ⟨disk, events⟩) turns = earlier ++ e :: later ∧
        e.Keeps address ∧ ∀ other ∈ later, ¬ other.Deletes address) ∧
    (∀ address, ledger.get? address = none → ∀ password,
      answer (manager.exportKey address password) session = .ok none) ∧
    ∀ address holding, ledger.get? address = some holding →
      ∃ key fresh, key.address = address ∧ (holding.faithful = true → key = holding.key) ∧
        answer (manager.exportKey address holding.password) session = .ok (some key) ∧
        ∀ other,
          (∃ cause, answer (manager.exportKey address other) session =
            .error (.invalidCredentials cause)) ∨
          ∃ found, answer (manager.exportKey address other) session = .ok (some found) ∧
            found.address = address ∧
            Keyfile.SameCode key holding.password other iterations fresh := by
  subst hmanager hsession hledger
  have hempty : Agrees directory iterations place .empty disk := agrees_empty hleads hempty
  have h : Agrees directory iterations place
      (.ofRun ((directory.manager iterations signer).history (.opened ⟨disk, events⟩) turns))
      ((directory.manager iterations signer).final (.opened ⟨disk, events⟩) turns).traced.files :=
    agrees_final hempty houtside
  have hmem := Ledger.mem_addresses_ofRun (directory.manager iterations signer) ⟨disk, events⟩ turns
  generalize (directory.manager iterations signer).final _ turns = session at h ⊢
  generalize Ledger.ofRun _ = ledger at h hmem ⊢
  refine ⟨fun name hname address htells => ?_, answer_list h, ?_, hmem, fun address hnone password => ?_,
    fun address holding hholding => exportKey_holding hopens h hholding⟩
  · obtain ⟨rfl, hledger⟩ := h.listed htells (Disk.mem_names_iff.1 hname)
    obtain ⟨holding, hholding⟩ := Option.ne_none_iff_exists'.1 hledger
    obtain ⟨key, fresh, mode, hfile, -⟩ := h.sealed hholding
    exact ⟨rfl, mode, _, hfile⟩
  · exact List.pairwise_map.2 ledger.ascending
  · rw [answer_exportKey h.leads, h.loaded_none hnone]

/-- Creating two accounts, setting a new password for the first one and deleting the other. -/
def changing (key other : KeyPair) : List (Turn Disk) :=
  [⟨id, 0, .create key "p" .zero⟩, ⟨id, 0, .create other "r" .zero⟩,
    ⟨id, 1, .update key.address "p" "q" .zero⟩, ⟨id, 2, .delete other.address⟩]

/-- The ledger after this has the first account with the new password. -/
theorem ofRun_changing {disk : Disk} (hempty : Agrees Directory.sample 1 place .empty disk)
    {key other : KeyPair} (hne : other.address ≠ key.address) :
    Ledger.ofRun ((Directory.sample.manager 1 .ecdsa).history (.opened ⟨disk, []⟩) (changing key other)) =
      AddressMap.insert .empty key.address ⟨key, "q", true⟩ := by
  have hroom := Directory.hasRoom_sample
  have h₀ : Agrees Directory.sample 1 place .empty
      (Session.opened ⟨disk, []⟩ : Session Disk).traced.files := hempty
  have hfirst := answer_create_of_agrees .ecdsa 0 h₀ hroom (AddressMap.get?_empty key.address) "p" .zero
  have h₁ := agrees_of_answer h₀ hfirst
  have hnone : (Ledger.keep .empty key.address key "p").get? other.address = none := by
    simp [Ledger.keep, hne]
  have hsecond := answer_create_of_agrees .ecdsa 0 h₁ hroom hnone "r" .zero
  have h₂ := agrees_of_answer h₁ hsecond
  have hheld : ((Ledger.keep .empty key.address key "p").keep other.address other "r").get? key.address =
      some ⟨key, "p", true⟩ := by
    simp [Ledger.keep, Ne.symm hne]
  have hthird := answer_update_of_agrees .ecdsa 1 (by decide) h₂ hheld "q" .zero
  have h₃ := agrees_of_answer h₂ hthird
  have hkept : (((Ledger.keep .empty key.address key "p").keep other.address other "r").setPassword
      key.address "p" "q").get? other.address ≠ none := by
    simp [Ledger.get?_setPassword, Ledger.get?_keep]
  have hfourth := answer_delete_of_agrees .ecdsa 2 h₃ hkept
  have hreplies : Ledger.ofRun ((Directory.sample.manager 1 .ecdsa).history (.opened ⟨disk, []⟩)
      (changing key other)) =
        (((Ledger.keep .empty key.address key "p").keep other.address other "r").setPassword
          key.address "p" "q").erase other.address := by
    simp only [changing, Ledger.ofRun, history, take_undisturbed, List.foldl_cons, List.foldl_nil, hfirst,
      hsecond, hthird, hfourth]
    rfl
  rw [hreplies, Ledger.setPassword, hheld]
  refine AddressMap.ext_get? fun a => ?_
  simp only [Ledger.keep, AddressMap.get?_erase, AddressMap.get?_insert, AddressMap.get?_empty]
  by_cases hother : a = other.address
  · rw [hother, if_pos rfl, if_neg hne]
  · rw [if_neg hother, if_neg hother]
    by_cases hkey : a = key.address <;> simp [hkey]

/-- Of the two accounts that were created the one that was not deleted is left, with its new password. -/
theorem store_of_run_changing :
    answer (Directory.sample.manager 1 .ecdsa).list ((Directory.sample.manager 1 .ecdsa).final
        (.opened ⟨.sample, []⟩) (changing .one .two)) = .ok [KeyPair.one.address] ∧
      answer ((Directory.sample.manager 1 .ecdsa).exportKey KeyPair.one.address "q")
        ((Directory.sample.manager 1 .ecdsa).final (.opened ⟨.sample, []⟩) (changing .one .two)) =
          .ok (some .one) ∧
      answer ((Directory.sample.manager 1 .ecdsa).exportKey KeyPair.two.address "r")
        ((Directory.sample.manager 1 .ecdsa).final (.opened ⟨.sample, []⟩) (changing .one .two)) =
          .ok none := by
  have hleads := Disk.sample_leadsTo
  have hnames := Disk.names_sample
  have hne := KeyPair.address_two_ne
  -- The key pairs and the disk stay closed terms that nothing is to compute with.
  generalize KeyPair.one = key at hne ⊢
  generalize KeyPair.two = other at hne ⊢
  generalize Disk.sample = disk at hleads hnames ⊢
  have hempty : ∀ name ∈ disk.names [[0x6b]], addressIn? name = none := by
    rw [hnames]
    exact List.forall_mem_nil _
  have hledger := ofRun_changing (agrees_empty hleads hempty) hne
  have hopens : 0 < (1 : UInt32).toNat ∧ (1 : UInt32).toNat ≤ Keyfile.maxIterations := by decide
  have houtside : ∀ turn ∈ changing key other, turn.outside = id := by simp [changing]
  obtain ⟨-, hlist, -, -, hunknown, hload⟩ := store_of_run Directory.sample .ecdsa hopens hleads hempty []
    houtside rfl rfl hledger.symm
  obtain ⟨found, -, -, hfound, hexport, -⟩ := hload key.address ⟨key, "q", true⟩ (by simp)
  rw [hfound rfl] at hexport
  exact ⟨hlist, hexport, hunknown other.address (by simp [hne]) "r"⟩

end Manager

end Keyring
