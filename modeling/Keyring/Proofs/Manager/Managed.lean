import Keyring.Proofs.Manager.Stored
import Keyring.Proofs.Unlock.Timeline

/-!
# Unlocked accounts are managed

The unlocked accounts and the directory are kept apart, and no call checks one against the other. What ties
them together is the ledger of a run: every entry at hand is for an account of the ledger (`Managed`). An
unlock puts an entry there only after it loaded a keyfile; an account leaves the ledger only when it is
deleted, and then its entry goes too (`managed_take`). So whatever is at hand after a run that nobody
disturbs is for an account that is listed (`Manager.managed_of_unlocked`).
-/

namespace Keyring

open Keyfile (addressIn?)

/-- Every entry at hand, expired or not, is for an account of the ledger. -/
def Managed (ledger : Ledger) (registry : UnlockRegistry) : Prop :=
  ∀ address unlock, registry.entries.get? address = some unlock → ledger.get? address ≠ none

/-- Where nothing is at hand, all that is at hand is managed. -/
theorem managed_empty : Managed .empty .empty := by
  intro address unlock hsome
  cases hsome

namespace Manager

variable {directory : Directory} {iterations : UInt32} {signer : Signer} {place : Place}
  {ledger : Ledger} {session : Session Disk}

/-- A key pair is loaded only for an account of the ledger. -/
theorem get?_ne_none_of_load (h : Agrees directory iterations place ledger session.traced.files)
    {address : Address} {password : String} {key : KeyPair}
    (hload : answer ((directory.manager iterations signer).keystore.load address password)
      session.traced = .ok (some key)) : ledger.get? address ≠ none := by
  intro hnone
  have hnothing : answer ((directory.manager iterations signer).exportKey address password) session = _ :=
    answer_exportKey h.leads address password
  rw [h.loaded_none hnone, exportKey, SessionAction.answer_onFiles, hload] at hnothing
  cases hnothing

/-- A call before which nobody changed the directory keeps what is at hand among the ledger's accounts. -/
theorem managed_take (h : Agrees directory iterations place ledger session.traced.files)
    (hmanaged : Managed ledger session.unlocked) {turn : Turn Disk} (houtside : turn.outside = id)
    {e : Entry Disk} (he : e = (directory.manager iterations signer).take session turn) :
    Managed (ledger.follow e.call e.reply) e.after.unlocked := by
  intro address unlock hsome
  have hbefore : e.before = session := by
    rw [he, take, houtside]
    rfl
  have hstep := (settles_take (directory.manager iterations signer) session turn address).step
  rw [← he] at hstep
  rcases hstep.of_eq_some hsome with ⟨password, timeout, hcall, -, hload, -⟩ | ⟨hentry, -, hrevokes⟩
  · have hchanges : e.call.changesFiles = false := by
      rw [hcall]
      rfl
    rw [Ledger.follow_of_not_changesFiles ledger hchanges]
    rw [hbefore] at hload
    exact get?_ne_none_of_load h hload
  · rw [hbefore] at hentry
    have hledger : ledger.get? address ≠ none := hmanaged address unlock hentry
    have hkept : ¬ e.Deletes address := fun hdeletes => hrevokes (.inr hdeletes)
    exact (Ledger.get?_follow he ledger address).2 (.inr ⟨hledger, hkept⟩)

/-- What is at hand after a run that nobody disturbed is for accounts of the ledger that followed it. -/
theorem managed_final (h : Agrees directory iterations place ledger session.traced.files)
    (hmanaged : Managed ledger session.unlocked) {turns : List (Turn Disk)}
    (houtside : ∀ turn ∈ turns, turn.outside = id) :
    Managed
      (((directory.manager iterations signer).history session turns).foldl
        (fun ledger e => ledger.follow e.call e.reply) ledger)
      ((directory.manager iterations signer).final session turns).unlocked := by
  induction turns generalizing ledger session with
  | nil => exact hmanaged
  | cons turn turns ih =>
    have hid : turn.outside = id := houtside _ List.mem_cons_self
    have hlater : ∀ other ∈ turns, other.outside = id := fun other hother =>
      houtside other (List.mem_cons_of_mem _ hother)
    obtain ⟨outside, now, call⟩ := turn
    cases hid
    rw [history, final, List.foldl_cons]
    exact ih (agrees_perform h now call) (managed_take h hmanaged rfl rfl) hlater

/-- After a run that starts without keyfiles and that nobody disturbs, a ledger agrees with the directory,
and what is at hand is for its accounts. -/
theorem exists_ledger {disk : Disk} (hleads : disk.LeadsTo directory.path place)
    (hempty : ∀ name ∈ disk.names place, addressIn? name = none) (events : List Event)
    {turns : List (Turn Disk)} (houtside : ∀ turn ∈ turns, turn.outside = id) {session : Session Disk}
    (hsession : session = (directory.manager iterations signer).final (.opened ⟨disk, events⟩) turns) :
    ∃ ledger, Agrees directory iterations place ledger session.traced.files ∧
      Managed ledger session.unlocked := by
  subst hsession
  have h : Agrees directory iterations place .empty
      (Session.opened ⟨disk, events⟩ : Session Disk).traced.files := agrees_empty hleads hempty
  exact ⟨_, agrees_final h houtside, managed_final h managed_empty houtside⟩

/-! ## What is found -/

/-- An account of the ledger is managed. -/
theorem answer_isManaged_of_agrees (h : Agrees directory iterations place ledger session.traced.files)
    {address : Address} (hledger : ledger.get? address ≠ none) :
    answer ((directory.manager iterations signer).isManaged address) session = .ok true := by
  obtain ⟨holding, hholding⟩ := Option.ne_none_iff_exists'.1 hledger
  rw [answer_isManaged h.leads, h.keyfiles_eq_singleton hholding]
  rfl

/-- In a run that starts without keyfiles and that nobody disturbs, each entry at hand, expired or not, holds
a key pair of its account, and the account is managed and listed. So the unlocked accounts are at all times
those that are listed with some left out. -/
theorem managed_of_unlocked (directory : Directory) (iterations : UInt32) (signer : Signer) {disk : Disk}
    {place : Place} (hleads : disk.LeadsTo directory.path place)
    (hempty : ∀ name ∈ disk.names place, addressIn? name = none) (events : List Event)
    {turns : List (Turn Disk)} (houtside : ∀ turn ∈ turns, turn.outside = id)
    {manager : Manager Disk} (hmanager : manager = directory.manager iterations signer)
    {session : Session Disk} (hsession : session = manager.final (.opened ⟨disk, events⟩) turns) :
    (∀ address unlock, session.unlocked.entries.get? address = some unlock →
      unlock.key.address = address ∧
      answer (manager.isManaged address) session = .ok true ∧
      ∃ listed, answer manager.list session = .ok listed ∧ address ∈ listed) ∧
    ∀ now, ∃ unlocked listed, answer (unlockedAccounts now) session = .ok unlocked ∧
      answer manager.list session = .ok listed ∧ unlocked.Sublist listed := by
  subst hmanager
  have hown : session.unlocked.Own := by
    rw [hsession]
    refine (own_history (fun address unlock hsome => ?_) fun e he address _ =>
      faithful_history hleads hempty houtside events e he address).2
    cases hsome
  obtain ⟨ledger, hagrees, hmanaged⟩ := exists_ledger hleads hempty events houtside hsession
  have hlist : answer (directory.manager iterations signer).list session = .ok ledger.addresses :=
    answer_list hagrees
  have hlisted {address : Address} {unlock : Unlock}
      (hsome : session.unlocked.entries.get? address = some unlock) : address ∈ ledger.addresses :=
    AddressMap.mem_addresses_iff.2 (Option.ne_none_iff_exists'.1 (hmanaged address unlock hsome))
  refine ⟨fun address unlock hsome => ?_, fun now => ⟨_, _, rfl, hlist, ?_⟩⟩
  · have hkept : answer ((directory.manager iterations signer).isManaged address) session = .ok true :=
      answer_isManaged_of_agrees hagrees (hmanaged address unlock hsome)
    exact ⟨hown address unlock hsome, hkept, _, hlist, hlisted hsome⟩
  · refine Address.sublist_of_ascending (UnlockRegistry.ascending_unlockedAddresses _ now)
      (List.pairwise_map.2 ledger.ascending) fun address hmem => ?_
    rw [UnlockRegistry.mem_unlockedAddresses_iff, UnlockRegistry.isUnlocked_iff] at hmem
    obtain ⟨unlock, hsome, -⟩ := hmem
    exact hlisted hsome

/-! ### An account that is unlocked in the sample directory -/

/-- Creating an account and unlocking it for good. -/
def unlocking (key : KeyPair) (password : String) : List (Turn Disk) :=
  [⟨id, 0, .create key password .zero⟩, ⟨id, 0, .unlock key.address password none⟩]

/-- The session after this in the sample directory. -/
def unlockedSample (key : KeyPair) (password : String) : Session Disk :=
  (Directory.sample.manager 1 .ecdsa).final (.opened ⟨.sample, []⟩) (unlocking key password)

/-- Nobody else changes the directory in between. -/
theorem outside_unlocking (key : KeyPair) (password : String) :
    ∀ turn ∈ unlocking key password, turn.outside = id := by
  simp [unlocking]

/-- The directory then agrees with a ledger, and what is at hand is managed. -/
theorem exists_ledger_unlockedSample (key : KeyPair) (password : String) :
    ∃ ledger, Agrees Directory.sample 1 [[0x6b]] ledger (unlockedSample key password).traced.files ∧
      Managed ledger (unlockedSample key password).unlocked := by
  have hnames := Disk.names_sample
  exact exists_ledger Disk.sample_leadsTo (by rw [hnames]; exact List.forall_mem_nil _) []
    (outside_unlocking key password) rfl

/-- Where the password of a keyfile loads its key pair, unlocking puts it at hand. -/
theorem unlocked_take_unlock {σ : Type} {manager : Manager σ} {session : Session σ} {address : Address}
    {password : String} {key : KeyPair} (now : Instant) (timeout : Option Duration)
    (hload : answer (manager.keystore.load address password) session.traced = .ok (some key)) :
    (manager.take session ⟨id, now, .unlock address password timeout⟩).after.unlocked =
      session.unlocked.insert now address key timeout := by
  obtain ⟨-, hunlocked⟩ := unlock_ok now timeout hload
  rw [take_undisturbed, perform, leaves_map, hunlocked]

/-- The account has its key at hand. -/
theorem get?_unlockedSample (key : KeyPair) (password : String) :
    (unlockedSample key password).unlocked.entries.get? key.address = some ⟨key, none⟩ := by
  have hload := exportKey_create_sample 1 key password .zero password
  have hcreated : ((Directory.sample.manager 1 .ecdsa).take (.opened ⟨.sample, []⟩)
      ⟨id, 0, .create key password .zero⟩).after =
        leaves ((Directory.sample.manager 1 .ecdsa).create key password .zero)
          (.opened ⟨.sample, []⟩) := by
    rw [take_undisturbed, perform, leaves_map]
  rw [Keyfile.decode_encode key password .zero (show Keyfile.Opens 1 by decide), exportKey,
    SessionAction.answer_onFiles, ← hcreated] at hload
  rw [unlockedSample, unlocking, final, final, final, unlocked_take_unlock 0 none hload,
    UnlockRegistry.get?_insert, if_pos rfl]
  rfl

/-- It is managed, and the key is its own. -/
theorem managed_of_unlocked_sample :
    (unlockedSample .one "p").unlocked.entries.get? KeyPair.one.address = some ⟨.one, none⟩ ∧
      answer ((Directory.sample.manager 1 .ecdsa).isManaged KeyPair.one.address)
        (unlockedSample .one "p") = .ok true := by
  have hthere := get?_unlockedSample .one "p"
  have hnames := Disk.names_sample
  have hsession : unlockedSample .one "p" = (Directory.sample.manager 1 .ecdsa).final
      (.opened ⟨.sample, []⟩) (unlocking .one "p") := rfl
  obtain ⟨hentries, -⟩ := managed_of_unlocked Directory.sample 1 .ecdsa Disk.sample_leadsTo
    (by rw [hnames]; exact List.forall_mem_nil _) [] (outside_unlocking .one "p") rfl hsession
  obtain ⟨-, hmanaged, -⟩ := hentries _ _ hthere
  exact ⟨hthere, hmanaged⟩

end Manager

end Keyring
