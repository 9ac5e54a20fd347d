import Keyring.Proofs.Manager.Alone
import Keyring.Proofs.Manager.Managed

/-!
# Calls about different accounts commute

All calls work on one directory and one registry. After a run that starts without keyfiles and that nobody
disturbs, names and contents agree, so that a call about one account acts on that account's share alone
(`Manager.exists_step`), and it leaves names and contents in agreement. Two calls about different accounts are
therefore told by the same two functions of the same two shares in either order (`Manager.calls_commute`).
-/

namespace Keyring

open Keyfile (addressIn? entryName)

namespace SessionAction

variable {α β : Type} {place : Place} {a b : Address} {x : SessionAction Disk α} {y : SessionAction Disk β}
  {session : Session Disk} {result : Except AccountError α × Share} {other : Except AccountError β × Share}

/-- What is left by two operations on different accounts does not depend on their order, if each does to its
account what it does alone. -/
theorem Local.leaves_comm (hne : a ≠ b) (hx : Local place a x session result)
    (hy : Local place b y session other) (hx' : Local place a x (leaves y session) result)
    (hy' : Local place b y (leaves x session) other) :
    (∀ here, (leaves y (leaves x session)).traced.files.get? here =
      (leaves x (leaves y session)).traced.files.get? here) ∧
    (leaves y (leaves x session)).unlocked = (leaves x (leaves y session)).unlocked := by
  have hplace := Keyfile.entryName_cons_ne hne place
  -- In either order there is, at each place, what the operation left there whose account has it.
  constructor
  · intro here
    rw [hy'.get?_files, hx.get?_files, hx'.get?_files, hy.get?_files]
    by_cases ha : here = entryName a :: place
    · have hb : here ≠ entryName b :: place := ha ▸ hplace
      rw [if_neg hb, if_pos ha, if_pos ha]
    · rw [if_neg ha, if_neg ha]
  · refine congrArg UnlockRegistry.mk (AddressMap.ext_get? fun here => ?_)
    rw [hy'.get?_unlocked, hx.get?_unlocked, hx'.get?_unlocked, hy.get?_unlocked]
    by_cases ha : here = a
    · have hb : here ≠ b := ha ▸ hne
      rw [if_neg hb, if_pos ha, if_pos ha]
    · rw [if_neg ha, if_neg ha]

end SessionAction

namespace Manager

variable {directory : Directory} {iterations : UInt32} {signer : Signer} {place : Place}
  {ledger : Ledger} {session : Session Disk}

/-- A call about an account acts after a call about another one as it acts alone. -/
theorem local_after {first second : Call} {a b : Address} {now : Instant}
    {step other : Share → Except AccountError Answer × Share}
    (h : Agrees directory iterations place ledger session.traced.files) (hne : a ≠ b)
    (hfirst : ActsBy directory iterations place a
      ((directory.manager iterations signer).perform now first) step)
    (hsecond : ActsBy directory iterations place b
      ((directory.manager iterations signer).perform now second) other) :
    SessionAction.Local place b ((directory.manager iterations signer).perform now second)
      (leaves ((directory.manager iterations signer).perform now first) session)
      (other (session.share place b)) := by
  rw [← (hfirst session ledger h).share_of_ne hne.symm]
  exact hsecond _ _ (agrees_perform h now first)

/-- After a run that starts without keyfiles and that nobody disturbs, calls about different accounts commute:
made in either order at one instant each answers the same, and the same is left at every place and for every
account at hand. It does not matter whether they succeed. -/
theorem calls_commute (directory : Directory) (iterations : UInt32) (signer : Signer) {disk : Disk}
    {place : Place} (hleads : disk.LeadsTo directory.path place)
    (hempty : ∀ name ∈ disk.names place, addressIn? name = none) (events : List Event)
    {turns : List (Turn Disk)} (houtside : ∀ turn ∈ turns, turn.outside = id)
    {manager : Manager Disk} (hmanager : manager = directory.manager iterations signer)
    {session : Session Disk} (hsession : session = manager.final (.opened ⟨disk, events⟩) turns)
    (now : Instant) {first second : Call} {a b : Address} (hfirst : first.Concerns a)
    (hsecond : second.Concerns b) (hne : a ≠ b) :
    answer (manager.perform now second) (leaves (manager.perform now first) session) =
      answer (manager.perform now second) session ∧
    answer (manager.perform now first) (leaves (manager.perform now second) session) =
      answer (manager.perform now first) session ∧
    (∀ here,
      (leaves (manager.perform now second)
        (leaves (manager.perform now first) session)).traced.files.get? here =
      (leaves (manager.perform now first)
        (leaves (manager.perform now second) session)).traced.files.get? here) ∧
    (leaves (manager.perform now second) (leaves (manager.perform now first) session)).unlocked =
      (leaves (manager.perform now first) (leaves (manager.perform now second) session)).unlocked := by
  subst hmanager
  obtain ⟨ledger, hagrees, -⟩ := exists_ledger hleads hempty events houtside hsession
  obtain ⟨step, hstep⟩ := exists_step directory iterations signer place now hfirst
  obtain ⟨other, hother⟩ := exists_step directory iterations signer place now hsecond
  have hx := hstep session ledger hagrees
  have hy := hother session ledger hagrees
  have hx' := local_after hagrees hne.symm hother hstep
  have hy' := local_after hagrees hne hstep hother
  exact ⟨hy'.answer_eq.trans hy.answer_eq.symm, hx'.answer_eq.trans hx.answer_eq.symm,
    hx.leaves_comm hne hy hx' hy'⟩

/-- The account that is unlocked in the sample directory is all that is kept there. -/
theorem agrees_unlockedSample (key : KeyPair) (password : String) :
    Agrees Directory.sample 1 [[0x6b]] (Ledger.keep .empty key.address key password)
      (unlockedSample key password).traced.files := by
  have hleads := Disk.sample_leadsTo
  have hnames := Disk.names_sample
  unfold unlockedSample
  generalize Disk.sample = disk at hleads hnames ⊢
  have hempty : Agrees Directory.sample 1 [[0x6b]] .empty disk := by
    refine agrees_empty hleads fun name hname => ?_
    rw [hnames] at hname
    cases hname
  have hopened : Agrees Directory.sample 1 [[0x6b]] .empty
      (Session.opened ⟨disk, []⟩ : Session Disk).traced.files := hempty
  have hcreated := agrees_of_answer hopened (answer_create_of_agrees .ecdsa 0 hopened
    Directory.hasRoom_sample (AddressMap.get?_empty key.address) password .zero)
  simp only [unlocking, final, take_undisturbed]
  generalize leaves ((Directory.sample.manager 1 .ecdsa).perform 0 (.create key password .zero)) _ =
    created at hcreated ⊢
  -- Unlocking changes no file.
  have hunlock : (Call.unlock key.address password none).changesFiles = false := rfl
  rw [keepsFiles_perform hcreated.leads 0 hunlock created rfl]
  exact hcreated

/-- An account whose key is at hand is deleted and another one is created. Both are done, whichever comes
first, and the same is left. -/
theorem calls_commute_sample : ∃ create delete : SessionAction Disk Answer,
    create = (Directory.sample.manager 1 .ecdsa).perform 1 (.create .two "r" .zero) ∧
    delete = (Directory.sample.manager 1 .ecdsa).perform 1 (.delete KeyPair.one.address) ∧
    answer create (unlockedSample .one "p") = .ok (.created KeyPair.two.address) ∧
    answer create (leaves delete (unlockedSample .one "p")) = .ok (.created KeyPair.two.address) ∧
    answer delete (unlockedSample .one "p") = .ok (.told true) ∧
    answer delete (leaves create (unlockedSample .one "p")) = .ok (.told true) ∧
    (∀ here, (leaves create (leaves delete (unlockedSample .one "p"))).traced.files.get? here =
      (leaves delete (leaves create (unlockedSample .one "p"))).traced.files.get? here) ∧
    (leaves create (leaves delete (unlockedSample .one "p"))).unlocked =
      (leaves delete (leaves create (unlockedSample .one "p"))).unlocked := by
  have hnames := Disk.names_sample
  have hsession : unlockedSample .one "p" = (Directory.sample.manager 1 .ecdsa).final
      (.opened ⟨.sample, []⟩) (unlocking .one "p") := rfl
  have hagrees := agrees_unlockedSample .one "p"
  have hne := KeyPair.address_two_ne
  have houtside := outside_unlocking .one "p"
  have hempty : ∀ name ∈ Disk.sample.names [[0x6b]], addressIn? name = none := by
    rw [hnames]
    exact List.forall_mem_nil _
  generalize unlockedSample .one "p" = session at hsession hagrees ⊢
  generalize KeyPair.one = key at hsession hagrees hne houtside ⊢
  generalize KeyPair.two = other at hne ⊢
  have hfree : (Ledger.keep .empty key.address key "p").get? other.address = none := by
    simp [Ledger.keep, hne]
  have hkept : (Ledger.keep .empty key.address key "p").get? key.address ≠ none := by
    simp [Ledger.keep]
  have hcreated := answer_create_of_agrees .ecdsa 1 hagrees Directory.hasRoom_sample hfree "r" .zero
  have hdeleted := answer_delete_of_agrees .ecdsa 1 hagrees hkept
  have hcreate : (Call.create other "r" .zero).Concerns other.address := rfl
  have hdelete : (Call.delete key.address).Concerns key.address := rfl
  obtain ⟨hafter, hbefore, hfiles, hunlocked⟩ := calls_commute Directory.sample 1 .ecdsa
    Disk.sample_leadsTo hempty [] houtside rfl hsession 1 hdelete hcreate hne.symm
  exact ⟨_, _, rfl, rfl, hcreated, hafter.trans hcreated, hdeleted, hbefore.trans hdeleted, hfiles, hunlocked⟩

end Manager

end Keyring
