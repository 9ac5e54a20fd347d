import Keyring.Proofs.Manager.Managed

/-!
# Unlocked accounts that are deleted

Deleting an account locks it only if a keyfile of it was found. The keyfiles and the unlocked accounts are
kept apart, so that a key may be at hand whose keyfile others removed; deleting the account then tells that
there was none and leaves the key at hand. So an account is locked after it was deleted exactly if a keyfile
was found or nothing was at hand (`Manager.locked_after_delete_iff`). While nobody else touches the directory,
one of the two is always so (`Manager.found_or_locked`).
-/

namespace Keyring

open Keyfile (addressIn? entryName)

namespace Manager

section
variable {σ : Type} {manager : Manager σ} {session : Session σ} {now : Instant} {address : Address}

/-! ## What is answered for an account -/

/-- Telling whether an account is unlocked answers what the registry tells. -/
theorem answer_isUnlocked (session : Session σ) (now : Instant) (address : Address) :
    answer (isUnlocked now address) session = .ok (session.unlocked.isUnlocked now address) :=
  rfl

/-- Nothing is at hand for an account that has no entry. -/
theorem answers_of_none (manager : Manager σ) (h : session.unlocked.entries.get? address = none)
    (now : Instant) :
    answer (isUnlocked now address) session = .ok false ∧
      ∀ password, password = none ∨ password = some "" →
        answer (manager.resolveKey now address password) session = .error (.locked address) := by
  constructor
  · rw [answer_isUnlocked, UnlockRegistry.isUnlocked, h]
    rfl
  · intro password hpassword
    rw [answer_resolveKey hpassword, UnlockRegistry.lookup, h]

/-- An account that has an entry is unlocked until the deadline. -/
theorem answers_of_some (manager : Manager σ) {unlock : Unlock}
    (h : session.unlocked.entries.get? address = some unlock) (now : Instant) :
    answer (isUnlocked now address) session = .ok !unlock.isExpired now ∧
      ∀ password, password = none ∨ password = some "" →
        answer (manager.resolveKey now address password) session =
          if unlock.isExpired now then .error (.unlockExpired address) else .ok unlock.key := by
  constructor
  · rw [answer_isUnlocked, UnlockRegistry.isUnlocked, h]
    rfl
  · intro password hpassword
    rw [answer_resolveKey hpassword, UnlockRegistry.lookup, h]
    cases hexpired : unlock.isExpired now <;> simp [hexpired]

/-- As long as an account is not unlocked, it has no entry if it had none. -/
theorem get?_final_eq_none (h : session.unlocked.entries.get? address = none) {turns : List (Turn σ)}
    (hunlocks : ∀ e ∈ manager.history session turns, ¬ e.Unlocks address) :
    (manager.final session turns).unlocked.entries.get? address = none := by
  induction turns generalizing session with
  | nil => exact h
  | cons turn turns ih =>
    rw [history] at hunlocks
    refine ih ?_ fun e he => hunlocks e (List.mem_cons_of_mem _ he)
    refine Option.eq_none_iff_forall_ne_some.2 fun unlock hsome => ?_
    have hstep := (settles_take manager session turn address).step
    rcases hstep.of_eq_some hsome with hgrants | ⟨hbefore, -⟩
    · exact hunlocks _ List.mem_cons_self hgrants.unlocks
    · have hsame : (manager.take session turn).before.unlocked = session.unlocked := rfl
      rw [hsame, h] at hbefore
      cases hbefore

/-! ## Deleting -/

/-- Deleting an account drops its entry if there was a keyfile, and does nothing to it else. -/
theorem get?_delete {told : Bool} (hdelete : answer (manager.delete now address) session = .ok told) :
    (leaves (manager.delete now address) session).unlocked.entries.get? address =
      if told then none else session.unlocked.entries.get? address := by
  rw [answer_delete] at hdelete
  rw [leaves_delete, hdelete]
  cases told with
  | true => exact (UnlockRegistry.get?_remove session.unlocked now address address).trans (if_pos rfl)
  | false => rfl

/-- An account that was deleted is locked until it is unlocked again exactly if the deletion told that there
was a keyfile, or if nothing was at hand. If it told that there was none, then a key at hand stays there, and
is found until its time is over. -/
theorem locked_after_delete_iff {told : Bool}
    (hdelete : answer (manager.delete now address) session = .ok told) {after : Session σ}
    (hafter : after = leaves (manager.delete now address) session) :
    ((∀ turns, (∀ e ∈ manager.history after turns, ¬ e.Unlocks address) → ∀ later, now ≤ later →
        answer (isUnlocked later address) (manager.final after turns) = .ok false ∧
        ∀ password, password = none ∨ password = some "" →
          answer (manager.resolveKey later address password) (manager.final after turns) =
            .error (.locked address)) ↔
      told = true ∨ session.unlocked.entries.get? address = none) ∧
    (told = false → ∀ unlock, session.unlocked.entries.get? address = some unlock → ∀ later,
      answer (isUnlocked later address) after = .ok !unlock.isExpired later ∧
      ∀ password, password = none ∨ password = some "" →
        answer (manager.resolveKey later address password) after =
          if unlock.isExpired later then .error (.unlockExpired address) else .ok unlock.key) := by
  subst hafter
  have hget := get?_delete hdelete
  generalize leaves (manager.delete now address) session = after at hget ⊢
  constructor
  · constructor
    · intro hlocked
      cases told with
      | true => exact .inl rfl
      | false =>
        right
        refine Option.eq_none_iff_forall_ne_some.2 fun unlock hsome => ?_
        -- Right after the deletion the entry is found, be it expired or not.
        obtain ⟨-, hresolve⟩ := hlocked [] (fun e he => absurd he List.not_mem_nil) now (le_refl now)
        obtain ⟨-, hfound⟩ := answers_of_some manager (hget.trans hsome) now
        have heq := (hfound none (.inl rfl)).symm.trans (hresolve none (.inl rfl))
        split at heq <;> cases heq
    · intro hnone turns hunlocks later _
      refine answers_of_none manager (get?_final_eq_none ?_ hunlocks) later
      rcases hnone with rfl | hnone
      · exact hget
      · rw [hget, hnone, ite_self]
  · rintro rfl unlock hsome later
    exact answers_of_some manager (hget.trans hsome) later

end

/-! ## In a directory that nobody else touches -/

section
variable {directory : Directory} {iterations : UInt32} {signer : Signer} {place : Place}
  {ledger : Ledger} {session : Session Disk} {now : Instant} {address : Address}

/-- Where what is at hand is for accounts of the ledger that the directory agrees with, deleting an account
finds its keyfile if its key is at hand. -/
theorem found_or_locked (h : Agrees directory iterations place ledger session.traced.files)
    (hmanaged : Managed ledger session.unlocked) :
    answer ((directory.manager iterations signer).delete now address) session = .ok true ∨
      answer ((directory.manager iterations signer).delete now address) session = .ok false ∧
        session.unlocked.entries.get? address = none := by
  have hanswer : answer ((directory.manager iterations signer).delete now address) session = _ :=
    (hasEffect_delete now h.leads address).1
  rw [hanswer]
  rcases h.deleted address with ⟨hnone, hdeleted⟩ | ⟨disk, hdeleted, -⟩
  · rw [hdeleted]
    have hlocked : session.unlocked.entries.get? address = none :=
      Option.eq_none_iff_forall_ne_some.2 fun unlock hsome => hmanaged address unlock hsome hnone
    exact .inr ⟨rfl, hlocked⟩
  · rw [hdeleted]
    exact .inl rfl

/-- Deleting an account whose keyfile others removed tells that there was none. -/
theorem answer_delete_of_removed (h : Agrees directory iterations place ledger session.traced.files)
    {holding : Holding} (hholding : ledger.get? address = some holding) :
    answer ((directory.manager iterations signer).delete now address)
      (session.outside fun disk => disk.erase (entryName address :: place)) = .ok false := by
  have hremoved := h.erase hholding
  have hanswer : answer ((directory.manager iterations signer).delete now address)
      (session.outside fun disk => disk.erase (entryName address :: place)) = _ :=
    (hasEffect_delete now hremoved.leads address).1
  rw [hanswer]
  have hnone : (ledger.erase address).get? address = none := by
    rw [AddressMap.get?_erase, if_pos rfl]
  rcases hremoved.deleted address with ⟨-, hdeleted⟩ | ⟨disk, hdeleted, -⟩
  · exact congrArg Prod.fst hdeleted
  · rw [Directory.deleted, hremoved.keyfiles_eq_nil hnone] at hdeleted
    cases hdeleted

/-- An account that is unlocked for good is still unlocked after others removed its keyfile and it was
deleted. -/
theorem replies_of_removed (h : Agrees directory iterations place ledger session.traced.files)
    (hmanaged : Managed ledger session.unlocked) {key : KeyPair}
    (hsome : session.unlocked.entries.get? address = some ⟨key, none⟩) (now : Instant) :
    ((directory.manager iterations signer).history session
        [⟨fun disk => disk.erase (entryName address :: place), now, .delete address⟩,
          ⟨id, now, .isUnlocked address⟩, ⟨id, now, .resolveKey address none⟩]).map (·.reply) =
      [.ok (.told false), .ok (.told true), .ok (.resolved key)] := by
  obtain ⟨holding, hholding⟩ := Option.ne_none_iff_exists'.1 (hmanaged address _ hsome)
  have hdelete : answer ((directory.manager iterations signer).delete now address)
      (session.outside fun disk => disk.erase (entryName address :: place)) = .ok false :=
    answer_delete_of_removed h hholding
  generalize directory.manager iterations signer = manager at hdelete ⊢
  let deleted := manager.take session
    ⟨fun disk => disk.erase (entryName address :: place), now, .delete address⟩
  have hleft : deleted.after.unlocked.entries.get? address = some ⟨key, none⟩ := by
    change (leaves (Answer.told <$> manager.delete now address) _).unlocked.entries.get? address = _
    rw [leaves_map, get?_delete hdelete]
    exact hsome
  obtain ⟨hunlocked, hresolve⟩ := answers_of_some manager hleft now
  have htold : deleted.reply = .ok (.told false) := by
    change answer (Answer.told <$> manager.delete now address) _ = _
    rw [answer_map, hdelete]
    rfl
  have hresolved : (manager.take deleted.after ⟨id, now, .resolveKey address none⟩).reply =
      .ok (.resolved key) := by
    change answer (Answer.resolved <$> manager.resolveKey now address none) deleted.after = _
    rw [answer_map, hresolve none (.inl rfl)]
    rfl
  have hasked : (manager.take deleted.after ⟨id, now, .isUnlocked address⟩).reply = .ok (.told true) := by
    change answer (Answer.told <$> isUnlocked now address) deleted.after = _
    rw [answer_map, hunlocked]
    rfl
  change [deleted.reply, (manager.take deleted.after ⟨id, now, .isUnlocked address⟩).reply,
    (manager.take deleted.after ⟨id, now, .resolveKey address none⟩).reply] = _
  rw [htold, hasked, hresolved]

end

/-! ### The sample directory -/

/-- Others remove the keyfile of an account that is unlocked in the sample directory; its key pair is still
found after it was deleted. -/
theorem replies_of_removed_sample :
    ((Directory.sample.manager 1 .ecdsa).history (unlockedSample .one "p")
        [⟨fun disk => disk.erase [entryName KeyPair.one.address, [0x6b]], 0, .delete KeyPair.one.address⟩,
          ⟨id, 0, .isUnlocked KeyPair.one.address⟩,
          ⟨id, 0, .resolveKey KeyPair.one.address none⟩]).map (·.reply) =
      [.ok (.told false), .ok (.told true), .ok (.resolved .one)] := by
  obtain ⟨ledger, hagrees, hmanaged⟩ := exists_ledger_unlockedSample .one "p"
  exact replies_of_removed hagrees hmanaged (get?_unlockedSample .one "p") 0

/-- Undisturbed, the account is locked once it was deleted. -/
theorem locked_after_delete_iff_sample :
    answer ((Directory.sample.manager 1 .ecdsa).delete 0 KeyPair.one.address) (unlockedSample .one "p") =
        .ok true ∧
      answer (isUnlocked 1 KeyPair.one.address)
        (leaves ((Directory.sample.manager 1 .ecdsa).delete 0 KeyPair.one.address)
          (unlockedSample .one "p")) = .ok false := by
  have hthere := get?_unlockedSample .one "p"
  obtain ⟨ledger, hagrees, hmanaged⟩ := exists_ledger_unlockedSample .one "p"
  have hdelete : answer ((Directory.sample.manager 1 .ecdsa).delete 0 KeyPair.one.address)
      (unlockedSample .one "p") = .ok true := by
    rcases found_or_locked hagrees hmanaged with hfound | ⟨-, hnone⟩
    · exact hfound
    · rw [hthere] at hnone
      cases hnone
  obtain ⟨hlocked, -⟩ := locked_after_delete_iff hdelete rfl
  obtain ⟨hasked, -⟩ := hlocked.2 (.inl rfl) [] (fun e he => absurd he List.not_mem_nil) 1 (Nat.zero_le 1)
  exact ⟨hdelete, hasked⟩

end Manager

end Keyring
