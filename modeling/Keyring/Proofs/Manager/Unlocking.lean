import Mathlib.Data.List.Induction
import Keyring.Storage.Memory
import Keyring.Proofs.Keyfile.Codec
import Keyring.Proofs.Manager.Registry

/-!
# Who is unlocked after a run

A key is resolved without a password exactly if the run holds a grant of it that still stands
(`Manager.resolveKey_iff_granted`): a successful unlock of the account whose keyfile opened to that key,
whose time is not over, and after which the account was neither unlocked anew nor locked nor deleted. The
invariant ties what is at hand to the last grant in the run (`Manager.get?_final_iff`); it is kept
because each call does one of four things to an account (`Manager.settles_take`).
-/

namespace Keyring

/-! ## What an entry does to an account -/

namespace Entry

section
variable {σ : Type} (e : Entry σ) (a : Address)

/-- The account was unlocked. -/
def Unlocks : Prop :=
  ∃ password timeout, e.call = .unlock a password timeout ∧ e.reply = .ok (.told true)

/-- The account was locked, or its keyfiles were deleted. -/
def Revokes : Prop :=
  e.call = .lock a ∨ e.call = .delete a ∧ e.reply = .ok (.told true)

/-- The account was unlocked with a key that its keyfile opened to, until a deadline if there is one. -/
def Grants (manager : Manager σ) (unlock : Unlock) : Prop :=
  ∃ password timeout, e.call = .unlock a password timeout ∧ e.reply = .ok (.told true) ∧
    answer (manager.keystore.load a password) e.before.traced = .ok (some unlock.key) ∧
    unlock.deadline = deadline? e.now timeout

end

section
variable {σ : Type} {manager : Manager σ}

/-- An entry that grants a key unlocks the account. -/
theorem Grants.unlocks {e : Entry σ} {a : Address} {unlock : Unlock} (h : e.Grants a manager unlock) :
    e.Unlocks a := by
  obtain ⟨password, timeout, hcall, hreply, -⟩ := h
  exact ⟨password, timeout, hcall, hreply⟩

/-- An entry grants one thing. -/
theorem Grants.unique {e : Entry σ} {a : Address} {unlock other : Unlock}
    (h : e.Grants a manager unlock) (hother : e.Grants a manager other) : unlock = other := by
  obtain ⟨key, deadline⟩ := unlock
  obtain ⟨key', deadline'⟩ := other
  obtain ⟨password, timeout, hcall, -, hload, hdeadline⟩ := h
  obtain ⟨password', timeout', hcall', -, hload', hdeadline'⟩ := hother
  rw [hcall] at hcall'
  injection hcall' with _ hpassword htimeout
  subst hpassword htimeout
  rw [hload] at hload'
  cases hload'
  cases hdeadline
  cases hdeadline'
  rfl

/-- No entry both grants and revokes. -/
theorem Grants.not_revokes {e : Entry σ} {a : Address} {unlock : Unlock}
    (h : e.Grants a manager unlock) : ¬ e.Revokes a := by
  obtain ⟨_, _, hcall, -⟩ := h
  rintro (h | ⟨h, -⟩) <;> rw [hcall] at h <;> cases h

end

end Entry

namespace Manager

section
variable {σ : Type} {manager : Manager σ} {session : Session σ}

/-- What a call leaves at hand for an account: the key that it was unlocked with; nothing once it is
locked or deleted; else what was there, or nothing if the call met that expired. -/
inductive Settles (manager : Manager σ) (e : Entry σ) (a : Address) : Prop
  | granted (unlock : Unlock) : e.Grants a manager unlock →
      e.after.unlocked.entries.get? a = some unlock → Settles manager e a
  | revoked : e.Revokes a → e.after.unlocked.entries.get? a = none → Settles manager e a
  | kept : ¬ e.Unlocks a → ¬ e.Revokes a →
      e.after.unlocked.entries.get? a = e.before.unlocked.entries.get? a → Settles manager e a
  | dropped {unlock : Unlock} : ¬ e.Unlocks a → ¬ e.Revokes a →
      e.before.unlocked.entries.get? a = some unlock → unlock.isExpired e.now = true →
      e.after.unlocked.entries.get? a = none → Settles manager e a

/-- A call that is neither unlock nor lock nor delete settles an account if it keeps its entry or drops
one that is expired. -/
theorem Settles.of_lookup {e : Entry σ} {a : Address}
    (hunlock : ∀ b password timeout, e.call ≠ .unlock b password timeout)
    (hlock : ∀ b, e.call ≠ .lock b) (hdelete : ∀ b, e.call ≠ .delete b)
    (h : UnlockRegistry.PurgedEntry e.now (e.before.unlocked.entries.get? a)
      (e.after.unlocked.entries.get? a)) :
    Settles manager e a := by
  have hunlocks : ¬ e.Unlocks a := fun ⟨password, timeout, hcall, _⟩ =>
    hunlock a password timeout hcall
  have hrevokes : ¬ e.Revokes a := by
    rintro (hcall | ⟨hcall, -⟩)
    · exact hlock a hcall
    · exact hdelete a hcall
  rcases h with hkept | ⟨hnone, unlock, hsome, hexpired⟩
  · exact .kept hunlocks hrevokes hkept
  · exact .dropped hunlocks hrevokes hsome hexpired hnone

/-- Unlocking puts the key at hand if there is one, and else does nothing. -/
theorem settles_unlock (manager : Manager σ) (session : Session σ) (outside : σ → σ) (now : Instant)
    (b : Address) (password : String) (timeout : Option Duration) (a : Address) :
    Settles manager (manager.take session ⟨outside, now, .unlock b password timeout⟩) a := by
  generalize hentry : manager.take session ⟨outside, now, .unlock b password timeout⟩ = e
  have hcall : e.call = .unlock b password timeout := hentry ▸ rfl
  have hnow : e.now = now := hentry ▸ rfl
  have hreply : e.reply = (answer (manager.unlock now b password timeout) e.before).map .told := by
    rw [← hentry, ← answer_map]
    rfl
  have hafter : e.after = leaves (manager.unlock now b password timeout) e.before := by
    rw [← hentry, ← leaves_map Answer.told]
    rfl
  have hrevokes : ¬ e.Revokes a := by
    rintro (h | ⟨h, -⟩) <;> rw [hcall] at h <;> cases h
  by_cases hload : ∃ key, answer (manager.keystore.load b password) e.before.traced = .ok (some key)
  · obtain ⟨key, hload⟩ := hload
    obtain ⟨htold, hunlocked⟩ := unlock_ok now timeout hload
    rw [htold] at hreply
    rw [← hafter] at hunlocked
    by_cases h : a = b
    · subst h
      refine .granted ⟨key, deadline? now timeout⟩
        ⟨password, timeout, hcall, hreply, hload, ?_⟩ ?_
      · rw [hnow]
      · rw [hunlocked, UnlockRegistry.get?_insert, if_pos rfl]
    · refine .kept ?_ hrevokes ?_
      · rintro ⟨_, _, h', -⟩
        rw [hcall] at h'
        injection h' with h'
        exact h h'.symm
      · rw [hunlocked, UnlockRegistry.get?_insert, if_neg h]
  · obtain ⟨htold, hunlocked⟩ :=
      unlock_of_not_ok now timeout fun key hkey => hload ⟨key, hkey⟩
    rw [← hafter] at hunlocked
    refine .kept ?_ hrevokes (by rw [hunlocked])
    rintro ⟨_, _, -, h'⟩
    rw [hreply] at h'
    cases hresult : answer (manager.unlock now b password timeout) e.before with
    | error e' => rw [hresult] at h'; cases h'
    | ok told =>
      rw [hresult] at h' htold
      cases h'
      exact htold rfl

/-- Locking leaves nothing at hand for the account. -/
theorem settles_lock (manager : Manager σ) (session : Session σ) (outside : σ → σ) (now : Instant)
    (b a : Address) : Settles manager (manager.take session ⟨outside, now, .lock b⟩) a := by
  by_cases h : a = b
  · subst h
    exact .revoked (.inl rfl) (by simp [take, perform, leaves_map, lock])
  · refine .kept nofun ?_ (by simp [take, perform, leaves_map, lock, h])
    rintro (hcall | ⟨hcall, -⟩)
    · injection hcall with hcall
      exact h hcall.symm
    · cases hcall

/-- Deleting leaves nothing at hand for the account if there was a keyfile, and else does nothing. -/
theorem settles_delete (manager : Manager σ) (session : Session σ) (outside : σ → σ) (now : Instant)
    (b a : Address) : Settles manager (manager.take session ⟨outside, now, .delete b⟩) a := by
  generalize hentry : manager.take session ⟨outside, now, .delete b⟩ = e
  have hcall : e.call = .delete b := hentry ▸ rfl
  have hreply : e.reply = (answer (manager.keystore.delete b) e.before.traced).map .told := by
    rw [← hentry, ← answer_delete _ _ now, ← answer_map]
    rfl
  have hafter : e.after = leaves (manager.delete now b) e.before := by
    rw [← hentry, ← leaves_map Answer.told]
    rfl
  rw [leaves_delete] at hafter
  have hunlocks : ¬ e.Unlocks a := by
    rintro ⟨_, _, h, -⟩
    rw [hcall] at h
    cases h
  by_cases hdeleted : answer (manager.keystore.delete b) e.before.traced = .ok true
  · rw [hdeleted] at hreply hafter
    have hget : e.after.unlocked.entries.get? a =
        if a = b then none else e.before.unlocked.entries.get? a := by
      rw [hafter]
      exact UnlockRegistry.get?_remove _ now b a
    by_cases h : a = b
    · subst h
      exact .revoked (.inr ⟨hcall, hreply⟩) (by rw [hget, if_pos rfl])
    · refine .kept hunlocks ?_ (by rw [hget, if_neg h])
      rintro (h' | ⟨h', -⟩)
      · rw [hcall] at h'
        cases h'
      · rw [hcall] at h'
        injection h' with h'
        exact h h'.symm
  · have hsame : e.after.unlocked = e.before.unlocked := by
      rw [hafter]
      split
      · next hok => exact absurd hok hdeleted
      · rfl
    refine .kept hunlocks ?_ (by rw [hsame])
    rintro (h' | ⟨-, h'⟩)
    · rw [hcall] at h'
      cases h'
    · rw [hreply] at h'
      cases hresult : answer (manager.keystore.delete b) e.before.traced with
      | error e' => rw [hresult] at h'; cases h'
      | ok isThere =>
        rw [hresult] at h' hdeleted
        cases h'
        exact hdeleted rfl

/-- Each call settles each account. -/
theorem settles_take (manager : Manager σ) (session : Session σ) (turn : Turn σ) (a : Address) :
    Settles manager (manager.take session turn) a := by
  obtain ⟨outside, now, call⟩ := turn
  have hkeeps (hcall : KeepsUnlocked (manager.perform now call)) :
      (manager.take session ⟨outside, now, call⟩).after.unlocked.entries.get? a =
        (session.outside outside).unlocked.entries.get? a :=
    congrArg (fun registry : UnlockRegistry => registry.entries.get? a) (hcall _)
  cases call with
  | unlock b password timeout => exact settles_unlock ..
  | lock b => exact settles_lock ..
  | delete b => exact settles_delete ..
  | create | list | isManaged | update | exportKey =>
    exact .of_lookup nofun nofun nofun (.inl (hkeeps (.map _ (.onFiles _))))
  | isUnlocked | unlockedAccounts =>
    exact .of_lookup nofun nofun nofun (.inl (hkeeps (.map _ fun _ => rfl)))
  | importKeyfile content password newPassword fresh =>
    exact .of_lookup nofun nofun nofun
      (.inl (hkeeps (.map _ (keepsUnlocked_importKeyfile _ _ _ _ _))))
  | importSecret secret password fresh =>
    exact .of_lookup nofun nofun nofun (.inl (hkeeps (.map _ (keepsUnlocked_importSecret _ _ _ _))))
  | importFile disk path password newPassword fresh =>
    exact .of_lookup nofun nofun nofun (.inl (hkeeps (.map _ (keepsUnlocked_importFile _ _ _ _ _ _))))
  | purgeExpired =>
    refine .of_lookup nofun nofun nofun ?_
    simp only [take, perform, leaves_map]
    exact UnlockRegistry.purgedEntry_purgeExpired ..
  | resolveKey b password =>
    refine .of_lookup nofun nofun nofun ?_
    simp only [take, perform, leaves_map, unlocked_resolveKey]
    exact UnlockRegistry.purgedEntry_lookup ..
  | signMessage b password message hashFirst =>
    refine .of_lookup nofun nofun nofun ?_
    simp only [take, perform, leaves_map, unlocked_signMessage]
    exact UnlockRegistry.purgedEntry_lookup ..
  | signTransaction b password tx =>
    refine .of_lookup nofun nofun nofun ?_
    simp only [take, perform, leaves_map, unlocked_signTransaction]
    exact UnlockRegistry.purgedEntry_lookup ..

/-! ## Runs -/

/-- The last of the entries that did something to the account granted what is given. -/
def Stands (manager : Manager σ) (a : Address) (unlock : Unlock) (entries : List (Entry σ)) : Prop :=
  ∃ earlier e later, entries = earlier ++ e :: later ∧ e.Grants a manager unlock ∧
    ∀ other ∈ later, ¬ other.Unlocks a ∧ ¬ other.Revokes a

/-- A grant stands after one more entry if that entry is the grant, or does nothing to the account and
the grant stood before. -/
theorem stands_concat_iff {a : Address} {unlock : Unlock} {entries : List (Entry σ)} {e : Entry σ} :
    Stands manager a unlock (entries ++ [e]) ↔
      e.Grants a manager unlock ∨
        Stands manager a unlock entries ∧ ¬ e.Unlocks a ∧ ¬ e.Revokes a :=
  exists_last_concat_iff

/-- A call that settles an account puts there what it grants, takes away what it revokes, and leaves the
account alone otherwise. -/
theorem Settles.step {e : Entry σ} {a : Address} (h : Settles manager e a) :
    UnlockRegistry.Step (e.Grants a manager) (¬ e.Unlocks a ∧ ¬ e.Revokes a) e.now
      (e.before.unlocked.entries.get? a) (e.after.unlocked.entries.get? a) := by
  cases h with
  | granted unlock hgrant hafter =>
    rw [hafter]
    exact .put unlock hgrant
  | revoked hrevokes hafter =>
    rw [hafter]
    exact .taken (fun _ hgrant => hgrant.not_revokes hrevokes) fun h => h.2 hrevokes
  | kept hunlocks hrevokes hafter => exact .left ⟨hunlocks, hrevokes⟩ (.inl hafter)
  | dropped hunlocks hrevokes hfound hexpired hafter =>
    exact .left ⟨hunlocks, hrevokes⟩ (.inr ⟨hafter, _, hfound, hexpired⟩)

/-- What is at hand for an account after a run is the grant that stands, as long as no call can have met
it expired. This is the invariant: the calls that meet an entry expired drop it, and all of them were made
by `now`. -/
theorem get?_final_iff (manager : Manager σ) (traced : Traced σ) (turns : List (Turn σ)) (a : Address)
    {now : Instant} (hclock : ∀ turn ∈ turns, turn.now ≤ now) {unlock : Unlock}
    (hlive : unlock.isExpired now = false) :
    (manager.final (.opened traced) turns).unlocked.entries.get? a = some unlock ↔
      Stands manager a unlock (manager.history (.opened traced) turns) := by
  induction turns using List.reverseRecOn with
  | nil =>
    constructor
    · intro h
      cases h
    · rintro ⟨earlier, e, later, h, -⟩
      cases earlier <;> cases h
  | append_singleton turns turn ih =>
    have hclock' : ∀ other ∈ turns, other.now ≤ now := fun other hother =>
      hclock other (List.mem_append_left _ hother)
    have hturn : turn.now ≤ now := hclock turn (List.mem_append_right _ List.mem_cons_self)
    have hstep := (settles_take manager (manager.final (.opened traced) turns) turn a).step
    rw [history_concat, final_concat, stands_concat_iff, ← ih hclock']
    exact hstep.eq_some_iff (fun _ _ => Entry.Grants.unique)
      (fun _ hgrant h => h.1 hgrant.unlocks) hturn hlive

/-- A key is resolved without a password exactly if the account was unlocked with it, its time is not
over, and since then the account was neither unlocked anew nor locked nor deleted. Whatever else is done
in between, by others or by the manager, makes no difference. -/
theorem resolveKey_iff_granted (manager : Manager σ) (traced : Traced σ) (turns : List (Turn σ))
    (hclock : (turns.map (·.now)).Pairwise (· ≤ ·)) {earlier later : List (Entry σ)} {e : Entry σ}
    (hrun : manager.history (.opened traced) turns = earlier ++ e :: later) {a : Address}
    {password : Option String} (hcall : e.call = .resolveKey a password)
    (hpassword : password = none ∨ password = some "") (key : KeyPair) :
    e.reply = .ok (.resolved key) ↔
      ∃ before grant after, earlier = before ++ grant :: after ∧
        (∃ password timeout, grant.call = .unlock a password timeout ∧
          grant.reply = .ok (.told true) ∧
          answer (manager.keystore.load a password) grant.before.traced = .ok (some key) ∧
          (timeout = none ∨ timeout = some 0 ∨
            ∃ d, timeout = some d ∧ (clockEnd ≤ grant.now + d ∨ e.now < grant.now + d))) ∧
        ∀ other ∈ after,
          ¬ (∃ password timeout, other.call = .unlock a password timeout ∧
            other.reply = .ok (.told true)) ∧
          ¬ (other.call = .lock a ∨ other.call = .delete a ∧ other.reply = .ok (.told true)) := by
  obtain ⟨past, turn, future, rfl, rfl, rfl⟩ := of_history_eq_append hrun
  obtain ⟨outside, now, call⟩ := turn
  have hcall : call = .resolveKey a password := hcall
  subst hcall
  have hbefore : ∀ other ∈ past, other.now ≤ now := by
    rw [List.map_append, List.pairwise_append] at hclock
    intro other hother
    exact hclock.2.2 _ (List.mem_map_of_mem hother) _ List.mem_cons_self
  have hreply : (manager.take (manager.final (.opened traced) past)
      ⟨outside, now, .resolveKey a password⟩).reply = .ok (.resolved key) ↔
      ∃ unlock, (manager.final (.opened traced) past).unlocked.entries.get? a = some unlock ∧
        unlock.isExpired now = false ∧ unlock.key = key := by
    have hunlocked : ((manager.final (.opened traced) past).outside outside).unlocked =
        (manager.final (.opened traced) past).unlocked := rfl
    rw [← UnlockRegistry.lookup_unlocked_iff, ← hunlocked, ← answer_resolveKey_iff hpassword]
    change answer (Answer.resolved <$> manager.resolveKey now a password) _ = _ ↔ _
    rw [answer_map]
    cases answer (manager.resolveKey now a password) _ with
    | error e => exact ⟨nofun, nofun⟩
    | ok k =>
      simp only [Except.map, Except.ok.injEq, Answer.resolved.injEq]
  rw [hreply]
  constructor
  · rintro ⟨⟨_, deadline⟩, hfound, hlive, rfl⟩
    obtain ⟨before, grant, after, hsplit, hgrant, hafter⟩ :=
      (get?_final_iff manager traced past a hbefore hlive).1 hfound
    obtain ⟨password', timeout, hunlock, htold, hload, hdeadline⟩ := hgrant
    cases hdeadline
    exact ⟨before, grant, after, hsplit,
      ⟨password', timeout, hunlock, htold, hload, isExpired_deadline?_iff.1 hlive⟩, hafter⟩
  · rintro ⟨before, grant, after, hsplit, ⟨password', timeout, hunlock, htold, hload, htime⟩, hafter⟩
    have hlive : (Unlock.mk key (deadline? grant.now timeout)).isExpired now = false :=
      isExpired_deadline?_iff.2 htime
    exact ⟨_, (get?_final_iff manager traced past a hbefore hlive).2
      ⟨before, grant, after, hsplit, ⟨password', timeout, hunlock, htold, hload, rfl⟩, hafter⟩,
      hlive, rfl⟩

end

/-! ### A run in memory -/

/-- A manager of keyfiles in memory. -/
def inMemory : Manager Memory :=
  ⟨⟨Memory.storage, 1⟩, .ecdsa⟩

/-- One keyfile in memory, kept for an address and sealed with a password. -/
def oneKeyfile (address : Address) (password : String) : Traced Memory :=
  ⟨⟨[⟨⟨address, Memory.location⟩, Keyfile.encode .one password 1 .zero⟩], []⟩, []⟩

/-- The password of the keyfile loads its key pair. -/
theorem load_oneKeyfile (address : Address) (password : String) :
    answer (inMemory.keystore.load address password) (oneKeyfile address password) =
      .ok (some .one) := by
  have hdecode := Keyfile.decode_encode .one password .zero (show Keyfile.Opens 1 by decide)
  unfold oneKeyfile
  generalize Keyfile.encode .one password 1 .zero = content at hdecode ⊢
  generalize hfiles : (⟨⟨[⟨⟨address, Memory.location⟩, content⟩], []⟩, []⟩ : Traced Memory) = files
  have hfind : answer (inMemory.keystore.storage.find address) files =
      .ok [⟨address, Memory.location⟩] := by
    have hfilter : [(⟨address, Memory.location⟩ : StoredKeyfile)].filter
        (fun entry => entry.address = address) = [⟨address, Memory.location⟩] := by simp
    rw [← hfilter, ← hfiles]
    rfl
  have hstays : leaves (inMemory.keystore.storage.find address) files = files := by
    rw [← hfiles]
    rfl
  have hread : answer (inMemory.keystore.storage.read ⟨address, Memory.location⟩) files =
      .ok content := by
    rw [← hfiles]
    rfl
  have hopen : answer (inMemory.keystore.open? ⟨address, Memory.location⟩ password) files =
      .ok .one := by
    unfold Keystore.open?
    rw [answer_bind_ok hread, hdecode]
    rfl
  unfold Keystore.load
  rw [answer_bind_ok hfind, hstays]
  simp only
  rw [answer_bind_ok hopen]
  rfl

/-- An account that is unlocked for five nanoseconds is unlocked four nanoseconds later. -/
theorem resolveKey_iff_granted_before_deadline :
    ∃ grant e, inMemory.history (.opened (oneKeyfile .zero "p"))
        [⟨id, 0, .unlock .zero "p" (some 5)⟩, ⟨id, 4, .resolveKey .zero none⟩] = [grant] ++ [e] ∧
      e.reply = .ok (.resolved .one) := by
  have hload := load_oneKeyfile .zero "p"
  generalize oneKeyfile .zero "p" = traced at hload ⊢
  let grant := inMemory.take (.opened traced) ⟨id, 0, .unlock .zero "p" (some 5)⟩
  let e := inMemory.take grant.after ⟨id, 4, .resolveKey .zero none⟩
  have hgrant : grant.reply = .ok (.told true) := by
    change answer (Answer.told <$> inMemory.unlock 0 .zero "p" (some 5)) (.opened traced) = _
    rw [answer_map, (unlock_ok 0 (some 5) hload).1]
    rfl
  have hrun : inMemory.history (.opened traced)
      [⟨id, 0, .unlock .zero "p" (some 5)⟩, ⟨id, 4, .resolveKey .zero none⟩] =
        [grant] ++ e :: [] := rfl
  refine ⟨grant, e, hrun, ?_⟩
  rw [resolveKey_iff_granted inMemory _ _ (by simp) hrun rfl (.inl rfl)]
  refine ⟨[], grant, [], rfl, ⟨"p", some 5, rfl, hgrant, hload, ?_⟩, fun _ h => ?_⟩
  · exact .inr (.inr ⟨5, rfl, .inr (show 4 < 0 + 5 by decide)⟩)
  · cases h

end Manager

end Keyring
