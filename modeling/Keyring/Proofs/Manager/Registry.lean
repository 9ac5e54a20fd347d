import Keyring.Proofs.Manager.History

/-!
# What calls do to the unlocked accounts

One lemma for each operation that works on the unlocked accounts. What becomes of an entry is always one of
a few things (`UnlockRegistry.Step`): a key is put there, the entry is taken away, or it is left alone unless
the operation meets it expired.
-/

namespace Keyring

namespace UnlockRegistry

variable {registry : UnlockRegistry} {now : Instant} {a b : Address}

/-- A lookup finds a key exactly if there is an entry that is not expired. -/
theorem lookup_unlocked_iff {key : KeyPair} :
    (registry.lookup now a).1 = .unlocked key ↔
      ∃ unlock, registry.entries.get? a = some unlock ∧ unlock.isExpired now = false ∧
        unlock.key = key := by
  unfold lookup
  cases hentry : registry.entries.get? a with
  | none => simp
  | some unlock =>
    cases hexpired : unlock.isExpired now with
    | true => simp [hexpired]
    | false => simp [hexpired]

/-- An account is unlocked exactly if there is an entry that is not expired. -/
theorem isUnlocked_iff (registry : UnlockRegistry) (now : Instant) (a : Address) :
    registry.isUnlocked now a = true ↔
      ∃ unlock, registry.entries.get? a = some unlock ∧ unlock.isExpired now = false := by
  unfold isUnlocked
  cases registry.entries.get? a <;> simp

/-- The entry unless it is expired. -/
def unexpired (now : Instant) (entry : Option Unlock) : Option Unlock :=
  entry.filter fun unlock => !unlock.isExpired now

/-- What is left of an entry is the entry, or nothing because it is expired. -/
def PurgedEntry (now : Instant) (entry left : Option Unlock) : Prop :=
  left = entry ∨ left = none ∧ ∃ unlock, entry = some unlock ∧ unlock.isExpired now = true

/-- Dropping an entry that is expired is what a purge may do to it. -/
theorem purgedEntry_unexpired (now : Instant) (entry : Option Unlock) :
    PurgedEntry now entry (unexpired now entry) := by
  cases entry with
  | none => exact .inl rfl
  | some unlock =>
    cases hexpired : unlock.isExpired now with
    | false => exact .inl (by simp [unexpired, hexpired])
    | true => exact .inr ⟨by simp [unexpired, hexpired], unlock, rfl, hexpired⟩

/-- A lookup drops the entry that it meets expired. -/
theorem get?_lookup (registry : UnlockRegistry) (now : Instant) (a b : Address) :
    (registry.lookup now b).2.entries.get? a =
      if a = b then unexpired now (registry.entries.get? a) else registry.entries.get? a := by
  unfold lookup unexpired
  by_cases h : a = b
  · subst h
    cases hentry : registry.entries.get? a with
    | none => simp [hentry]
    | some unlock => cases hexpired : unlock.isExpired now <;> simp [hentry, hexpired, Option.filter]
  · cases registry.entries.get? b with
    | none => simp [h]
    | some unlock => cases hexpired : unlock.isExpired now <;> simp [h, hexpired]

/-- A lookup does to each entry what a purge may do. -/
theorem purgedEntry_lookup (registry : UnlockRegistry) (now : Instant) (a b : Address) :
    PurgedEntry now (registry.entries.get? a) ((registry.lookup now b).2.entries.get? a) := by
  rw [get?_lookup]
  split
  · exact purgedEntry_unexpired ..
  · exact .inl rfl

/-- A purge does to each entry what a purge may do. -/
theorem purgedEntry_purgeExpired (registry : UnlockRegistry) (now : Instant) (a : Address) :
    PurgedEntry now (registry.entries.get? a) ((registry.purgeExpired now).2.entries.get? a) := by
  rw [purgeExpired, get?_live]
  exact purgedEntry_unexpired ..

end UnlockRegistry

/-- What is expired stays so. -/
theorem Unlock.isExpired_mono {unlock : Unlock} {now later : Instant} (hle : now ≤ later)
    (h : unlock.isExpired now = true) : unlock.isExpired later = true := by
  unfold isExpired at h ⊢
  cases hdeadline : unlock.deadline with
  | none => rw [hdeadline] at h; cases h
  | some deadline =>
    rw [hdeadline, Option.any_some, decide_eq_true_eq] at h
    rw [Option.any_some, decide_eq_true_eq]
    exact Nat.le_trans h hle

namespace UnlockRegistry

/-- What becomes of an entry where it is known what is put there and whether the entry is left alone: the
entry is put there or taken away, or it is left alone, unless it is met expired. -/
inductive Step (Puts : Unlock → Prop) (Leaves : Prop) (now : Instant) (entry : Option Unlock) :
    Option Unlock → Prop
  | put (unlock : Unlock) : Puts unlock → Step Puts Leaves now entry (some unlock)
  | taken : (∀ unlock, ¬ Puts unlock) → ¬ Leaves → Step Puts Leaves now entry none
  | left {after : Option Unlock} : Leaves → PurgedEntry now entry after →
      Step Puts Leaves now entry after

section
variable {Puts : Unlock → Prop} {Leaves : Prop} {earlier now : Instant} {entry after : Option Unlock}
  {unlock : Unlock}

/-- What is there after a step was put there, or was there before and is left. -/
theorem Step.of_eq_some (h : Step Puts Leaves now entry after) (hafter : after = some unlock) :
    Puts unlock ∨ entry = some unlock ∧ Leaves := by
  subst hafter
  cases h with
  | put _ hputs => exact .inl hputs
  | left hleaves hpurged =>
    rcases hpurged with hsame | ⟨hnone, -⟩
    · exact .inr ⟨hsame.symm, hleaves⟩
    · cases hnone

/-- For an entry that is not expired this is all there is to it. -/
theorem Step.eq_some_iff (h : Step Puts Leaves earlier entry after)
    (hone : ∀ other another, Puts other → Puts another → other = another)
    (hnot : ∀ other, Puts other → ¬ Leaves) (hle : earlier ≤ now)
    (hlive : unlock.isExpired now = false) :
    after = some unlock ↔ Puts unlock ∨ entry = some unlock ∧ Leaves := by
  refine ⟨h.of_eq_some, ?_⟩
  rintro (hputs | ⟨rfl, hleaves⟩)
  · cases h with
    | put other hother => rw [hone other unlock hother hputs]
    | taken hnone => exact absurd hputs (hnone unlock)
    | left hleaves => exact absurd hleaves (hnot unlock hputs)
  · cases h with
    | put other hother => exact absurd hleaves (hnot other hother)
    | taken _ hgone => exact absurd hleaves hgone
    | left _ hpurged =>
      rcases hpurged with hsame | ⟨-, other, heq, hexpired⟩
      · exact hsame
      -- An entry that was met expired would be expired now.
      · cases heq
        rw [Unlock.isExpired_mono hle hexpired] at hlive
        cases hlive

end

end UnlockRegistry

/-- A key stays at hand without a timeout, for a timeout of zero, beyond the clock and until the
timeout is over. -/
theorem isExpired_deadline?_iff {key : KeyPair} {start now : Instant} {timeout : Option Duration} :
    (Unlock.mk key (deadline? start timeout)).isExpired now = false ↔
      timeout = none ∨ timeout = some 0 ∨
        ∃ d, timeout = some d ∧ (clockEnd ≤ start + d ∨ now < start + d) := by
  cases timeout with
  | none => simp [Unlock.isExpired, deadline?]
  | some d =>
    by_cases hzero : d = 0
    · simp [Unlock.isExpired, deadline?, hzero]
    · by_cases hend : start + d < clockEnd
      · have hnot : ¬ clockEnd ≤ start + d := Nat.not_le.2 hend
        simp [Unlock.isExpired, deadline?, hzero, hend, hnot]
      · have hle : clockEnd ≤ start + d := Nat.le_of_not_lt hend
        simp [Unlock.isExpired, deadline?, hzero, hend, hle]

/-! ## Operations -/

namespace Manager

open SessionAction (onFiles onUnlocked)

section
variable {σ : Type} {manager : Manager σ} {session : Session σ} {now : Instant} {address : Address}

/-- Unlocking answers what loading does, but for the key, which is kept at hand. -/
theorem unlock_ok {password : String} {key : KeyPair} (now : Instant) (timeout : Option Duration)
    (h : answer (manager.keystore.load address password) session.traced = .ok (some key)) :
    answer (manager.unlock now address password timeout) session = .ok true ∧
      (leaves (manager.unlock now address password timeout) session).unlocked =
        session.unlocked.insert now address key timeout := by
  have hload : answer (onFiles (manager.keystore.load address password)) session = .ok (some key) := by
    rw [SessionAction.answer_onFiles, h]
  unfold unlock
  rw [answer_bind_ok hload, leaves_bind_ok hload, SessionAction.leaves_onFiles]
  exact ⟨rfl, rfl⟩

/-- Without a key unlocking does nothing. -/
theorem unlock_of_not_ok {password : String} (now : Instant) (timeout : Option Duration)
    (h : ∀ key, answer (manager.keystore.load address password) session.traced ≠ .ok (some key)) :
    answer (manager.unlock now address password timeout) session ≠ .ok true ∧
      (leaves (manager.unlock now address password timeout) session).unlocked = session.unlocked := by
  unfold unlock
  cases hresult : answer (manager.keystore.load address password) session.traced with
  | error e =>
    have hload : answer (onFiles (manager.keystore.load address password)) session = .error e := by
      rw [SessionAction.answer_onFiles, hresult]
    rw [answer_bind_error hload, leaves_bind_error hload, SessionAction.leaves_onFiles]
    exact ⟨nofun, rfl⟩
  | ok found =>
    cases found with
    | some key => exact absurd hresult (h key)
    | none =>
      have hload : answer (onFiles (manager.keystore.load address password)) session = .ok none := by
        rw [SessionAction.answer_onFiles, hresult]
      rw [answer_bind_ok hload, leaves_bind_ok hload, SessionAction.leaves_onFiles]
      exact ⟨nofun, rfl⟩

/-- Deleting answers what the keystore does. -/
theorem answer_delete (manager : Manager σ) (session : Session σ) (now : Instant) (address : Address) :
    answer (manager.delete now address) session =
      answer (manager.keystore.delete address) session.traced := by
  unfold delete
  cases hresult : answer (manager.keystore.delete address) session.traced with
  | error e =>
    exact answer_bind_error (by rw [SessionAction.answer_onFiles, hresult])
  | ok isThere =>
    rw [answer_bind_ok (by rw [SessionAction.answer_onFiles, hresult])]
    cases isThere <;> rfl

/-- Deleting locks the account if there was a keyfile. -/
theorem leaves_delete (manager : Manager σ) (session : Session σ) (now : Instant) (address : Address) :
    leaves (manager.delete now address) session =
      ⟨leaves (manager.keystore.delete address) session.traced,
        if answer (manager.keystore.delete address) session.traced matches .ok true then
          (session.unlocked.remove now address).2 else session.unlocked⟩ := by
  unfold delete
  cases hresult : answer (manager.keystore.delete address) session.traced with
  | error e =>
    rw [leaves_bind_error (by rw [SessionAction.answer_onFiles, hresult]),
      SessionAction.leaves_onFiles]
    rfl
  | ok isThere =>
    rw [leaves_bind_ok (by rw [SessionAction.answer_onFiles, hresult]),
      SessionAction.leaves_onFiles]
    cases isThere <;> rfl

/-- The operation does nothing to the unlocked accounts, whatever it answers. -/
def KeepsUnlocked {α : Type} (x : SessionAction σ α) : Prop :=
  ∀ session, (leaves x session).unlocked = session.unlocked

variable {α β : Type} {x : SessionAction σ α} {f : α → SessionAction σ β}

/-- Operations on the files keep the unlocked accounts. -/
theorem KeepsUnlocked.onFiles (action : Action σ α) : KeepsUnlocked (onFiles action) := by
  intro session
  rw [SessionAction.leaves_onFiles]

/-- A value that is given keeps the unlocked accounts. -/
theorem KeepsUnlocked.pure (a : α) : KeepsUnlocked (pure a : SessionAction σ α) :=
  fun _ => rfl

/-- A failure keeps the unlocked accounts. -/
theorem KeepsUnlocked.throw (e : AccountError) : KeepsUnlocked (throw e : SessionAction σ α) :=
  fun _ => rfl

/-- An operation that goes on from one does to the unlocked accounts what that one does, if it does
nothing more to them itself. -/
theorem unlocked_bind (hf : ∀ a, KeepsUnlocked (f a)) (session : Session σ) :
    (leaves (x >>= f) session).unlocked = (leaves x session).unlocked := by
  cases hresult : answer x session with
  | error e => rw [leaves_bind_error hresult]
  | ok a => rw [leaves_bind_ok hresult, hf]

/-- Two steps that keep the unlocked accounts keep them together. -/
theorem KeepsUnlocked.bind (hx : KeepsUnlocked x) (hf : ∀ a, KeepsUnlocked (f a)) :
    KeepsUnlocked (x >>= f) := by
  intro session
  rw [unlocked_bind hf, hx]

/-- What is worked out from an answer keeps the unlocked accounts as the operation does. -/
theorem KeepsUnlocked.map (f : α → β) (hx : KeepsUnlocked x) : KeepsUnlocked (f <$> x) := by
  intro session
  rw [leaves_map, hx]

/-- Importing a keyfile keeps the unlocked accounts. -/
theorem keepsUnlocked_importKeyfile (manager : Manager σ) (content : Bytes)
    (password newPassword : String) (fresh : Seal) :
    KeepsUnlocked (manager.importKeyfile content password newPassword fresh) :=
  .onFiles _

/-- So does importing one from a file. -/
theorem keepsUnlocked_importFile (manager : Manager σ) (disk : Disk) (path : Path)
    (password newPassword : String) (fresh : Seal) :
    KeepsUnlocked (manager.importFile disk path password newPassword fresh) := by
  unfold importFile
  split
  · exact keepsUnlocked_importKeyfile _ _ _ _ _
  · exact .throw _

/-- So does importing a secret. -/
theorem keepsUnlocked_importSecret (manager : Manager σ) (secret password : String) (fresh : Seal) :
    KeepsUnlocked (manager.importSecret secret password fresh) := by
  unfold importSecret
  split
  · exact .onFiles _
  · exact .throw _

/-- Resolving a key does to the unlocked accounts what the lookup does. -/
theorem unlocked_resolveKey (manager : Manager σ) (session : Session σ) (now : Instant)
    (address : Address) (password : Option String) :
    (leaves (manager.resolveKey now address password) session).unlocked =
      (session.unlocked.lookup now address).2 := by
  refine unlocked_bind (fun found => ?_) session
  split
  · exact .pure _
  · exact .throw _
  · exact .throw _
  · refine (KeepsUnlocked.onFiles _).bind fun _ => (KeepsUnlocked.onFiles _).bind fun key => ?_
    cases key with
    | some key => exact .pure key
    | none => exact .throw _

/-- Signing does to the unlocked accounts what a lookup of the account does. -/
theorem unlocked_sign (manager : Manager σ) (session : Session σ) (now : Instant)
    (address : Address) (password : Option String) (message : Bytes) (hashFirst : Bool) :
    (leaves (manager.sign now address password message hashFirst) session).unlocked =
      (session.unlocked.lookup now address).2 := by
  rw [← unlocked_resolveKey manager session now address password]
  refine unlocked_bind (fun key => ?_) session
  cases manager.signer.sign message key hashFirst with
  | ok sig => exact .pure sig
  | error e => exact .throw e

/-- So does signing a message. -/
theorem unlocked_signMessage (manager : Manager σ) (session : Session σ) (now : Instant)
    (address : Address) (password : Option String) (message : Bytes) (hashFirst : Bool) :
    (leaves (manager.signMessage now address password message hashFirst) session).unlocked =
      (session.unlocked.lookup now address).2 := by
  rw [← unlocked_sign manager session now address password message hashFirst]
  exact unlocked_bind (fun _ => .pure _) session

/-- So does signing a transaction. -/
theorem unlocked_signTransaction (manager : Manager σ) (session : Session σ) (now : Instant)
    (address : Address) (password : Option String) (tx : Transaction) :
    (leaves (manager.signTransaction now address password tx) session).unlocked =
      (session.unlocked.lookup now address).2 := by
  rw [← unlocked_sign manager session now address password tx.digest.toBytes false]
  exact unlocked_bind (fun _ => .pure _) session

/-- Without a password what is found at hand is the answer. -/
theorem answer_resolveKey {password : Option String} (hpassword : password = none ∨ password = some "") :
    answer (manager.resolveKey now address password) session =
      match (session.unlocked.lookup now address).1 with
      | .unlocked key => .ok key
      | .absent => .error (.locked address)
      | .expired => .error (.unlockExpired address) := by
  have hnone : password.filter (· ≠ "") = none := by
    rcases hpassword with rfl | rfl <;> rfl
  unfold resolveKey
  rw [hnone, answer_bind_ok (SessionAction.answer_onUnlocked _ _)]
  cases (session.unlocked.lookup now address).1 <;> rfl

/-- So only a key at hand is resolved then. -/
theorem answer_resolveKey_iff {password : Option String}
    (hpassword : password = none ∨ password = some "") {key : KeyPair} :
    answer (manager.resolveKey now address password) session = .ok key ↔
      (session.unlocked.lookup now address).1 = .unlocked key := by
  rw [answer_resolveKey hpassword]
  cases (session.unlocked.lookup now address).1 with
  | unlocked k => simp only [Except.ok.injEq, Lookup.unlocked.injEq]
  | expired => exact ⟨nofun, nofun⟩
  | absent => exact ⟨nofun, nofun⟩

end

end Manager

end Keyring
