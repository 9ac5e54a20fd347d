import Keyring.Proofs.Manager.Files

/-!
# How a key is resolved

A manager looks up what is at hand before it asks whether there is a password. The rule it follows is told
the other way round (`Directory.resolved`): without a password the entry at hand decides alone; with one, an
entry that is not expired is taken as it is, and otherwise the first keyfile of the account is opened.
The two agree on every disk and every registry, in the answer and in what is left
(`Manager.resolveKey_resolved`), even where the directory cannot be listed. Nothing is left that was
not there before, no file is changed, and while the account is unlocked neither files nor password matter.
-/

namespace Keyring

/-! ## The rule -/

/-- What the entry at hand gives without a password, and the registry without it if it is expired. -/
def UnlockRegistry.atHand (registry : UnlockRegistry) (now : Instant) (address : Address) :
    Except AccountError KeyPair × UnlockRegistry :=
  match registry.entries.get? address with
  | none => (.error (.locked address), registry)
  | some entry =>
    if entry.isExpired now then (.error (.unlockExpired address), ⟨registry.entries.erase address⟩)
    else (.ok entry.key, registry)

/-- What the entry at hand gives, told by what a lookup finds. -/
theorem UnlockRegistry.atHand_eq (registry : UnlockRegistry) (now : Instant) (address : Address) :
    registry.atHand now address =
      (match (registry.lookup now address).1 with
        | .unlocked key => .ok key
        | .absent => .error (.locked address)
        | .expired => .error (.unlockExpired address),
      (registry.lookup now address).2) := by
  unfold atHand lookup
  cases registry.entries.get? address with
  | none => rfl
  | some entry => cases hexpired : entry.isExpired now <;> simp [hexpired]

namespace Directory

variable (directory : Directory) (disk : Disk) (registry : UnlockRegistry) (now : Instant)
  (address : Address)

/-- The key pair that a password opens the first keyfile of an account to. -/
def decrypted (password : String) : Except AccountError KeyPair :=
  match directory.found disk address with
  | .error e => .error e
  | .ok [] => .error (.accountNotFound address)
  | .ok (name :: _) => directory.opened disk name password

/-- What is decrypted is what is fetched, with a failure where there is nothing. -/
theorem decrypted_eq (password : String) :
    directory.decrypted disk address password = match directory.fetched disk address password with
      | .error e => .error e
      | .ok none => .error (.accountNotFound address)
      | .ok (some key) => .ok key := by
  unfold decrypted fetched
  cases directory.found disk address with
  | error e => rfl
  | ok names =>
    cases names with
    | nil => rfl
    | cons name names =>
      simp only
      cases directory.opened disk name password with
      | error e => rfl
      | ok key => rfl

/-- What a password gives: the key at hand, whatever the password is, or the one that it opens. -/
def byPassword (password : String) : Except AccountError KeyPair × UnlockRegistry :=
  match registry.entries.get? address with
  | none => (directory.decrypted disk address password, registry)
  | some entry =>
    if entry.isExpired now then
      (directory.decrypted disk address password, ⟨registry.entries.erase address⟩)
    else (.ok entry.key, registry)

/-- The key pair to sign with and the registry that is left. An empty password is none. -/
def resolved : Option String → Except AccountError KeyPair × UnlockRegistry
  | none => registry.atHand now address
  | some password =>
    if password = "" then registry.atHand now address
    else directory.byPassword disk registry now address password

section
variable {directory disk registry now address} {password : Option String}

/-- Without a password, or with an empty one, only the key at hand is resolved. -/
theorem resolved_without (h : password = none ∨ password = some "") :
    directory.resolved disk registry now address password = registry.atHand now address := by
  rcases h with rfl | rfl
  · rfl
  · rw [resolved, if_pos rfl]

/-- With a password, the key at hand comes first and the keyfile behind it. -/
theorem resolved_with {given : String} (h : given ≠ "") :
    directory.resolved disk registry now address (some given) =
      directory.byPassword disk registry now address given :=
  if_neg h

/-- There is no password, or one that is not empty. -/
theorem without_or_with (password : Option String) :
    (password = none ∨ password = some "") ∨ ∃ given, given ≠ "" ∧ password = some given := by
  cases password with
  | none => exact .inl (.inl rfl)
  | some given =>
    by_cases h : given = ""
    · exact .inl (.inr (congrArg some h))
    · exact .inr ⟨given, h, rfl⟩

/-- What a password gives, told by what a lookup finds. -/
theorem byPassword_eq (directory : Directory) (disk : Disk) (registry : UnlockRegistry) (now : Instant)
    (address : Address) (given : String) :
    directory.byPassword disk registry now address given =
      (match (registry.lookup now address).1 with
        | .unlocked key => .ok key
        | .absent | .expired => directory.decrypted disk address given,
      (registry.lookup now address).2) := by
  unfold byPassword UnlockRegistry.lookup
  cases registry.entries.get? address with
  | none => rfl
  | some entry => cases hexpired : entry.isExpired now <;> simp [hexpired]

/-- Every branch leaves what a lookup leaves. -/
theorem resolved_snd (directory : Directory) (disk : Disk) (registry : UnlockRegistry) (now : Instant)
    (address : Address) (password : Option String) :
    (directory.resolved disk registry now address password).2 = (registry.lookup now address).2 := by
  rcases without_or_with password with hnone | ⟨given, hgiven, rfl⟩
  · rw [resolved_without hnone, UnlockRegistry.atHand_eq]
  · rw [resolved_with hgiven, byPassword_eq]

/-- While the account is unlocked its key is the answer of every branch. -/
theorem resolved_fst_of_lookup {key : KeyPair} (h : (registry.lookup now address).1 = .unlocked key)
    (directory : Directory) (disk : Disk) (password : Option String) :
    (directory.resolved disk registry now address password).1 = .ok key := by
  rcases without_or_with password with hnone | ⟨given, hgiven, rfl⟩
  · rw [resolved_without hnone, UnlockRegistry.atHand_eq, h]
  · rw [resolved_with hgiven, byPassword_eq, h]

end

end Directory

/-! ## The rule is followed -/

namespace Manager

open SessionAction

/-- A password opens the first keyfile for this time only, and no file is changed. -/
theorem hasEffect_singleUse (directory : Directory) (iterations : UInt32) (signer : Signer)
    (session : Session Disk) (address : Address) (password : String) :
    HasEffect (do
        onFiles (Action.note (.singleUse address))
        match ← onFiles ((directory.manager iterations signer).keystore.load address password) with
        | some key => return key
        | none => throw (.accountNotFound address)) session
      (directory.decrypted session.traced.files address password, session.traced.files) := by
  have hnote : HasEffect (onFiles (Action.note (.singleUse address))) session
      (.ok (), session.traced.files) := hasEffect_onFiles (Action.yields_note _ _)
  refine hnote.bind ?_
  intro after hafter
  have hload := Directory.yields_load_fetched directory iterations after.traced.files address password
  rw [Directory.decrypted_eq, ← hafter]
  have heffect : HasEffect (onFiles ((directory.manager iterations signer).keystore.load address password))
      after (directory.fetched after.traced.files address password, after.traced.files) :=
    hasEffect_onFiles hload
  cases hfetched : directory.fetched after.traced.files address password with
  | error e =>
    rw [hfetched] at heffect
    exact heffect.bind_error
  | ok found =>
    rw [hfetched] at heffect
    refine heffect.bind ?_
    intro last hlast
    rw [← hlast]
    cases found with
    | none => exact hasEffect_throw _ last
    | some key => exact hasEffect_pure key last

/-- The lookup comes first and the password second, and all the same the rule is followed. -/
theorem hasEffect_resolveKey (directory : Directory) (iterations : UInt32) (signer : Signer)
    (session : Session Disk) (now : Instant) (address : Address) (password : Option String) :
    HasEffect ((directory.manager iterations signer).resolveKey now address password) session
      ((directory.resolved session.traced.files session.unlocked now address password).1,
        session.traced.files) := by
  refine (hasEffect_onUnlocked _ session).bind ?_
  intro after hafter
  rw [← hafter]
  rcases Directory.without_or_with password with hnone | ⟨given, hgiven, rfl⟩
  · have hfilter : password.filter (· ≠ "") = none := by
      rcases hnone with rfl | rfl <;> rfl
    rw [Directory.resolved_without hnone, UnlockRegistry.atHand_eq, hfilter]
    cases (session.unlocked.lookup now address).1 with
    | unlocked key => exact hasEffect_pure key after
    | absent => exact hasEffect_throw _ after
    | expired => exact hasEffect_throw _ after
  · have hfilter : (some given).filter (· ≠ "") = some given := by simp [hgiven]
    have hsingle := hasEffect_singleUse directory iterations signer after address given
    rw [Directory.resolved_with hgiven, Directory.byPassword_eq, hfilter]
    cases (session.unlocked.lookup now address).1 with
    | unlocked key => exact hasEffect_pure key after
    | absent => exact hsingle
    | expired => exact hsingle

/-- Resolving a key follows the rule on every disk and every registry, in the answer and in the registry that
is left. No file is changed, and no entry but that of the account, which is taken away if it is expired.
While the account is unlocked, neither the password nor the files matter to the answer. -/
theorem resolveKey_resolved (directory : Directory) (iterations : UInt32) (signer : Signer)
    (session : Session Disk) (now : Instant) (address : Address) (password : Option String) :
    let resolve := (directory.manager iterations signer).resolveKey now address
    let rule := directory.resolved session.traced.files session.unlocked now address password
    let after := leaves (resolve password) session
    answer (resolve password) session = rule.1 ∧ after.unlocked = rule.2 ∧
      after.traced.files = session.traced.files ∧
      (∀ other ≠ address, after.unlocked.entries.get? other = session.unlocked.entries.get? other) ∧
      UnlockRegistry.PurgedEntry now (session.unlocked.entries.get? address)
        (after.unlocked.entries.get? address) ∧
      (session.unlocked.isUnlocked now address = true →
        ∀ (other : Session Disk) (given : Option String), other.unlocked = session.unlocked →
          answer (resolve given) other = answer (resolve password) session) := by
  intro resolve rule after
  obtain ⟨hanswer, hfiles⟩ := hasEffect_resolveKey directory iterations signer session now address password
  have hleft : after.unlocked = (session.unlocked.lookup now address).2 :=
    unlocked_resolveKey _ session now address password
  refine ⟨hanswer, ?_, hfiles, ?_, ?_, ?_⟩
  · rw [hleft]
    exact (Directory.resolved_snd ..).symm
  · intro other hother
    rw [hleft, UnlockRegistry.get?_lookup, if_neg hother]
  · rw [hleft]
    exact UnlockRegistry.purgedEntry_lookup ..
  · intro hunlocked other given hsame
    obtain ⟨hother, -⟩ := hasEffect_resolveKey directory iterations signer other now address given
    obtain ⟨entry, hentry, hlive⟩ := (UnlockRegistry.isUnlocked_iff ..).1 hunlocked
    have hkey : (session.unlocked.lookup now address).1 = .unlocked entry.key :=
      UnlockRegistry.lookup_unlocked_iff.2 ⟨entry, hentry, hlive, rfl⟩
    rw [hsame, Directory.resolved_fst_of_lookup hkey] at hother
    rw [Directory.resolved_fst_of_lookup hkey] at hanswer
    exact hother.trans hanswer.symm

end Manager

end Keyring
