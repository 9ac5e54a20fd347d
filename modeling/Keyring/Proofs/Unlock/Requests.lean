import Keyring.Proofs.Manager.Registry

/-!
# Requests to the unlocked accounts

What may be asked of the registry of unlocked accounts, what it replies, and what is left after a run of
requests. A request does something to the entry of an account that depends on this entry alone
(`get?_perform`): an insert sets it, a remove drops it, and any other request keeps it or drops it because it
is expired (`step_settled`).
-/

namespace Keyring.UnlockRegistry

/-- What is asked of the registry. -/
inductive Request where
  | insert (address : Address) (key : KeyPair) (timeout : Option Duration)
  | lookup (address : Address)
  | remove (address : Address)
  | isUnlocked (address : Address)
  | unlockedAddresses
  | purgeExpired
  | size
  | isEmpty

/-- What the registry replies. -/
inductive Reply where
  | done
  | found (lookup : Lookup)
  | told (holds : Bool)
  | addresses (addresses : List Address)
  | counted (count : Nat)

/-- The reply to a request at an instant, and the registry after it. -/
def perform (registry : UnlockRegistry) (now : Instant) : Request → Reply × UnlockRegistry
  | .insert a key timeout => (.done, registry.insert now a key timeout)
  | .lookup a => ((registry.lookup now a).map .found id)
  | .remove a => ((registry.remove now a).map .told id)
  | .isUnlocked a => (.told (registry.isUnlocked now a), registry)
  | .unlockedAddresses => (.addresses (registry.unlockedAddresses now), registry)
  | .purgeExpired => ((registry.purgeExpired now).map .counted id)
  | .size => (.counted registry.size, registry)
  | .isEmpty => (.told registry.isEmpty, registry)

/-- A request and when it is made. -/
structure Timed where
  now : Instant
  request : Request

/-- The registry after requests. -/
def run (registry : UnlockRegistry) (requests : List Timed) : UnlockRegistry :=
  requests.foldl (fun registry timed => (registry.perform timed.now timed.request).2) registry

/-- The reply to a request that follows others, all made to a new registry. -/
def reply (past : List Timed) (now : Instant) (request : Request) : Reply :=
  ((empty.run past).perform now request).1

/-- More requests go on from what the requests before leave. -/
theorem run_append (registry : UnlockRegistry) (requests more : List Timed) :
    registry.run (requests ++ more) = (registry.run requests).run more :=
  List.foldl_append

theorem run_cons (registry : UnlockRegistry) (timed : Timed) (requests : List Timed) :
    registry.run (timed :: requests) = ((registry.perform timed.now timed.request).2).run requests :=
  rfl

/-- One more request goes on from them. -/
theorem run_concat (registry : UnlockRegistry) (requests : List Timed) (timed : Timed) :
    registry.run (requests ++ [timed]) =
      ((registry.run requests).perform timed.now timed.request).2 :=
  run_append registry requests [timed]

/-! ## What a request does to the entry of an account -/

/-- What a request leaves of an account's entry. -/
def settled (timed : Timed) (a : Address) (entry : Option Unlock) : Option Unlock :=
  match timed.request with
  | .insert b key timeout => if a = b then some ⟨key, deadline? timed.now timeout⟩ else entry
  | .remove b => if a = b then none else entry
  | .lookup b => if a = b then unexpired timed.now entry else entry
  | .purgeExpired => unexpired timed.now entry
  | .isUnlocked _ | .unlockedAddresses | .size | .isEmpty => entry

/-- What a request does to the entry of an account is told by the entry alone. -/
theorem get?_perform (registry : UnlockRegistry) (timed : Timed) (a : Address) :
    (registry.perform timed.now timed.request).2.entries.get? a =
      settled timed a (registry.entries.get? a) := by
  obtain ⟨now, request⟩ := timed
  cases request with
  | insert b key timeout => exact get?_insert ..
  | lookup b => exact get?_lookup ..
  | remove b => exact get?_remove registry now b a
  | purgeExpired => exact get?_live ..
  | isUnlocked | unlockedAddresses | size | isEmpty => rfl

/-- A request sets an entry whatever it was, keeps it, or drops it if it is expired. -/
theorem settled_cases (timed : Timed) (a : Address) :
    (∀ entry other, settled timed a entry = settled timed a other) ∨
    (∀ entry, settled timed a entry = entry) ∨
    ∀ entry, settled timed a entry = unexpired timed.now entry := by
  obtain ⟨now, request⟩ := timed
  cases request with
  | insert b key timeout =>
    by_cases h : a = b
    · exact .inl fun entry other => (if_pos h).trans (if_pos h).symm
    · exact .inr (.inl fun entry => if_neg h)
  | remove b =>
    by_cases h : a = b
    · exact .inl fun entry other => (if_pos h).trans (if_pos h).symm
    · exact .inr (.inl fun entry => if_neg h)
  | lookup b =>
    by_cases h : a = b
    · exact .inr (.inr fun entry => if_pos h)
    · exact .inr (.inl fun entry => if_neg h)
  | purgeExpired => exact .inr (.inr fun entry => rfl)
  | isUnlocked | unlockedAddresses | size | isEmpty => exact .inr (.inl fun entry => rfl)

namespace Timed

variable (timed : Timed) (a : Address)

/-- The request inserts the entry for the account. -/
def Inserts (unlock : Unlock) : Prop :=
  ∃ timeout, timed.request = .insert a unlock.key timeout ∧
    unlock.deadline = deadline? timed.now timeout

/-- The request neither inserts nor removes an entry of the account. -/
def Passes : Prop :=
  timed.request ≠ .remove a ∧ ∀ key timeout, timed.request ≠ .insert a key timeout

end Timed

section
variable {timed : Timed} {a : Address} {unlock other : Unlock}

/-- A request inserts one entry. -/
theorem Timed.Inserts.unique (h : timed.Inserts a unlock) (hother : timed.Inserts a other) :
    unlock = other := by
  obtain ⟨key, deadline⟩ := unlock
  obtain ⟨key', deadline'⟩ := other
  obtain ⟨timeout, hrequest, hdeadline⟩ := h
  obtain ⟨timeout', hrequest', hdeadline'⟩ := hother
  rw [hrequest] at hrequest'
  cases hrequest'
  cases hdeadline
  cases hdeadline'
  rfl

/-- An entry that is inserted anew is not passed over. -/
theorem Timed.Inserts.not_passes (h : timed.Inserts a unlock) : ¬ timed.Passes a := by
  obtain ⟨timeout, hrequest, -⟩ := h
  exact fun hpasses => hpasses.2 _ _ hrequest

/-- An entry is inserted, removed, or left alone unless it is met expired. -/
theorem step_settled (timed : Timed) (a : Address) (entry : Option Unlock) :
    Step (timed.Inserts a) (timed.Passes a) timed.now entry (settled timed a entry) := by
  obtain ⟨now, request⟩ := timed
  cases request with
  | insert b key timeout =>
    by_cases h : a = b
    · subst h
      have hset : settled ⟨now, .insert a key timeout⟩ a entry = some ⟨key, deadline? now timeout⟩ :=
        if_pos rfl
      rw [hset]
      exact .put _ ⟨timeout, rfl, rfl⟩
    · refine .left ⟨nofun, fun _ _ heq => ?_⟩ (.inl (if_neg h))
      injection heq with heq
      exact h heq.symm
  | remove b =>
    by_cases h : a = b
    · subst h
      have hset : settled ⟨now, .remove a⟩ a entry = none := if_pos rfl
      rw [hset]
      refine .taken ?_ fun hpasses => hpasses.1 rfl
      rintro _ ⟨_, hrequest, -⟩
      cases hrequest
    · refine .left ⟨fun heq => ?_, nofun⟩ (.inl (if_neg h))
      injection heq with heq
      exact h heq.symm
  | lookup b =>
    refine .left ⟨nofun, nofun⟩ ?_
    by_cases h : a = b
    · simp only [settled, if_pos h]
      exact purgedEntry_unexpired now entry
    · exact .inl (if_neg h)
  | purgeExpired => exact .left ⟨nofun, nofun⟩ (purgedEntry_unexpired now entry)
  | isUnlocked | unlockedAddresses | size | isEmpty => exact .left ⟨nofun, nofun⟩ (.inl rfl)

end

end Keyring.UnlockRegistry
