import Mathlib.Data.List.Induction
import Keyring.Proofs.Keyfile.Codec
import Keyring.Proofs.Unlock.Purges

/-!
# The timeline of unlocked accounts

The registry drops an expired entry only when it meets one, and what it replies is as if it dropped each at
its deadline. An account is unlocked by the last request to insert or remove its entry, if that was an
insert whose time is not over (`Live`). The invariant ties an entry that is not expired to that request
(`get?_run_iff`): the requests that drop an entry meet it expired, and by then its time was over.
-/

namespace Keyring.UnlockRegistry

/-- The last of the requests that inserted or removed an entry of the account inserted the given one. -/
def Stands (past : List Timed) (a : Address) (unlock : Unlock) : Prop :=
  ∃ earlier timed later, past = earlier ++ timed :: later ∧ timed.Inserts a unlock ∧
    ∀ other ∈ later, other.Passes a

/-- The account was last inserted with the key and not removed since, and the insert's time is not over:
it had no timeout or a timeout of zero, or the clock does not reach the deadline or has not reached it. -/
def Live (past : List Timed) (now : Instant) (a : Address) (key : KeyPair) : Prop :=
  ∃ earlier start timeout later, past = earlier ++ ⟨start, .insert a key timeout⟩ :: later ∧
    (∀ other ∈ later, other.Passes a) ∧
    (timeout = none ∨ timeout = some 0 ∨
      ∃ d, timeout = some d ∧ (clockEnd ≤ start + d ∨ now < start + d))

section
variable {past : List Timed} {now : Instant} {a : Address} {unlock : Unlock}

/-- After one more request an entry stands if it is the one that was inserted, or stood and was passed over.
-/
theorem stands_concat_iff {timed : Timed} :
    Stands (past ++ [timed]) a unlock ↔
      timed.Inserts a unlock ∨ Stands past a unlock ∧ timed.Passes a :=
  Manager.exists_last_concat_iff

/-- Nothing stands before the first request. -/
theorem not_stands_nil : ¬ Stands [] a unlock := by
  rintro ⟨earlier, timed, later, h, -⟩
  cases earlier <;> cases h

/-- A request does to the entry of an account one step. -/
theorem step_perform (registry : UnlockRegistry) (timed : Timed) (a : Address) :
    Step (timed.Inserts a) (timed.Passes a) timed.now (registry.entries.get? a)
      ((registry.perform timed.now timed.request).2.entries.get? a) := by
  rw [get?_perform]
  exact step_settled ..

/-- What is at hand for an account after a run stands, be it expired or not. -/
theorem stands_of_get?_run (h : (empty.run past).entries.get? a = some unlock) :
    Stands past a unlock := by
  induction past using List.reverseRecOn with
  | nil => cases h
  | append_singleton past timed ih =>
    rw [run_concat] at h
    rw [stands_concat_iff]
    exact ((step_perform _ timed a).of_eq_some h).imp_right (And.imp_left ih)

/-- What is at hand for an account after a run, and is not expired, is what stands. -/
theorem get?_run_iff (hclock : ∀ timed ∈ past, timed.now ≤ now) (hlive : unlock.isExpired now = false) :
    (empty.run past).entries.get? a = some unlock ↔ Stands past a unlock := by
  induction past using List.reverseRecOn with
  | nil => exact ⟨nofun, fun h => absurd h not_stands_nil⟩
  | append_singleton past timed ih =>
    have ih := ih fun other hother => hclock other (List.mem_append_left _ hother)
    have hnow : timed.now ≤ now := hclock timed (List.mem_append_right _ List.mem_cons_self)
    rw [run_concat, stands_concat_iff, ← ih]
    exact (step_perform _ timed a).eq_some_iff (fun _ _ => Timed.Inserts.unique)
      (fun _ => Timed.Inserts.not_passes) hnow hlive

/-- An account is live with a key exactly if there is an entry with the key that is not expired. -/
theorem live_iff (hclock : ∀ timed ∈ past, timed.now ≤ now) {key : KeyPair} :
    Live past now a key ↔
      ∃ unlock, (empty.run past).entries.get? a = some unlock ∧ unlock.isExpired now = false ∧
        unlock.key = key := by
  constructor
  · rintro ⟨earlier, start, timeout, later, hpast, hlater, htime⟩
    have hlive : (Unlock.mk key (deadline? start timeout)).isExpired now = false :=
      isExpired_deadline?_iff.2 htime
    have hstands : Stands past a ⟨key, deadline? start timeout⟩ :=
      ⟨earlier, ⟨start, .insert a key timeout⟩, later, hpast, ⟨timeout, rfl, rfl⟩, hlater⟩
    exact ⟨_, (get?_run_iff hclock hlive).2 hstands, hlive, rfl⟩
  · rintro ⟨⟨_, deadline⟩, hfound, hlive, rfl⟩
    obtain ⟨earlier, ⟨start, request⟩, later, hpast, ⟨timeout, hrequest, hdeadline⟩, hlater⟩ :=
      (get?_run_iff hclock hlive).1 hfound
    cases hrequest
    have hdeadline : deadline = deadline? start timeout := hdeadline
    subst hdeadline
    exact ⟨earlier, start, timeout, later, hpast, hlater, isExpired_deadline?_iff.1 hlive⟩

/-! ## Replies -/

/-- A lookup that is replied with a key is one of a live entry. -/
theorem reply_lookup_iff (hclock : ∀ timed ∈ past, timed.now ≤ now) {key : KeyPair} :
    reply past now (.lookup a) = .found (.unlocked key) ↔ Live past now a key := by
  rw [live_iff hclock, ← lookup_unlocked_iff]
  constructor
  · intro h
    injection h
  · exact congrArg Reply.found

/-- An account is unlocked after a run exactly if it has a live entry. -/
theorem isUnlocked_run_iff (hclock : ∀ timed ∈ past, timed.now ≤ now) :
    (empty.run past).isUnlocked now a = true ↔ ∃ key, Live past now a key := by
  rw [isUnlocked_iff]
  constructor
  · rintro ⟨unlock, hfound, hlive⟩
    exact ⟨unlock.key, (live_iff hclock).2 ⟨unlock, hfound, hlive, rfl⟩⟩
  · rintro ⟨key, h⟩
    obtain ⟨unlock, hfound, hlive, -⟩ := (live_iff hclock).1 h
    exact ⟨unlock, hfound, hlive⟩

/-- The unlocked accounts are those that are told to be unlocked. -/
theorem mem_unlockedAddresses_iff (registry : UnlockRegistry) (now : Instant) (a : Address) :
    a ∈ registry.unlockedAddresses now ↔ registry.isUnlocked now a = true := by
  unfold unlockedAddresses isUnlocked
  rw [AddressMap.mem_addresses_iff, get?_live]
  cases registry.entries.get? a with
  | none => simp
  | some unlock => cases hexpired : unlock.isExpired now <;> simp [hexpired, Option.filter]

/-- They are told in ascending order. -/
theorem ascending_unlockedAddresses (registry : UnlockRegistry) (now : Instant) :
    (registry.unlockedAddresses now).Pairwise fun a b => Address.before a b = true :=
  List.pairwise_map.2 (registry.live now).entries.ascending

/-! ## Expired entries -/

/-- Nothing is at hand for an account for which nothing was, as long as nothing is inserted. -/
theorem get?_run_eq_none {registry : UnlockRegistry} {later : List Timed}
    (h : registry.entries.get? a = none) (hlater : ∀ other ∈ later, other.Passes a) :
    (registry.run later).entries.get? a = none := by
  induction later generalizing registry with
  | nil => exact h
  | cons timed later ih =>
    rw [run_cons]
    refine ih ?_ fun other hother => hlater other (List.mem_cons_of_mem _ hother)
    refine Option.eq_none_iff_forall_ne_some.2 fun unlock hsome => ?_
    rcases (step_perform registry timed a).of_eq_some hsome with hinserts | ⟨hbefore, -⟩
    · exact hinserts.not_passes (hlater timed List.mem_cons_self)
    · rw [h] at hbefore
      cases hbefore

/-- A lookup that finds an entry expired leaves none. -/
theorem of_lookup_expired {registry : UnlockRegistry} (h : (registry.lookup now a).1 = .expired) :
    (∃ unlock, registry.entries.get? a = some unlock) ∧
      (registry.lookup now a).2.entries.get? a = none := by
  unfold lookup at h ⊢
  cases hentry : registry.entries.get? a with
  | none =>
    rw [hentry] at h
    cases h
  | some unlock =>
    cases hexpired : unlock.isExpired now with
    | false =>
      rw [hentry] at h
      simp [hexpired] at h
    | true => exact ⟨⟨unlock, rfl⟩, by simp [hexpired]⟩

/-- An account that is found expired was inserted, and not found expired since. -/
theorem exists_insert_of_expired (h : reply past now (.lookup a) = .found .expired) :
    ∃ earlier start key timeout later, past = earlier ++ ⟨start, .insert a key timeout⟩ :: later ∧
      ∀ between instant rest, later = between ++ ⟨instant, .lookup a⟩ :: rest →
        reply (earlier ++ ⟨start, .insert a key timeout⟩ :: between) instant (.lookup a) ≠
          .found .expired := by
  have hfound : ((empty.run past).lookup now a).1 = .expired := by
    injection h
  obtain ⟨⟨unlock, hsome⟩, -⟩ := of_lookup_expired hfound
  obtain ⟨earlier, ⟨start, request⟩, later, hpast, ⟨timeout, hrequest, -⟩, hlater⟩ :=
    stands_of_get?_run hsome
  cases hrequest
  refine ⟨earlier, start, unlock.key, timeout, later, hpast, ?_⟩
  rintro between instant rest rfl hexpired
  -- The entry was dropped then, and nothing was inserted since that could be found expired now.
  have hdropped : (empty.run (earlier ++ ⟨start, .insert a unlock.key timeout⟩ :: between ++
      [⟨instant, .lookup a⟩])).entries.get? a = none := by
    rw [run_concat]
    refine (of_lookup_expired ?_).2
    injection hexpired
  have hnone : (empty.run past).entries.get? a = none := by
    have hsplit : past = (earlier ++ ⟨start, .insert a unlock.key timeout⟩ :: between ++
        [⟨instant, .lookup a⟩]) ++ rest := by
      rw [hpast]
      simp
    rw [hsplit, run_append]
    refine get?_run_eq_none hdropped fun other hother => hlater other ?_
    exact List.mem_append_right _ (List.mem_cons_of_mem _ hother)
  rw [hnone] at hsome
  cases hsome

/-! ## The timeline -/

/-- The registry replies as if each entry were gone at its deadline, whenever the requests before were made
by now: a lookup finds the key of an account that is live; a remove and the question whether an account is
unlocked are answered with whether it is live; the unlocked accounts are those that are live, in ascending
order. An account is found expired once for an insert at most. Further requests to purge make no difference
to the replies, but for the counts and for a lookup that finds nothing where it would have found an expired
entry. -/
theorem reply_follows_timeline {past : List Timed} {now : Instant}
    (hclock : ∀ timed ∈ past, timed.now ≤ now) :
    (∀ a key, reply past now (.lookup a) = .found (.unlocked key) ↔ Live past now a key) ∧
    (∀ a, ∃ unlocked, reply past now (.remove a) = .told unlocked ∧
      (unlocked = true ↔ ∃ key, Live past now a key)) ∧
    (∀ a, ∃ unlocked, reply past now (.isUnlocked a) = .told unlocked ∧
      (unlocked = true ↔ ∃ key, Live past now a key)) ∧
    (∃ listed, reply past now .unlockedAddresses = .addresses listed ∧
      listed.Pairwise (fun a b => Address.before a b = true) ∧
      ∀ a, a ∈ listed ↔ ∃ key, Live past now a key) ∧
    (∀ a, reply past now (.lookup a) = .found .expired →
      ∃ earlier start key timeout later, past = earlier ++ ⟨start, .insert a key timeout⟩ :: later ∧
        ∀ between instant rest, later = between ++ ⟨instant, .lookup a⟩ :: rest →
          reply (earlier ++ ⟨start, .insert a key timeout⟩ :: between) instant (.lookup a) ≠
            .found .expired) ∧
    ∀ fewer, AddsPurges fewer past → ∀ request,
      Agree request (reply fewer now request) (reply past now request) := by
  refine ⟨fun a key => reply_lookup_iff hclock, fun a => ?_, fun a => ?_, ?_, fun a => ?_, ?_⟩
  · exact ⟨_, rfl, isUnlocked_run_iff hclock⟩
  · exact ⟨_, rfl, isUnlocked_run_iff hclock⟩
  · refine ⟨_, rfl, ascending_unlockedAddresses _ _, fun a => ?_⟩
    rw [mem_unlockedAddresses_iff, isUnlocked_run_iff hclock]
  · exact exists_insert_of_expired
  · exact fun fewer hpurges request => agree_of_addsPurges hpurges hclock request

/-- An account that is inserted for five nanoseconds is found four nanoseconds later and not after five,
whether or not a purge was asked for in between. -/
theorem reply_follows_timeline_at_deadline :
    (∀ timed ∈ [(⟨0, .insert .zero .one (some 5)⟩ : Timed), ⟨4, .purgeExpired⟩], timed.now ≤ 5) ∧
      reply [⟨0, .insert .zero .one (some 5)⟩, ⟨4, .purgeExpired⟩] 4 (.lookup .zero) =
        .found (.unlocked .one) ∧
      reply [⟨0, .insert .zero .one (some 5)⟩, ⟨4, .purgeExpired⟩] 5 (.isUnlocked .zero) = .told false ∧
      Agree (.lookup .zero) (reply [⟨0, .insert .zero .one (some 5)⟩] 5 (.lookup .zero))
        (reply [⟨0, .insert .zero .one (some 5)⟩, ⟨4, .purgeExpired⟩] 5 (.lookup .zero)) := by
  have hclock (now : Instant) (hle : 4 ≤ now) :
      ∀ timed ∈ [(⟨0, .insert .zero .one (some 5)⟩ : Timed), ⟨4, .purgeExpired⟩], timed.now ≤ now := by
    simpa using hle
  have hmore : AddsPurges [⟨0, .insert .zero .one (some 5)⟩]
      [⟨0, .insert .zero .one (some 5)⟩, ⟨4, .purgeExpired⟩] := .both _ (.purge 4 .nil)
  have hbefore := reply_follows_timeline (hclock 4 (by decide))
  obtain ⟨-, -, hunlocked, -, -, hagree⟩ := reply_follows_timeline (hclock 5 (by decide))
  refine ⟨hclock 5 (by decide), (hbefore.1 .zero .one).2 ?_, ?_, hagree _ hmore _⟩
  · refine ⟨[], 0, some 5, [⟨4, .purgeExpired⟩], rfl, fun other hother => ?_, ?_⟩
    · cases List.mem_singleton.1 hother
      exact ⟨nofun, nofun⟩
    · exact .inr (.inr ⟨5, rfl, .inr (by decide)⟩)
  · obtain ⟨unlocked, hreply, htold⟩ := hunlocked .zero
    cases unlocked with
    | false => exact hreply
    | true => cases hreply

end

end Keyring.UnlockRegistry
