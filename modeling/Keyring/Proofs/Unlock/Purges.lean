import Keyring.Proofs.Unlock.Requests

/-!
# Purging makes no difference

A registry from which expired entries were purged holds the same entries but for those that are expired
anyway (`Purged`). Every request keeps that so, and purging on one side does too, so that two runs which
differ by purges alone end in registries that reply alike (`agree_of_addsPurges`): only the counts tell, and a
lookup finds nothing where it would have found an expired entry.
-/

namespace Keyring

/-- A map that has some of the entries of another one has no more of them. -/
theorem AddressMap.size_le {α : Type} {m n : AddressMap α}
    (h : ∀ a, n.get? a = m.get? a ∨ n.get? a = none) : n.size ≤ m.size := by
  have heq : n = m.filter fun a _ => (n.get? a).isSome := by
    refine ext_get? fun a => ?_
    rw [get?_filter]
    rcases h a with hsame | hnone
    · rw [hsame]
      cases m.get? a <;> rfl
    · rw [hnone]
      cases m.get? a <;> rfl
  rw [heq]
  exact List.length_filter_le _ _

namespace UnlockRegistry

/-- The second registry lacks some entries of the first one that are expired. -/
def Purged (now : Instant) (registry purged : UnlockRegistry) : Prop :=
  ∀ a, PurgedEntry now (registry.entries.get? a) (purged.entries.get? a)

/-- The second run is the first one with requests to purge put in between. -/
inductive AddsPurges : List Timed → List Timed → Prop
  | nil : AddsPurges [] []
  | both {requests more : List Timed} (timed : Timed) : AddsPurges requests more →
      AddsPurges (timed :: requests) (timed :: more)
  | purge {requests more : List Timed} (now : Instant) : AddsPurges requests more →
      AddsPurges requests (⟨now, .purgeExpired⟩ :: more)

/-- How a reply is related to the reply after more purges. -/
def Agree : Request → (reply purged : Reply) → Prop
  | .lookup _, reply, purged =>
    purged = reply ∨ reply = .found .expired ∧ purged = .found .absent
  | .purgeExpired, reply, purged | .size, reply, purged =>
    ∃ count fewer, reply = .counted count ∧ purged = .counted fewer ∧ fewer ≤ count
  | .isEmpty, reply, purged =>
    ∃ holds earlier, reply = .told holds ∧ purged = .told earlier ∧ (holds = true → earlier = true)
  | .insert .., reply, purged | .remove _, reply, purged | .isUnlocked _, reply, purged
  | .unlockedAddresses, reply, purged => purged = reply

section
variable {now : Instant} {registry purged : UnlockRegistry}

/-- A registry lacks nothing of itself. -/
theorem Purged.refl (now : Instant) (registry : UnlockRegistry) : Purged now registry registry :=
  fun _ => .inl rfl

/-- Whatever is expired is expired in the end, so that dropping it makes no difference. -/
theorem PurgedEntry.unexpired {entry purged : Option Unlock} {earlier : Instant}
    (h : PurgedEntry now entry purged) (hle : earlier ≤ now) :
    PurgedEntry now entry (unexpired earlier purged) := by
  rcases purgedEntry_unexpired earlier purged with hsame | ⟨hnone, unlock, hfound, hexpired⟩
  · rw [hsame]
    exact h
  · rcases h with rfl | ⟨rfl, -⟩
    · exact .inr ⟨hnone, unlock, hfound, Unlock.isExpired_mono hle hexpired⟩
    · cases hfound

/-- A request does alike to an entry and to one that was purged. -/
theorem PurgedEntry.settled {entry purged : Option Unlock} (h : PurgedEntry now entry purged)
    (timed : Timed) (a : Address) :
    PurgedEntry now (settled timed a entry) (settled timed a purged) := by
  rcases settled_cases timed a with hsets | hkeeps | hdrops
  · exact .inl (hsets purged entry)
  · rw [hkeeps, hkeeps]
    exact h
  · rw [hdrops, hdrops]
    rcases h with rfl | ⟨rfl, unlock, rfl, hexpired⟩
    · exact .inl rfl
    -- The purged entry is gone already; the other one goes now or stays expired.
    · rcases purgedEntry_unexpired timed.now (some unlock) with hsame | ⟨hnone, -⟩
      · rw [hsame]
        exact .inr ⟨rfl, unlock, rfl, hexpired⟩
      · rw [hnone]
        exact .inl rfl

/-- A request that both registries meet keeps the one a purged form of the other. -/
theorem Purged.perform (h : Purged now registry purged) (timed : Timed) :
    Purged now (registry.perform timed.now timed.request).2
      (purged.perform timed.now timed.request).2 := by
  intro a
  rw [get?_perform, get?_perform]
  exact (h a).settled timed a

/-- One more purge, with a clock that does not run ahead, keeps it so, too. -/
theorem Purged.purge (h : Purged now registry purged) {earlier : Instant} (hle : earlier ≤ now) :
    Purged now registry (purged.perform earlier .purgeExpired).2 := by
  intro a
  rw [get?_perform purged ⟨earlier, .purgeExpired⟩]
  exact (h a).unexpired hle

/-- Runs that differ by purges alone end in registries that differ by expired entries alone. -/
theorem Purged.run {requests more : List Timed} (hmore : AddsPurges requests more)
    (hclock : ∀ timed ∈ more, timed.now ≤ now) (h : Purged now registry purged) :
    Purged now (registry.run requests) (purged.run more) := by
  induction hmore generalizing registry purged with
  | nil => exact h
  | both timed hmore ih =>
    rw [run_cons, run_cons]
    exact ih (fun other hother => hclock other (List.mem_cons_of_mem _ hother)) (h.perform timed)
  | purge earlier hmore ih =>
    rw [run_cons]
    have hle : earlier ≤ now := hclock ⟨earlier, .purgeExpired⟩ List.mem_cons_self
    exact ih (fun other hother => hclock other (List.mem_cons_of_mem _ hother)) (h.purge hle)

/-! ## Replies -/

/-- A lookup finds the same in both, except that an expired entry may be gone. -/
theorem Purged.lookup (h : Purged now registry purged) (a : Address) :
    (purged.lookup now a).1 = (registry.lookup now a).1 ∨
      (registry.lookup now a).1 = .expired ∧ (purged.lookup now a).1 = .absent := by
  unfold UnlockRegistry.lookup
  rcases h a with hsame | ⟨hnone, unlock, hfound, hexpired⟩
  · rw [hsame]
    cases registry.entries.get? a with
    | none => exact .inl rfl
    | some unlock => cases hexpired : unlock.isExpired now <;> simp [hexpired]
  · rw [hnone, hfound]
    simp [hexpired]

/-- The same accounts are unlocked in both. -/
theorem Purged.isUnlocked (h : Purged now registry purged) (a : Address) :
    purged.isUnlocked now a = registry.isUnlocked now a := by
  unfold UnlockRegistry.isUnlocked
  rcases h a with hsame | ⟨hnone, unlock, hfound, hexpired⟩
  · rw [hsame]
  · simp [hnone, hfound, hexpired]

/-- The same entries are live in both. -/
theorem Purged.live (h : Purged now registry purged) : purged.live now = registry.live now := by
  have hentries : (purged.live now).entries = (registry.live now).entries := by
    refine AddressMap.ext_get? fun a => ?_
    rw [get?_live, get?_live]
    rcases h a with hsame | ⟨hnone, unlock, hfound, hexpired⟩
    · rw [hsame]
    · simp [hnone, hfound, hexpired, Option.filter]
  exact congrArg UnlockRegistry.mk hentries

/-- The purged one has no more entries. -/
theorem Purged.size_le (h : Purged now registry purged) : purged.size ≤ registry.size :=
  AddressMap.size_le fun a => (h a).imp_right fun hnone => hnone.1

/-- Registries that differ by expired entries reply alike. -/
theorem Purged.agree (h : Purged now registry purged) (request : Request) :
    Agree request (registry.perform now request).1 (purged.perform now request).1 := by
  cases request with
  | insert a key timeout => rfl
  | lookup a =>
    rcases h.lookup a with hsame | ⟨hexpired, habsent⟩
    · exact .inl (congrArg Reply.found hsame)
    · exact .inr ⟨congrArg Reply.found hexpired, congrArg Reply.found habsent⟩
  | remove a => exact congrArg Reply.told (h.isUnlocked a)
  | isUnlocked a => exact congrArg Reply.told (h.isUnlocked a)
  | unlockedAddresses =>
    exact congrArg (fun live : UnlockRegistry => Reply.addresses live.entries.addresses) h.live
  | purgeExpired =>
    refine ⟨_, _, rfl, rfl, ?_⟩
    rw [h.live]
    exact Nat.sub_le_sub_right h.size_le _
  | size => exact ⟨_, _, rfl, rfl, h.size_le⟩
  | isEmpty =>
    refine ⟨_, _, rfl, rfl, fun hempty => ?_⟩
    have hzero : registry.size = 0 := of_decide_eq_true hempty
    have hle := h.size_le
    exact decide_eq_true (by omega)

/-- Requests to purge that were put in between make no difference to the next reply, but for the counts and
for a lookup that finds nothing where it would have found an expired entry. -/
theorem agree_of_addsPurges {past more : List Timed} (hmore : AddsPurges past more)
    (hclock : ∀ timed ∈ more, timed.now ≤ now) (request : Request) :
    Agree request (reply past now request) (reply more now request) :=
  ((Purged.refl now empty).run hmore hclock).agree request

end

end UnlockRegistry

end Keyring
