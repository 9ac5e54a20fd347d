import Keyring.Address.Map
import Keyring.KeyPair

/-!
# Unlocked accounts

Unlocking keeps a decrypted key at hand until a deadline. Nothing happens at the deadline itself: from
then on the entry counts as expired, and it is dropped by the first lookup that meets it or by a purge.
Instants are arguments, so that every operation is a function.
-/

namespace Keyring

/-- An instant, in nanoseconds since the clock's start. -/
abbrev Instant := Nat

/-- A length of time, in nanoseconds. -/
abbrev Duration := Nat

/-- The first instant, in nanoseconds, that the clock cannot tell: its seconds are signed words of
sixty-four bits. -/
def clockEnd : Nat := 2 ^ 63 * 10 ^ 9

/-- The deadline that a timeout sets. There is none without a timeout, for a timeout of zero, and
where the clock does not reach. -/
def deadline? (now : Instant) : Option Duration → Option Instant
  | none => none
  | some timeout => if timeout ≠ 0 ∧ now + timeout < clockEnd then some (now + timeout) else none

/-- A key kept at hand, and until when. Reference: `UnlockEntry`. -/
structure Unlock where
  key : KeyPair
  deadline : Option Instant
deriving DecidableEq

/-- The deadline has come. Reference: `is_expired` of `UnlockEntry`. -/
def Unlock.isExpired (unlock : Unlock) (now : Instant) : Bool :=
  unlock.deadline.any fun deadline => deadline ≤ now

/-- What is found at an address. Reference: `Lookup`. -/
inductive Lookup where
  | unlocked (key : KeyPair)
  /-- There was an entry, which is dropped. -/
  | expired
  | absent
deriving DecidableEq

/-- The unlocked accounts. Reference: `UnlockRegistry`. -/
structure UnlockRegistry where
  entries : AddressMap Unlock

namespace UnlockRegistry

/-- No account is unlocked. -/
def empty : UnlockRegistry :=
  ⟨.empty⟩

/-- Keeps a key at hand, in place of what was there for the address. Reference: `insert` of
`UnlockRegistry`. -/
def insert (registry : UnlockRegistry) (now : Instant) (address : Address) (key : KeyPair)
    (timeout : Option Duration) : UnlockRegistry :=
  ⟨registry.entries.insert address ⟨key, deadline? now timeout⟩⟩

/-- What is found at an address, and the registry without an expired entry there. Reference: `lookup` of
`UnlockRegistry`. -/
def lookup (registry : UnlockRegistry) (now : Instant) (address : Address) :
    Lookup × UnlockRegistry :=
  match registry.entries.get? address with
  | none => (.absent, registry)
  | some unlock =>
    if unlock.isExpired now then (.expired, ⟨registry.entries.erase address⟩)
    else (.unlocked unlock.key, registry)

/-- The account is unlocked. Reference: `is_unlocked` of `UnlockRegistry`. -/
def isUnlocked (registry : UnlockRegistry) (now : Instant) (address : Address) : Bool :=
  (registry.entries.get? address).any fun unlock => !unlock.isExpired now

/-- Drops the entry of an address, and tells whether it was unlocked until now. Reference: `remove` of
`UnlockRegistry`. -/
def remove (registry : UnlockRegistry) (now : Instant) (address : Address) :
    Bool × UnlockRegistry :=
  (registry.isUnlocked now address, ⟨registry.entries.erase address⟩)

/-- The entries that are not expired. -/
def live (registry : UnlockRegistry) (now : Instant) : UnlockRegistry :=
  ⟨registry.entries.filter fun _ unlock => !unlock.isExpired now⟩

/-- The addresses of the unlocked accounts, in ascending order. Reference: `unlocked_addresses` of
`UnlockRegistry`. -/
def unlockedAddresses (registry : UnlockRegistry) (now : Instant) : List Address :=
  (registry.live now).entries.addresses

/-- The number of entries, expired ones too. Reference: `len` of `UnlockRegistry`. -/
def size (registry : UnlockRegistry) : Nat :=
  registry.entries.size

/-- There are no entries. Reference: `is_empty` of `UnlockRegistry`. -/
def isEmpty (registry : UnlockRegistry) : Bool :=
  registry.size = 0

/-- Drops the expired entries, and tells how many there were. Reference: `purge_expired` of
`UnlockRegistry`. -/
def purgeExpired (registry : UnlockRegistry) (now : Instant) : Nat × UnlockRegistry :=
  (registry.size - (registry.live now).size, registry.live now)

/-- What is shown of a registry: how many entries it has. -/
def summary (registry : UnlockRegistry) : String :=
  "UnlockRegistry \x7b entries: " ++ toString registry.size ++ " \x7d"

/-! ## What an address's entry is after an operation -/

@[simp] theorem get?_insert (registry : UnlockRegistry) (now : Instant) (a b : Address)
    (key : KeyPair) (timeout : Option Duration) :
    (registry.insert now a key timeout).entries.get? b =
      if b = a then some ⟨key, deadline? now timeout⟩ else registry.entries.get? b :=
  AddressMap.get?_insert ..

@[simp] theorem get?_remove (registry : UnlockRegistry) (now : Instant) (a b : Address) :
    (registry.remove now a).2.entries.get? b =
      if b = a then none else registry.entries.get? b :=
  AddressMap.get?_erase ..

@[simp] theorem get?_live (registry : UnlockRegistry) (now : Instant) (a : Address) :
    (registry.live now).entries.get? a =
      (registry.entries.get? a).filter fun unlock => !unlock.isExpired now :=
  AddressMap.get?_filter ..

end UnlockRegistry

end Keyring
