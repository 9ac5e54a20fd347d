/-!
# Byte strings

File contents, secrets, hashes and signed messages are lists of bytes. A value whose length is part
of its meaning (a hash, a salt) is a `FixedBytes n`, which carries the length as a proof.
-/

-- A power of natural numbers is `Nat.pow`, also where a library brings the powers of a monoid.
attribute [instance (high), default_instance high] instPowNat

namespace Keyring

/-- A string of bytes. -/
abbrev Bytes := List UInt8

/-- A byte string of exactly `n` bytes. -/
structure FixedBytes (n : Nat) where
  /-- The bytes, in order. -/
  toBytes : Bytes
  /-- There are `n` of them. -/
  length_toBytes : toBytes.length = n
deriving DecidableEq

namespace FixedBytes

attribute [simp] length_toBytes

@[ext] theorem ext {n : Nat} {a b : FixedBytes n} (h : a.toBytes = b.toBytes) : a = b := by
  cases a; cases b; cases h; rfl

/-- The byte string as a fixed one, if it has the right length. -/
def ofBytes? (n : Nat) (bytes : Bytes) : Option (FixedBytes n) :=
  if h : bytes.length = n then some ⟨bytes, h⟩ else none

theorem ofBytes?_toBytes {n : Nat} (a : FixedBytes n) : ofBytes? n a.toBytes = some a := by
  simp [ofBytes?]

theorem ofBytes?_eq_some_iff {n : Nat} {bytes : Bytes} {a : FixedBytes n} :
    ofBytes? n bytes = some a ↔ bytes = a.toBytes := by
  constructor
  · intro h
    unfold ofBytes? at h
    split at h
    · cases h; rfl
    · cases h
  · rintro rfl
    exact ofBytes?_toBytes a

end FixedBytes

/-- The bitwise difference of two byte strings, as long as the shorter one. -/
def Bytes.xor (a b : Bytes) : Bytes :=
  List.zipWith (· ^^^ ·) a b

@[simp] theorem Bytes.length_xor (a b : Bytes) : (Bytes.xor a b).length = min a.length b.length := by
  simp [Bytes.xor]

end Keyring
