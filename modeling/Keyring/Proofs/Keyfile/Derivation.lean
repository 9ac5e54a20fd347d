import Keyring.Proofs.Bytes.Spelling
import Keyring.Proofs.Hash.Scrypt
import Keyring.Proofs.Keyfile.Authentic
import Keyring.Proofs.Storage.Effects

/-!
# Which derivations are accepted

The parameters of a keyfile are accepted in a region that is told over the integers (`KdfParams.InRegion`),
and the key is derived exactly there (`Envelope.derive_exact`). The words in which sizes are counted do not
change what is accepted: a word that stops at the largest one is still above the bound, and the logarithm of
a power of two fits in a byte. Of scrypt's own checks all but one are settled by those before them
(`ScryptRange.rejects_iff`).

The bound on memory is a bound on what scrypt keeps of a lane. The start of all lanes stays below it only if
there are not too many of them, and may be eight times as long (`KdfParams.areas_of_derivation`).
-/

namespace Keyring

open Keyfile (Error bind_eq_ok_iff check_eq_ok_iff of_bind_eq_error of_bind_eq_ok of_check_eq_error
  of_check_eq_ok hexPart_eq_ok_iff maxScryptMemory)
open Scrypt (Refusal Params Takes)

/-! ## Numbers in words -/

/-- The numbers that are told to be powers of two are the powers of two. -/
theorem isPowerOfTwo_iff {n : Nat} : isPowerOfTwo n = true ↔ ∃ k, n = 2 ^ k := by
  rw [isPowerOfTwo, decide_eq_true_eq]
  constructor
  · exact fun h => ⟨_, h⟩
  · rintro ⟨k, rfl⟩
    rw [Nat.log2_two_pow]

/-- There are no more zeros at the end than digits. -/
theorem trailingZeros_le (width n : Nat) : trailingZeros width n ≤ width := by
  induction width generalizing n with
  | zero => exact Nat.le_refl 0
  | succ width ih =>
    rw [trailingZeros]
    split
    · exact Nat.zero_le _
    · exact Nat.succ_le_succ (ih _)

/-- A power of two has as many zeros as its logarithm tells. -/
theorem trailingZeros_two_pow {width k : Nat} (h : k < width) : trailingZeros width (2 ^ k) = k := by
  induction width generalizing k with
  | zero => exact absurd h (Nat.not_lt_zero k)
  | succ width ih =>
    cases k with
    | zero => rfl
    | succ k =>
      have hodd : ¬ 2 ^ (k + 1) % 2 = 1 := by
        rw [Nat.pow_succ, Nat.mul_mod_left]
        decide
      have hhalf : 2 ^ (k + 1) / 2 = 2 ^ k := by
        rw [Nat.pow_succ, Nat.mul_div_cancel _ (by decide)]
      rw [trailingZeros, if_neg hodd, hhalf, ih (Nat.lt_of_succ_lt_succ h)]

section
variable {n r p dklen : UInt32}

/-- The number of zeros fits in a byte. -/
theorem toNat_logCost (n : UInt32) : (logCost n).toNat = trailingZeros 32 n.toNat := by
  have hle := trailingZeros_le 32 n.toNat
  rw [logCost, UInt8.toNat_ofNat']
  exact Nat.mod_eq_of_lt (by omega)

/-- The cost's logarithm is told by its zeros at the end. -/
theorem toNat_logCost_of_two_pow {k : Nat} (h : n.toNat = 2 ^ k) : (logCost n).toNat = k := by
  have hlt : 2 ^ k < 2 ^ 32 := h ▸ n.toNat_lt
  rw [toNat_logCost, h, trailingZeros_two_pow ((Nat.pow_lt_pow_iff_right (by decide)).1 hlt)]

/-- A product that is too large for a word is taken for the largest word. -/
theorem toNat_saturatingProduct (a b : UInt64) :
    (saturatingProduct a b).toNat = min (a.toNat * b.toNat) (2 ^ 64 - 1) := by
  unfold saturatingProduct
  split
  · next hword =>
    rw [UInt64.toNat_mul, Nat.mod_eq_of_lt hword, Nat.min_eq_left (by omega)]
  · next hlarge =>
    rw [Nat.min_eq_right (by omega)]
    rfl

/-- The bytes that are counted are those that are kept, up to the largest word. -/
theorem toNat_scryptMemory (n r : UInt32) :
    (scryptMemory n r).toNat = min (128 * n.toNat * r.toNat) (2 ^ 64 - 1) := by
  have hbound : n.toNat * r.toNat < 2 ^ 32 * 2 ^ 32 := Nat.mul_lt_mul'' n.toNat_lt r.toNat_lt
  have hword : n.toNat * r.toNat ≤ 2 ^ 64 - 1 := Nat.le_of_lt_succ hbound
  rw [scryptMemory, toNat_saturatingProduct, toNat_saturatingProduct, UInt32.toNat_toUInt64,
    UInt32.toNat_toUInt64, Nat.min_eq_left hword, Nat.mul_comm, ← Nat.mul_assoc]
  rfl

/-- Too much is counted exactly if it is too much. -/
theorem maxScryptMemory_lt_iff :
    maxScryptMemory < (scryptMemory n r).toNat ↔ maxScryptMemory < 128 * n.toNat * r.toNat := by
  have hmax : maxScryptMemory < 2 ^ 64 - 1 := by decide
  rw [toNat_scryptMemory]
  omega

/-! ## The region -/

/-- The numbers of scrypt are in range. -/
structure ScryptRange (n r p : UInt32) : Prop where
  cost : ∃ k, 1 ≤ k ∧ n.toNat = 2 ^ k
  r_pos : 1 ≤ r.toNat
  p_pos : 1 ≤ p.toNat
  p_le : p.toNat ≤ 16
  memory_le : 128 * n.toNat * r.toNat ≤ 2 ^ 30

/-- The parameters that are accepted under a name. -/
def KdfParams.InRegion (kdf : String) : KdfParams → Prop
  | pbkdf2 dklen c prf salt => kdf = "pbkdf2" ∧ prf = "hmac-sha256" ∧ 1 ≤ c.toNat ∧ c.toNat ≤ 10000000 ∧
    32 ≤ dklen.toNat ∧ dklen.toNat ≤ 64 ∧ Hex.IsText salt.toList
  | scrypt dklen n r p salt => kdf = "scrypt" ∧ ScryptRange n r p ∧ 32 ≤ dklen.toNat ∧ dklen.toNat ≤ 64 ∧
    Hex.IsText salt.toList ∧ n.toNat.log2 < 16 * r.toNat

/-- The length that is asked for. -/
def KdfParams.length : KdfParams → Nat
  | pbkdf2 dklen _ _ _ => dklen.toNat
  | scrypt dklen _ _ _ _ => dklen.toNat

namespace ScryptRange

/-- The cost is at least two. -/
theorem two_le (h : ScryptRange n r p) : 2 ≤ n.toNat := by
  obtain ⟨k, hk, hn⟩ := h.cost
  rw [hn]
  exact Nat.le_self_pow (by omega) 2

/-- There are few enough blocks in a lane, because two values at least are kept of it. -/
theorem r_le (h : ScryptRange n r p) : r.toNat ≤ 2 ^ 22 := by
  have hkept : 256 * r.toNat ≤ 128 * n.toNat * r.toNat :=
    Nat.mul_le_mul_right _ (by have := h.two_le; omega)
  have := h.memory_le
  omega

/-- The block size and the number of lanes have a bounded product. -/
theorem mul_le (h : ScryptRange n r p) : r.toNat * p.toNat ≤ 2 ^ 22 * 16 :=
  Nat.mul_le_mul h.r_le h.p_le

/-- The cost's logarithm is that of the number. -/
theorem toNat_logCost_eq (h : ScryptRange n r p) : (logCost n).toNat = n.toNat.log2 := by
  obtain ⟨k, -, hn⟩ := h.cost
  rw [toNat_logCost_of_two_pow hn, hn, Nat.log2_two_pow]

/-- The cost is the power of two that its logarithm tells. -/
theorem two_pow_logCost (h : ScryptRange n r p) : 2 ^ (logCost n).toNat = n.toNat := by
  obtain ⟨k, -, hn⟩ := h.cost
  rw [toNat_logCost_of_two_pow hn, hn]

/-- In range only one check of scrypt can reject the numbers. -/
theorem rejects_iff (h : ScryptRange n r p) (refusal : Refusal) :
    refusal.Rejects (logCost n).toNat r.toNat p.toNat ↔
      refusal = .cost ∧ 16 * r.toNat ≤ n.toNat.log2 := by
  have hr := h.r_le
  have hr_pos := h.r_pos
  have hp_pos := h.p_pos
  have hmul := h.mul_le
  cases refusal with
  | range =>
    have hlog : (logCost n).toNat ≤ 32 := toNat_logCost n ▸ trailingZeros_le 32 n.toNat
    simp only [Refusal.Rejects, reduceCtorEq, false_and, iff_false]
    omega
  | laneSize =>
    simp only [Refusal.Rejects, reduceCtorEq, false_and, iff_false]
    omega
  | keptSize =>
    have hmemory := h.memory_le
    simp only [Refusal.Rejects, h.two_pow_logCost, reduceCtorEq, false_and, iff_false]
    omega
  | startSize =>
    simp only [Refusal.Rejects, Nat.mul_assoc, reduceCtorEq, false_and, iff_false]
    omega
  | cost => simp only [Refusal.Rejects, h.toNat_logCost_eq, true_and]
  | lanes =>
    simp only [Refusal.Rejects, reduceCtorEq, false_and, iff_false]
    omega

/-- In range scrypt takes the numbers if a lane tells enough of them. -/
theorem ofNumbers_eq_ok_iff (h : ScryptRange n r p) {params : Params} :
    Params.ofNumbers (logCost n) r p = .ok params ↔
      params = ⟨logCost n, r, p⟩ ∧ n.toNat.log2 < 16 * r.toNat := by
  simp only [Params.ofNumbers_eq_ok_iff, h.rejects_iff, not_and, Nat.not_le, forall_eq]

/-- In range scrypt refuses the numbers for no other reason than that a lane tells too few. -/
theorem ofNumbers_eq_error_iff (h : ScryptRange n r p) {refusal : Refusal} :
    Params.ofNumbers (logCost n) r p = .error refusal ↔
      refusal = .cost ∧ 16 * r.toNat ≤ n.toNat.log2 := by
  constructor
  · exact fun herror => (h.rejects_iff refusal).1 (Params.rejects_of_ofNumbers herror)
  · rintro ⟨rfl, hcost⟩
    cases hanswer : Params.ofNumbers (logCost n) r p with
    | ok params =>
      have := (h.ofNumbers_eq_ok_iff.1 hanswer).2
      omega
    | error found => rw [((h.rejects_iff found).1 (Params.rejects_of_ofNumbers hanswer)).1]

end ScryptRange

/-- Every length that is derived is one that scrypt takes. -/
theorem takes_of_le (h : 32 ≤ dklen.toNat) : Takes dklen.toNat := by
  have := dklen.toNat_lt
  exact ⟨by omega, by omega⟩

end

/-! ## What is accepted -/

/-- A length is accepted between 32 and 64, and kept. -/
theorem derivedLength_eq_ok_iff {dklen : UInt32} {length : Nat} : derivedLength dklen = .ok length ↔
    (32 ≤ dklen.toNat ∧ dklen.toNat ≤ 64) ∧ dklen.toNat = length := by
  unfold derivedLength
  split
  · next hrange => exact ⟨fun h => ⟨hrange, Except.ok.inj h⟩, fun h => congrArg _ h.2⟩
  · next hrange => exact ⟨nofun, fun h => absurd h.1 hrange⟩

/-- The name and the numbers that PBKDF2 is accepted with. -/
theorem derivation_pbkdf2_iff {kdf prf salt : String} {dklen c : UInt32} {d : Derivation} :
    (KdfParams.pbkdf2 dklen c prf salt).derivation kdf = .ok d ↔
      (kdf = "pbkdf2" ∧ prf = "hmac-sha256") ∧ (1 ≤ c.toNat ∧ c.toNat ≤ 10000000) ∧
        (32 ≤ dklen.toNat ∧ dklen.toNat ≤ 64) ∧
        ∃ bytes, Hex.ofText? salt = some bytes ∧ .pbkdf2 bytes c.toNat dklen.toNat = d := by
  have hname : ¬ (kdf ≠ "pbkdf2" ∨ prf ≠ "hmac-sha256") ↔ kdf = "pbkdf2" ∧ prf = "hmac-sha256" := by
    rw [not_or, Decidable.not_not, Decidable.not_not]
  have hcount : ¬ (c.toNat = 0 ∨ c.toNat > Keyfile.maxIterations) ↔ 1 ≤ c.toNat ∧ c.toNat ≤ 10000000 := by
    unfold Keyfile.maxIterations
    omega
  unfold KdfParams.derivation
  refine check_eq_ok_iff.trans <| and_congr hname <| check_eq_ok_iff.trans <| and_congr hcount ?_
  simp only [bind_eq_ok_iff, derivedLength_eq_ok_iff, hexPart_eq_ok_iff, pure, Except.pure,
    Except.ok.injEq, and_assoc, exists_and_left, exists_eq_left']

/-- The numbers of scrypt that pass the checks before its own are those in range. -/
theorem scryptRange_iff {n r p : UInt32} : ScryptRange n r p ↔
    (¬ ((!isPowerOfTwo n.toNat) = true ∨ n.toNat < 2) ∧
      ¬ (r.toNat = 0 ∨ p.toNat = 0 ∨ p.toNat > Keyfile.maxScryptLanes) ∧
      ¬ (scryptMemory n r).toNat > maxScryptMemory) := by
  have hcost : ¬ ((!isPowerOfTwo n.toNat) = true ∨ n.toNat < 2) ↔ ∃ k, 1 ≤ k ∧ n.toNat = 2 ^ k := by
    rw [not_or, Bool.not_eq_true', Bool.not_eq_false, isPowerOfTwo_iff]
    constructor
    · rintro ⟨⟨k, hk⟩, htwo⟩
      refine ⟨k, Nat.pos_of_ne_zero fun hzero => htwo ?_, hk⟩
      rw [hk, hzero]
      decide
    · rintro ⟨k, hpos, hk⟩
      refine ⟨⟨k, hk⟩, Nat.not_lt.2 ?_⟩
      rw [hk]
      exact Nat.le_self_pow (by omega) 2
  have hmemory : ¬ (scryptMemory n r).toNat > maxScryptMemory ↔ 128 * n.toNat * r.toNat ≤ 2 ^ 30 :=
    (not_congr maxScryptMemory_lt_iff).trans Nat.not_lt
  have hshape : ¬ (r.toNat = 0 ∨ p.toNat = 0 ∨ p.toNat > Keyfile.maxScryptLanes) ↔
      1 ≤ r.toNat ∧ 1 ≤ p.toNat ∧ p.toNat ≤ 16 := by
    unfold Keyfile.maxScryptLanes
    omega
  rw [hcost, hshape, hmemory]
  exact ⟨fun h => ⟨h.cost, ⟨h.r_pos, h.p_pos, h.p_le⟩, h.memory_le⟩,
    fun ⟨hk, ⟨hr, hp, hle⟩, hmem⟩ => ⟨hk, hr, hp, hle, hmem⟩⟩

/-- The name and the numbers that scrypt is accepted with. -/
theorem derivation_scrypt_iff {kdf salt : String} {dklen n r p : UInt32} {d : Derivation} :
    (KdfParams.scrypt dklen n r p salt).derivation kdf = .ok d ↔
      kdf = "scrypt" ∧ ScryptRange n r p ∧ (32 ≤ dklen.toNat ∧ dklen.toNat ≤ 64) ∧
        n.toNat.log2 < 16 * r.toNat ∧
        ∃ bytes, Hex.ofText? salt = some bytes ∧ .scrypt bytes n.toNat r.toNat p.toNat dklen.toNat = d := by
  unfold KdfParams.derivation
  rw [scryptRange_iff, and_assoc, and_assoc]
  refine check_eq_ok_iff.trans <| and_congr Decidable.not_not <| check_eq_ok_iff.trans <|
    and_congr_right fun hcost => check_eq_ok_iff.trans <| and_congr_right fun hshape =>
    check_eq_ok_iff.trans <| and_congr_right fun hmemory => ?_
  have hrange := scryptRange_iff.2 ⟨hcost, hshape, hmemory⟩
  constructor
  · intro h
    obtain ⟨length, hlength, h⟩ := of_bind_eq_ok h
    obtain ⟨bytes, hsalt, h⟩ := of_bind_eq_ok h
    obtain ⟨params, hparams, h⟩ := of_bind_eq_ok h
    obtain ⟨-, h⟩ := of_check_eq_ok h
    obtain ⟨hasked, rfl⟩ := derivedLength_eq_ok_iff.1 hlength
    obtain ⟨rfl, hlog⟩ := hrange.ofNumbers_eq_ok_iff.1 (mapError_eq_ok_iff.1 hparams)
    refine ⟨hasked, hlog, bytes, hexPart_eq_ok_iff.1 hsalt, ?_⟩
    rw [← Except.ok.inj h, Params.cost, hrange.two_pow_logCost]
  · rintro ⟨hlength, hlog, bytes, hsalt, rfl⟩
    refine bind_eq_ok_iff.2 ⟨_, derivedLength_eq_ok_iff.2 ⟨hlength, rfl⟩, ?_⟩
    refine bind_eq_ok_iff.2 ⟨bytes, hexPart_eq_ok_iff.2 hsalt, ?_⟩
    refine bind_eq_ok_iff.2 ⟨_, mapError_eq_ok_iff.2 (hrange.ofNumbers_eq_ok_iff.2 ⟨rfl, hlog⟩), ?_⟩
    refine check_eq_ok_iff.2 ⟨not_not_intro (takes_of_le hlength.1), ?_⟩
    rw [Params.cost, hrange.two_pow_logCost]
    rfl

/-- Parameters are accepted exactly in the region, for a derivation of the length that they ask for. -/
theorem KdfParams.exists_derivation_iff {kdf : String} {params : KdfParams} :
    (∃ d, params.derivation kdf = .ok d) ↔ params.InRegion kdf := by
  cases params with
  | pbkdf2 dklen c prf salt =>
    simp only [derivation_pbkdf2_iff, InRegion, ← Hex.exists_decode?_iff, Hex.ofText?]
    constructor
    · rintro ⟨_, ⟨hkdf, hprf⟩, ⟨hpos, hle⟩, ⟨hge, hlength⟩, bytes, hsalt, -⟩
      exact ⟨hkdf, hprf, hpos, hle, hge, hlength, bytes, hsalt⟩
    · rintro ⟨hkdf, hprf, hpos, hle, hge, hlength, bytes, hsalt⟩
      exact ⟨_, ⟨hkdf, hprf⟩, ⟨hpos, hle⟩, ⟨hge, hlength⟩, bytes, hsalt, rfl⟩
  | scrypt dklen n r p salt =>
    simp only [derivation_scrypt_iff, InRegion, ← Hex.exists_decode?_iff, Hex.ofText?]
    constructor
    · rintro ⟨_, hkdf, hrange, ⟨hge, hlength⟩, hlog, bytes, hsalt, -⟩
      exact ⟨hkdf, hrange, hge, hlength, ⟨bytes, hsalt⟩, hlog⟩
    · rintro ⟨hkdf, hrange, hge, hlength, ⟨bytes, hsalt⟩, hlog⟩
      exact ⟨_, hkdf, hrange, ⟨hge, hlength⟩, hlog, bytes, hsalt, rfl⟩

/-- The causes that come from scrypt's own checks. -/
def Keyfile.Error.IsOfScrypt : Error → Prop
  | .scryptParams | .scryptLength => True
  | _ => False

/-- A length that is refused is no matter of the work areas. -/
theorem not_isOfScrypt_of_derivedLength {dklen : UInt32} {e : Error} (h : derivedLength dklen = .error e) :
    ¬ e.IsOfScrypt := by
  unfold derivedLength at h
  split at h
  · cases h
  · cases h
    exact id

/-- Nor is a part that is no hexadecimal text. -/
theorem not_isOfScrypt_of_hexPart {part : Keyfile.HexPart} {text : String} {e : Error}
    (h : hexPart part text = .error e) : ¬ e.IsOfScrypt := by
  unfold hexPart at h
  split at h
  · cases h
  · cases h
    exact id

/-- Scrypt's own checks refuse numbers in range of which a lane does not tell enough, and nothing else. -/
theorem KdfParams.of_derivation_eq_error {kdf : String} {params : KdfParams} {e : Error}
    (h : params.derivation kdf = .error e) (hscrypt : e.IsOfScrypt) : e = .scryptParams ∧
      ∃ dklen n r p salt, params = .scrypt dklen n r p salt ∧ ScryptRange n r p ∧
        16 * r.toNat ≤ n.toNat.log2 := by
  cases params with
  | pbkdf2 dklen c prf salt =>
    unfold derivation at h
    obtain ⟨-, rfl⟩ | ⟨-, h⟩ := of_check_eq_error h
    · exact hscrypt.elim
    obtain ⟨-, rfl⟩ | ⟨-, h⟩ := of_check_eq_error h
    · exact hscrypt.elim
    obtain h | ⟨length, -, h⟩ := of_bind_eq_error h
    · exact absurd hscrypt (not_isOfScrypt_of_derivedLength h)
    obtain h | ⟨bytes, -, h⟩ := of_bind_eq_error h
    · exact absurd hscrypt (not_isOfScrypt_of_hexPart h)
    cases h
  | scrypt dklen n r p salt =>
    unfold derivation at h
    obtain ⟨-, rfl⟩ | ⟨-, h⟩ := of_check_eq_error h
    · exact hscrypt.elim
    obtain ⟨-, rfl⟩ | ⟨hcost, h⟩ := of_check_eq_error h
    · exact hscrypt.elim
    obtain ⟨-, rfl⟩ | ⟨hshape, h⟩ := of_check_eq_error h
    · exact hscrypt.elim
    obtain ⟨-, rfl⟩ | ⟨hmemory, h⟩ := of_check_eq_error h
    · exact hscrypt.elim
    have hrange := scryptRange_iff.2 ⟨hcost, hshape, hmemory⟩
    obtain h | ⟨length, hlength, h⟩ := of_bind_eq_error h
    · exact absurd hscrypt (not_isOfScrypt_of_derivedLength h)
    obtain h | ⟨bytes, -, h⟩ := of_bind_eq_error h
    · exact absurd hscrypt (not_isOfScrypt_of_hexPart h)
    obtain h | ⟨params, -, h⟩ := of_bind_eq_error h
    · cases hanswer : Params.ofNumbers (logCost n) r p with
      | ok params => rw [hanswer] at h; cases h
      | error refusal =>
        rw [hanswer] at h
        exact ⟨(Except.error.inj h).symm, dklen, n, r, p, salt, rfl, hrange,
          (hrange.ofNumbers_eq_error_iff.1 hanswer).2⟩
    obtain ⟨hasked, rfl⟩ := derivedLength_eq_ok_iff.1 hlength
    obtain ⟨hrefused, -⟩ | ⟨-, h⟩ := of_check_eq_error h
    · exact absurd (takes_of_le hasked.1) hrefused
    cases h

/-- Keys are derived with the length that the keyfile tells. -/
theorem KdfParams.length_of_derivation {kdf : String} {params : KdfParams} {d : Derivation}
    (h : params.derivation kdf = .ok d) : d.length = params.length := by
  cases params with
  | pbkdf2 dklen c prf salt =>
    obtain ⟨-, -, -, bytes, -, rfl⟩ := derivation_pbkdf2_iff.1 h
    rfl
  | scrypt dklen n r p salt =>
    obtain ⟨-, -, -, -, bytes, -, rfl⟩ := derivation_scrypt_iff.1 h
    rfl

/-- A key is derived exactly in the region, and has the length that is asked for. Of the causes that come
from scrypt's own checks there is one, and one reason for it: a lane does not tell enough numbers. The words
in which sizes are counted exceed the bound exactly if the integers do, the byte of the logarithm is exact,
and in range each other check of scrypt is passed. -/
theorem Envelope.derive_exact (e : Envelope) (password : String) :
    ((∃ derived, e.derive password = .ok derived) ↔ e.kdfparams.InRegion e.kdf) ∧
    (∀ derived, e.derive password = .ok derived → derived.length = e.kdfparams.length) ∧
    (∀ cause, e.derive password = .error cause → cause.IsOfScrypt → cause = .scryptParams ∧
      ∃ dklen n r p salt, e.kdfparams = .scrypt dklen n r p salt ∧ ScryptRange n r p ∧
        16 * r.toNat ≤ n.toNat.log2) ∧
    ∀ n r p : UInt32,
      (maxScryptMemory < (scryptMemory n r).toNat ↔ 2 ^ 30 < 128 * n.toNat * r.toNat) ∧
      (logCost n).toNat = trailingZeros 32 n.toNat ∧
      (ScryptRange n r p → (logCost n).toNat = n.toNat.log2 ∧ ∀ refusal : Refusal,
        (refusal.Rejects (logCost n).toNat r.toNat p.toNat ↔
          refusal = .cost ∧ 16 * r.toNat ≤ n.toNat.log2) ∧
        (Params.ofNumbers (logCost n) r p = .error refusal ↔
          refusal = .cost ∧ 16 * r.toNat ≤ n.toNat.log2)) := by
  refine ⟨?_, fun derived h => ?_, fun cause h hscrypt => ?_, fun n r p => ⟨maxScryptMemory_lt_iff,
    toNat_logCost n, fun hrange => ⟨hrange.toNat_logCost_eq, fun refusal =>
      ⟨hrange.rejects_iff refusal, hrange.ofNumbers_eq_error_iff⟩⟩⟩⟩
  · simp only [derive_eq_ok_iff, ← KdfParams.exists_derivation_iff]
    exact ⟨fun ⟨_, d, hd, _⟩ => ⟨d, hd⟩, fun ⟨d, hd⟩ => ⟨_, d, hd, rfl⟩⟩
  · obtain ⟨d, hd, rfl⟩ := derive_eq_ok_iff.1 h
    rw [Derivation.length_run, KdfParams.length_of_derivation hd]
  · obtain hd | ⟨d, -, hd⟩ := of_bind_eq_error h
    · exact KdfParams.of_derivation_eq_error hd hscrypt
    · cases hd

/-- The numbers that are usual for scrypt, for the longest key. -/
def Envelope.usualScrypt : Envelope :=
  ⟨"aes-128-ctr", "", "", "scrypt", .scrypt 64 262144 8 1 "ab", ""⟩

/-- They are accepted, but not with one block where a lane would have to tell sixteen bits. -/
theorem Envelope.derive_exact_usual :
    (∃ derived, usualScrypt.derive "open sesame" = .ok derived ∧ derived.length = 64) ∧
      ScryptRange 65536 1 1 ∧ Params.ofNumbers (logCost 65536) 1 1 = .error .cost := by
  obtain ⟨hregion, hlength, -, hwords⟩ := derive_exact usualScrypt "open sesame"
  obtain ⟨derived, hderived⟩ := hregion.2
    ⟨rfl, ⟨⟨18, by decide, rfl⟩, by decide, by decide, by decide, by decide⟩, by decide, by decide, by decide,
      by decide⟩
  have hrange : ScryptRange 65536 1 1 := ⟨⟨16, by decide, rfl⟩, by decide, by decide, by decide, by decide⟩
  obtain ⟨-, -, hexact⟩ := hwords 65536 1 1
  obtain ⟨-, hrefused⟩ := hexact hrange
  exact ⟨⟨derived, hderived, hlength derived hderived⟩, hrange, (hrefused .cost).2.2 ⟨rfl, by decide⟩⟩

/-! ## Memory -/

/-- Scrypt works on the start of its lanes and on what it keeps of one lane at a time. What it keeps is
below the bound. The start is below it exactly if there are not too many blocks in all lanes, therefore if
there are no more lanes than values that are kept of one; it is never more than eight times the bound. -/
theorem KdfParams.areas_of_derivation {kdf : String} {params : KdfParams} {salt : Bytes} {n r p length : Nat}
    (h : params.derivation kdf = .ok (.scrypt salt n r p length)) (password : Bytes) :
    (Derivation.scrypt salt n r p length).run password =
      Pbkdf2.derive password (((Scrypt.lanes (2 * r) p (Scrypt.start password salt r p)).map fun lane =>
        Scrypt.readBack n (Scrypt.keep n lane #[]).1 (Scrypt.keep n lane #[]).2).flatMap fun lane =>
          lane.toList.flatMap Scrypt.Block.toBytes) 1 length ∧
    (∀ lane ∈ Scrypt.lanes (2 * r) p (Scrypt.start password salt r p),
      Scrypt.keptBytes (Scrypt.keep n lane #[]).2 = 128 * n * r) ∧
    128 * n * r ≤ maxScryptMemory ∧
    (Scrypt.start password salt r p).length = 128 * r * p ∧
    (128 * r * p ≤ maxScryptMemory ↔ r * p ≤ 2 ^ 23) ∧
    (p ≤ n → 128 * r * p ≤ maxScryptMemory) ∧ 128 * r * p ≤ 8 * maxScryptMemory := by
  refine ⟨Scrypt.derive_eq _ _ _ _ _ _, fun lane hlane => Scrypt.keptBytes_of_mem_lanes hlane n, ?_⟩
  cases params with
  | pbkdf2 dklen c prf text =>
    obtain ⟨-, -, -, bytes, -, hd⟩ := derivation_pbkdf2_iff.1 h
    cases hd
  | scrypt dklen cost blockSize lanes text =>
    obtain ⟨-, hrange, -, -, bytes, -, hd⟩ := derivation_scrypt_iff.1 h
    cases hd
    have hmemory : 128 * cost.toNat * blockSize.toNat ≤ maxScryptMemory := hrange.memory_le
    have hmul := hrange.mul_le
    refine ⟨hmemory, Scrypt.length_start _ _ _ _, ?_, fun hle => ?_, ?_⟩
    · rw [Nat.mul_assoc, maxScryptMemory]
      omega
    · calc 128 * blockSize.toNat * lanes.toNat
          ≤ 128 * blockSize.toNat * cost.toNat := Nat.mul_le_mul_left _ hle
        _ = 128 * cost.toNat * blockSize.toNat := Nat.mul_right_comm _ _ _
        _ ≤ maxScryptMemory := hmemory
    · rw [Nat.mul_assoc, maxScryptMemory]
      omega

/-- The most blocks and lanes are accepted with the least cost, and the start is eight times the bound. -/
theorem KdfParams.areas_of_derivation_most :
    (scrypt 32 2 4194304 16 "").derivation "scrypt" = .ok (.scrypt [] 2 4194304 16 32) ∧
      (Scrypt.start (Utf8.encode "open sesame") [] 4194304 16).length = 8 * maxScryptMemory := by
  have h : (scrypt 32 2 4194304 16 "").derivation "scrypt" = .ok (.scrypt [] 2 4194304 16 32) := rfl
  obtain ⟨-, -, -, hstart, -⟩ := areas_of_derivation h (Utf8.encode "open sesame")
  refine ⟨h, ?_⟩
  rw [hstart]
  rfl

/-- Numbers are accepted although the start of the lanes exceeds the bound on memory. -/
theorem KdfParams.start_exceeds_bound :
    (scrypt 32 2 524289 16 "").derivation "scrypt" = .ok (.scrypt [] 2 524289 16 32) ∧
      maxScryptMemory < (Scrypt.start (Utf8.encode "open sesame") [] 524289 16).length := by
  refine ⟨rfl, ?_⟩
  rw [Scrypt.length_start]
  decide

end Keyring
