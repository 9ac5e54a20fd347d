import Keyring.Proofs.Cipher.Counter
import Keyring.Proofs.Keyfile.Codec

/-!
# Keyfiles of other writers

Other writers encrypt the secret in standard counter mode, with all bits of the counter block counting, and
need not record an address (`IsStandard`). A secret is two blocks long, so that only one step is counted.
The password gives the key pair back unless that step carries out of the low half of the counter block
(`Keyfile.decrypt_standard`). If it does, then the second half of the secret comes out wrong, and neither
the code, which is over the encrypted secret, nor an address tells.
-/

namespace Keyring

namespace Keyfile

/-- The secret of a key pair, encrypted in standard counter mode under a derived key. -/
def standardCiphertext (key : KeyPair) (iv : FixedBytes 16) (derived : Bytes) : Bytes :=
  Counter.apply 128 (cipherKey derived) iv.toBytes key.secretBytes.toBytes

@[simp] theorem length_standardCiphertext (key : KeyPair) (iv : FixedBytes 16) (derived : Bytes) :
    (standardCiphertext key iv derived).length = 32 := by
  rw [standardCiphertext, Counter.length_apply, key.secretBytes.length_toBytes]

/-- The keyfile is one that a standard writer makes for the key pair under the password, with the given first
counter block and any derivation that is accepted. -/
structure IsStandard (k : Keyfile) (key : KeyPair) (password : String) (iv : FixedBytes 16)
    (derivation : Derivation) : Prop where
  version_eq : k.version = 3
  address_eq : k.address = none
  cipher_eq : k.crypto.cipher = "aes-128-ctr"
  iv_eq : Hex.ofText? k.crypto.iv = some iv.toBytes
  derivation_eq : k.crypto.kdfparams.derivation k.crypto.kdf = .ok derivation
  ciphertext_eq : Hex.ofText? k.crypto.ciphertext =
    some (standardCiphertext key iv (derivation.run (Utf8.encode password)))
  mac_eq : Hex.ofText? k.crypto.mac = some (macOf (derivation.run (Utf8.encode password))
    (standardCiphertext key iv (derivation.run (Utf8.encode password))))

/-- The keyfile of a standard writer, with all parts in lowercase. -/
def standard (key : KeyPair) (password : String) (iv : FixedBytes 16) (kdf : String) (params : KdfParams)
    (derivation : Derivation) (id : String) : Keyfile :=
  let derived := derivation.run (Utf8.encode password)
  let ciphertext := standardCiphertext key iv derived
  { version := 3
    address := none
    crypto :=
      { cipher := "aes-128-ctr"
        ciphertext := Hex.text ciphertext
        iv := Hex.text iv.toBytes
        kdf := kdf
        kdfparams := params
        mac := Hex.text (macOf derived ciphertext) }
    id := id }

variable {k : Keyfile} {key : KeyPair} {password : String} {iv : FixedBytes 16} {derivation : Derivation}

/-- The keyfile that the standard describes is one that follows it. -/
theorem isStandard_standard {kdf : String} {params : KdfParams}
    (h : params.derivation kdf = .ok derivation) (id : String) :
    (standard key password iv kdf params derivation id).IsStandard key password iv derivation where
  version_eq := rfl
  address_eq := rfl
  cipher_eq := rfl
  iv_eq := Hex.ofText?_text _
  derivation_eq := h
  ciphertext_eq := Hex.ofText?_text _
  mac_eq := Hex.ofText?_text _

/-- The bytes that the secret of a standard keyfile is decrypted to. -/
def standardPlain (key : KeyPair) (password : String) (iv : FixedBytes 16) (derivation : Derivation) :
    Bytes :=
  let derived := derivation.run (Utf8.encode password)
  Counter.apply counterWidth (cipherKey derived) iv.toBytes (standardCiphertext key iv derived)

/-- All checks are passed, and what the key pair is depends on the decrypted secret only. -/
theorem IsStandard.decrypt_eq (h : k.IsStandard key password iv derivation) : k.decrypt password =
    match KeyPair.ofBytes? (standardPlain key password iv derivation) with
    | none => .error .secret
    | some found => .ok found := by
  rw [Keyfile.decrypt_eq h.version_eq h.cipher_eq (hexPart_eq_ok_iff.2 h.iv_eq)
    (hexPart_eq_ok_iff.2 h.ciphertext_eq) (hexPart_eq_ok_iff.2 h.mac_eq) iv.length_toBytes
    (length_standardCiphertext key iv _), h.derivation_eq, ok_bind]
  simp only [ne_eq, not_true_eq_false, if_false, h.address_eq, checkAddress, standardPlain]
  generalize KeyPair.ofBytes? _ = found
  cases found with
  | none => rfl
  | some found => rfl

theorem length_standardPlain : (standardPlain key password iv derivation).length = 32 := by
  rw [standardPlain, Counter.length_apply, length_standardCiphertext]

/-- The first half of the secret is right, and the second one exactly if nothing was to be carried. -/
theorem standardPlain_halves (key : KeyPair) (password : String) (iv : FixedBytes 16)
    (derivation : Derivation) :
    (standardPlain key password iv derivation).take 16 = key.secretBytes.toBytes.take 16 ∧
      (standardPlain key password iv derivation = key.secretBytes.toBytes ↔ ¬ Counter.Carries iv) := by
  obtain ⟨hfirst, hsecond⟩ := Counter.apply_standard iv
    (cipherKey (derivation.run (Utf8.encode password))) key.secretBytes.length_toBytes
  refine ⟨hfirst, Iff.trans ⟨fun h => ?_, fun h => ?_⟩ hsecond⟩
  · exact congrArg (List.drop 16) h
  · rw [← List.take_append_drop 16 (standardPlain key password iv derivation),
      ← List.take_append_drop 16 key.secretBytes.toBytes]
    exact congrArg₂ (· ++ ·) hfirst h

end Keyfile

namespace KeyPair

/-- Thirty-two bytes that are a secret are those of its key pair. -/
theorem secretBytes_of_ofBytes? {bytes : Bytes} (hlength : bytes.length = 32) {key : KeyPair}
    (h : ofBytes? bytes = some key) : key.secretBytes.toBytes = bytes := by
  have hrange : 24 ≤ bytes.length ∧ bytes.length ≤ 32 := by omega
  rw [ofBytes?, if_pos hrange, ofNat?_eq_some_iff] at h
  have hdigits := BigEndian.encode_decode bytes
  rw [hlength, h] at hdigits
  exact hdigits

end KeyPair

/-- The password of a standard keyfile gives its key pair exactly if nothing was to be carried. -/
theorem Keyfile.IsStandard.decrypt_eq_ok_iff {k : Keyfile} {key : KeyPair} {password : String}
    {iv : FixedBytes 16} {derivation : Derivation} (h : k.IsStandard key password iv derivation) :
    k.decrypt password = .ok key ↔ ¬ Counter.Carries iv := by
  rw [h.decrypt_eq, ← (standardPlain_halves key password iv derivation).2]
  constructor
  · intro hok
    split at hok
    · cases hok
    · next found hfound =>
      cases hok
      exact (KeyPair.secretBytes_of_ofBytes? length_standardPlain hfound).symm
  · intro heq
    rw [heq, KeyPair.ofBytes?_secretBytes]

/-- The password of a standard keyfile gives its key pair exactly if the low half of the first counter block
is not all ones. In any case it gives a key pair whose secret has the same first half, or says that what is
decrypted is no secret. -/
theorem Keyfile.decrypt_standard {k : Keyfile} {key : KeyPair} {password : String} {iv : FixedBytes 16}
    {derivation : Derivation} (h : k.IsStandard key password iv derivation) :
    (k.decrypt password = .ok key ↔ ¬ Counter.Carries iv) ∧
      (k.decrypt password = .error .secret ∨ ∃ found, k.decrypt password = .ok found ∧
        found.secretBytes.toBytes.take 16 = key.secretBytes.toBytes.take 16) := by
  refine ⟨h.decrypt_eq_ok_iff, ?_⟩
  obtain ⟨hfirst, -⟩ := standardPlain_halves key password iv derivation
  rw [h.decrypt_eq]
  split
  · exact .inl rfl
  · next found hfound =>
    refine .inr ⟨found, rfl, ?_⟩
    rw [KeyPair.secretBytes_of_ofBytes? length_standardPlain hfound, hfirst]

/-! ### A first block from which the next step carries -/

namespace Keyfile

/-- A standard keyfile of the secret one under the password p. -/
def standardSample (iv : FixedBytes 16) : Keyfile :=
  standard .one "p" iv "pbkdf2" (.pbkdf2 32 1 "hmac-sha256" (Hex.text Seal.zero.salt.toBytes))
    (.pbkdf2 Seal.zero.salt.toBytes 1 32) (identifier Seal.zero.id)

/-- The sample keyfile follows the standard. -/
theorem isStandard_sample (iv : FixedBytes 16) :
    (standardSample iv).IsStandard .one "p" iv (.pbkdf2 Seal.zero.salt.toBytes 1 32) := by
  refine isStandard_standard ?_ _
  rw [derivation_written 1 .zero, if_pos (by decide)]
  rfl

/-- A first counter block whose low half is all ones. -/
def carryingBlock : FixedBytes 16 :=
  ⟨List.replicate 8 0 ++ List.replicate 8 0xff, rfl⟩

/-- From null bytes nothing is carried. -/
theorem decrypt_standard_sample : (standardSample Seal.zero.iv).decrypt "p" = .ok .one :=
  (decrypt_standard (isStandard_sample _)).1.2 (by decide)

/-- With the carry the password does not give the key pair back. -/
theorem decrypt_standard_carrying : (standardSample carryingBlock).decrypt "p" ≠ .ok .one := by
  rw [ne_eq, (isStandard_sample carryingBlock).decrypt_eq_ok_iff]
  decide

end Keyfile

end Keyring
