import Keyring.Account.Error
import Keyring.Keyfile.Codec
import Keyring.Proofs.Keyfile.Json

/-!
# Opening the keyfiles that were sealed

What a sealed keyfile gives under any password (`Keyfile.decode_encode_eq`): nothing if the writer's
number of iterations is one that the reader refuses, nothing if the code differs, and then the key pair
of the decrypted secret if it has the address that the keyfile tells. So the password that it was sealed
with gives the key pair back (`decode_encode`), and every other one that gives a key pair at all gives
one with the same address and has the same code.
-/

namespace Keyring

/-! ## The address in a keyfile -/

namespace Keyfile

/-- Hexadecimal text has no mark before it, because the mark's letter is no digit. -/
theorem dropHexMarks_of_decode? {text : List Char} {bytes : Bytes} (h : Hex.decode? text = some bytes) :
    dropHexMarks text = text := by
  fun_cases dropHexMarks text with
  | case1 rest =>
    have hx : Hex.digitValue? 'x' = none := by decide
    simp [Hex.decode?, hx] at h
  | case2 => rfl

theorem ok_bind {α β : Type} (a : α) (f : α → Except Error β) : (Except.ok a >>= f) = f a := rfl

theorem error_bind {α β : Type} (e : Error) (f : α → Except Error β) :
    ((.error e : Except Error α) >>= f) = .error e := rfl

/-- A chain that succeeds goes through its first step. -/
theorem of_bind_eq_ok {α β : Type} {x : Except Error α} {f : α → Except Error β} {b : β}
    (h : (x >>= f) = .ok b) : ∃ a, x = .ok a ∧ f a = .ok b := by
  cases x with
  | error e => cases h
  | ok a => exact ⟨a, rfl, h⟩

/-- A check that is passed. -/
theorem of_check_eq_ok {α : Type} {p : Prop} [Decidable p] {e : Error} {f : Except Error α} {a : α}
    (h : (if p then throw e else f) = .ok a) : ¬ p ∧ f = .ok a := by
  by_cases hp : p
  · rw [if_pos hp] at h
    cases h
  · rw [if_neg hp] at h
    exact ⟨hp, h⟩

/-- A chain succeeds exactly if its first step does and the rest does with what that gave. -/
theorem bind_eq_ok_iff {α β : Type} {x : Except Error α} {f : α → Except Error β} {b : β} :
    (x >>= f) = .ok b ↔ ∃ a, x = .ok a ∧ f a = .ok b :=
  ⟨of_bind_eq_ok, by rintro ⟨a, rfl, h⟩; exact h⟩

/-- What is checked first succeeds exactly if the check is passed and the rest succeeds. -/
theorem check_eq_ok_iff {α : Type} {p : Prop} [Decidable p] {e : Error} {f : Except Error α} {a : α} :
    (if p then throw e else f) = .ok a ↔ ¬ p ∧ f = .ok a :=
  ⟨of_check_eq_ok, fun h => by rw [if_neg h.1, h.2]⟩

/-- A chain that fails does so in its first step, or behind it. -/
theorem of_bind_eq_error {α β : Type} {x : Except Error α} {f : α → Except Error β} {e : Error}
    (h : (x >>= f) = .error e) : x = .error e ∨ ∃ a, x = .ok a ∧ f a = .error e := by
  cases x with
  | error cause => exact .inl (congrArg _ (Except.error.inj h))
  | ok a => exact .inr ⟨a, rfl, h⟩

/-- A check that fails, or what follows it. -/
theorem of_check_eq_error {α : Type} {p : Prop} [Decidable p] {cause e : Error} {f : Except Error α}
    (h : (if p then throw cause else f) = .error e) : (p ∧ cause = e) ∨ (¬ p ∧ f = .error e) := by
  by_cases hp : p
  · rw [if_pos hp] at h
    exact .inl ⟨hp, Except.error.inj h⟩
  · rw [if_neg hp] at h
    exact .inr ⟨hp, h⟩

/-- What follows a check may be replaced. -/
theorem check_congr {α : Type} {p : Prop} [Decidable p] {e : Error} {f g : Except Error α} (h : f = g) :
    (if p then throw e else f) = if p then throw e else g := by
  rw [h]

@[simp] theorem length_macOf (derived ciphertext : Bytes) : (macOf derived ciphertext).length = 32 :=
  (keccak256 _).length_toBytes

/-- The length of a code needs no check of its own, since a code of another length is not the right one. -/
theorem decrypt_eq_unmeasured (k : Keyfile) (password : String) : k.decrypt password = do
    if k.version ≠ 3 then throw (.version k.version)
    if k.crypto.cipher ≠ "aes-128-ctr" then throw (.cipher k.crypto.cipher)
    let iv ← hexPart .iv k.crypto.iv
    let ciphertext ← hexPart .ciphertext k.crypto.ciphertext
    let mac ← hexPart .mac k.crypto.mac
    if iv.length ≠ 16 then throw (.ivLength iv.length)
    if ciphertext.length ≠ 32 then throw (.ciphertextLength ciphertext.length)
    let derivation ← k.crypto.kdfparams.derivation k.crypto.kdf
    let derived := derivation.run (Utf8.encode password)
    if macOf derived ciphertext ≠ mac then throw .mac
    match KeyPair.ofBytes? (Counter.apply counterWidth (cipherKey derived) iv ciphertext) with
    | none => throw .secret
    | some key =>
      checkAddress key k.address
      return key := by
  unfold decrypt
  refine check_congr <| check_congr <| bind_congr fun _ => bind_congr fun ciphertext =>
    bind_congr fun mac => check_congr <| check_congr <| bind_congr fun derivation => ?_
  by_cases hlength : mac.length = 32
  · exact if_neg (not_not_intro hlength)
  · have hcode : macOf (derivation.run (Utf8.encode password)) ciphertext ≠ mac :=
      fun h => hlength (h ▸ length_macOf _ _)
    exact (if_pos hlength).trans (if_pos hcode).symm

/-- A keyfile that gives a key pair has passed every check. -/
theorem of_decrypt_eq_ok {k : Keyfile} {password : String} {key : KeyPair}
    (h : k.decrypt password = .ok key) :
    checkAddress key k.address = .ok () ∧ k.version = 3 ∧ k.crypto.cipher = "aes-128-ctr" ∧
      ∃ iv ciphertext mac derivation, hexPart .iv k.crypto.iv = .ok iv ∧
        hexPart .ciphertext k.crypto.ciphertext = .ok ciphertext ∧ hexPart .mac k.crypto.mac = .ok mac ∧
        iv.length = 16 ∧ ciphertext.length = 32 ∧
        k.crypto.kdfparams.derivation k.crypto.kdf = .ok derivation ∧
        macOf (derivation.run (Utf8.encode password)) ciphertext = mac ∧
        KeyPair.ofBytes? (Counter.apply counterWidth
          (cipherKey (derivation.run (Utf8.encode password))) iv ciphertext) = some key := by
  rw [decrypt_eq_unmeasured] at h
  -- The checks and the parts, in the order in which they are read.
  obtain ⟨hversion, h⟩ := of_check_eq_ok h
  obtain ⟨hcipher, h⟩ := of_check_eq_ok h
  obtain ⟨iv, hiv, h⟩ := of_bind_eq_ok h
  obtain ⟨ciphertext, hciphertext, h⟩ := of_bind_eq_ok h
  obtain ⟨mac, hmac, h⟩ := of_bind_eq_ok h
  obtain ⟨hivLength, h⟩ := of_check_eq_ok h
  obtain ⟨hlength, h⟩ := of_check_eq_ok h
  obtain ⟨derivation, hderivation, h⟩ := of_bind_eq_ok h
  obtain ⟨hcode, h⟩ := of_check_eq_ok h
  split at h
  · cases h
  · next hkey =>
    obtain ⟨⟨⟩, hcheck, h⟩ := of_bind_eq_ok h
    cases h
    exact ⟨hcheck, Decidable.not_not.1 hversion, Decidable.not_not.1 hcipher, iv, ciphertext, mac,
      derivation, hiv, hciphertext, hmac, Decidable.not_not.1 hivLength, Decidable.not_not.1 hlength,
      hderivation, Decidable.not_not.1 hcode, hkey⟩

/-- The address that is recorded in the bytes of a keyfile. -/
def Records (content recorded : Bytes) : Prop :=
  ∃ k text, ofBytes content = .ok k ∧ k.address = some text ∧
    hexPart .address (String.ofList (dropHexMarks text.toList)) = .ok recorded

/-- A key pair has the address that its keyfile records, if it records one. -/
theorem Records.eq {content recorded : Bytes} {password : String} {key : KeyPair}
    (h : Records content recorded) (hdecode : decode content password = .ok key) :
    key.address.toBytes = recorded := by
  obtain ⟨k, text, hkeyfile, htext, hrecorded⟩ := h
  rw [decode, hkeyfile] at hdecode
  have hcheck := (of_decrypt_eq_ok hdecode).1
  rw [htext, checkAddress, hrecorded] at hcheck
  obtain ⟨hsame, -⟩ := of_check_eq_ok hcheck
  exact (Decidable.not_not.1 hsame).symm

/-- The address that was written is held against the key pair's. -/
theorem checkAddress_text (key : KeyPair) (address : Address) :
    checkAddress key (some (Hex.text address.toBytes)) =
      if key.address = address then .ok () else .error .address := by
  have hread : hexPart .address
      (String.ofList (dropHexMarks (Hex.text address.toBytes).toList)) = .ok address.toBytes := by
    simp only [Hex.text, String.toList_ofList, dropHexMarks_of_decode? (Hex.decode?_encode _), hexPart]
    rw [show Hex.ofText? (String.ofList (Hex.encode address.toBytes)) = _ from Hex.ofText?_text _]
  simp only [checkAddress, hread]
  by_cases h : key.address = address
  · subst h
    simp [Bind.bind, Except.bind, pure, Except.pure]
  · have hne : address.toBytes ≠ key.address.toBytes := fun he => h (Address.ext he).symm
    simp [Bind.bind, Except.bind, h, hne, throw, throwThe, MonadExceptOf.throw]

/-! ## What a password gives -/

section
variable (key : KeyPair) (password other : String) (iterations : UInt32) (fresh : Seal)

/-- The number of iterations is one that readers take. -/
def Opens (iterations : UInt32) : Prop :=
  0 < iterations.toNat ∧ iterations.toNat ≤ maxIterations

instance : Decidable (Opens iterations) :=
  inferInstanceAs (Decidable (_ ∧ _))

/-- The key that a password derives with a seal. -/
def derivedKey : Bytes :=
  Pbkdf2.derive (Utf8.encode password) fresh.salt.toBytes iterations.toNat 32

/-- The encrypted secret. -/
def sealedSecret : Bytes :=
  Counter.apply counterWidth (cipherKey (derivedKey password iterations fresh)) fresh.iv.toBytes
    key.secretBytes.toBytes

/-- Another password has the code that was written. -/
def SameCode : Prop :=
  macOf (derivedKey other iterations fresh) (sealedSecret key password iterations fresh) =
    macOf (derivedKey password iterations fresh) (sealedSecret key password iterations fresh)

instance : Decidable (SameCode key password other iterations fresh) :=
  inferInstanceAs (Decidable (_ = _))

/-- What another password decrypts the secret to. -/
def unsealed : Except Error KeyPair :=
  match KeyPair.ofBytes? (Counter.apply counterWidth (cipherKey (derivedKey other iterations fresh))
      fresh.iv.toBytes (sealedSecret key password iterations fresh)) with
  | none => .error .secret
  | some k => if k.address = key.address then .ok k else .error .address

@[simp] theorem length_sealedSecret : (sealedSecret key password iterations fresh).length = 32 := by
  simp [sealedSecret]

/-- A part is accepted exactly as the bytes that its digits tell. -/
theorem hexPart_eq_ok_iff {part : HexPart} {text : String} {bytes : Bytes} :
    hexPart part text = .ok bytes ↔ Hex.ofText? text = some bytes := by
  unfold hexPart
  cases Hex.ofText? text with
  | none => exact ⟨nofun, nofun⟩
  | some found => exact ⟨fun h => congrArg some (Except.ok.inj h), fun h => congrArg _ (Option.some.inj h)⟩

/-- So the text of bytes is accepted as these bytes. -/
theorem hexPart_text (part : HexPart) (bytes : Bytes) : hexPart part (Hex.text bytes) = .ok bytes :=
  hexPart_eq_ok_iff.2 (Hex.ofText?_text bytes)

/-- The derivation that was written is taken if its iterations are. -/
theorem derivation_written :
    (KdfParams.pbkdf2 32 iterations "hmac-sha256" (Hex.text fresh.salt.toBytes)).derivation "pbkdf2" =
      if Opens iterations then .ok (.pbkdf2 fresh.salt.toBytes iterations.toNat 32)
      else .error (.iterations iterations) := by
  have hlength : derivedLength 32 = .ok 32 := rfl
  simp only [KdfParams.derivation, hlength, hexPart_text]
  by_cases h : Opens iterations
  · have hrange : ¬ (iterations.toNat = 0 ∨ iterations.toNat > maxIterations) := by
      unfold Opens at h
      omega
    simp [h, hrange]
    rfl
  · have hrange : iterations.toNat = 0 ∨ iterations.toNat > maxIterations := by
      unfold Opens at h
      omega
    simp [h, hrange]
    rfl

/-- A keyfile whose parts have the right form gives what its derivation leads to. -/
theorem decrypt_eq {k : Keyfile} {iv ciphertext mac : Bytes} (hversion : k.version = 3)
    (hcipher : k.crypto.cipher = "aes-128-ctr") (hiv : hexPart .iv k.crypto.iv = .ok iv)
    (hciphertext : hexPart .ciphertext k.crypto.ciphertext = .ok ciphertext)
    (hmac : hexPart .mac k.crypto.mac = .ok mac) (hivLength : iv.length = 16)
    (hlength : ciphertext.length = 32) (password : String) :
    k.decrypt password = do
      let derivation ← k.crypto.kdfparams.derivation k.crypto.kdf
      let derived := derivation.run (Utf8.encode password)
      if macOf derived ciphertext ≠ mac then throw .mac
      match KeyPair.ofBytes? (Counter.apply counterWidth (cipherKey derived) iv ciphertext) with
      | none => throw .secret
      | some key =>
        checkAddress key k.address
        return key := by
  rw [decrypt_eq_unmeasured]
  rewrite [if_neg (not_not_intro hversion), if_neg (not_not_intro hcipher), hiv, hciphertext, hmac, ok_bind,
    ok_bind, ok_bind, if_neg (not_not_intro hivLength), if_neg (not_not_intro hlength)]
  rfl

/-- What a keyfile gives under a password. -/
theorem decode_encode_eq : decode (encode key password iterations fresh) other =
    if ¬ Opens iterations then .error (.iterations iterations)
    else if ¬ SameCode key password other iterations fresh then .error .mac
    else unsealed key password other iterations fresh := by
  rw [decode, encode, ofBytes_toBytes]
  simp only
  rw [decrypt_eq (k := encrypt key password iterations fresh) rfl rfl (hexPart_text _ _)
    (hexPart_text _ _) (hexPart_text _ _) fresh.iv.length_toBytes
    (length_sealedSecret key password iterations fresh)]
  simp only [encrypt, derivation_written, checkAddress_text]
  by_cases hopens : Opens iterations
  · simp only [hopens, if_true, ok_bind, not_true_eq_false, if_false, Derivation.run]
    by_cases hcode : SameCode key password other iterations fresh
    · have hmac := hcode
      unfold SameCode sealedSecret derivedKey at hmac
      simp only [hcode, hmac, ne_eq, not_true_eq_false, if_false, unsealed, sealedSecret, derivedKey]
      generalize KeyPair.ofBytes? _ = found
      cases found with
      | none => rfl
      | some k =>
        by_cases haddress : k.address = key.address
        · simp only [haddress, if_true, ok_bind]
          rfl
        · simp only [haddress, if_false, error_bind]
    · have hmac := hcode
      unfold SameCode sealedSecret derivedKey at hmac
      simp only [hcode, hmac, ne_eq, not_false_eq_true, if_true]
      rfl
  · simp only [hopens, if_false, error_bind, not_false_eq_true, if_true]

/-- The password that a keyfile was sealed with opens it. -/
theorem decode_encode {iterations : UInt32} (h : Opens iterations) :
    decode (encode key password iterations fresh) password = .ok key := by
  have hcode : SameCode key password password iterations fresh := rfl
  have hsecret : unsealed key password password iterations fresh = .ok key := by
    simp only [unsealed, sealedSecret, Counter.apply_apply, KeyPair.ofBytes?_secretBytes, if_true]
  rw [decode_encode_eq, if_neg (not_not_intro h), if_neg (not_not_intro hcode), hsecret]

/-- No password opens a keyfile with a number of iterations that readers refuse. -/
theorem decode_encode_refused {iterations : UInt32} (h : ¬ Opens iterations) :
    decode (encode key password iterations fresh) other = .error (.iterations iterations) := by
  rw [decode_encode_eq, if_pos h]

/-- What the password that a keyfile was sealed with gives: the same key pair, so the same secret and the
same address, if readers take the number of iterations, and otherwise refused credentials. -/
theorem decode_encode_answer :
    (decode (encode key password iterations fresh) password).mapError AccountError.invalidCredentials =
      if 1 ≤ iterations.toNat ∧ iterations.toNat ≤ 10000000 then .ok key
      else .error (.invalidCredentials (.iterations iterations)) := by
  by_cases h : 1 ≤ iterations.toNat ∧ iterations.toNat ≤ 10000000
  · rw [decode_encode key password fresh h, if_pos h]
    rfl
  · rw [decode_encode_refused key password password fresh h, if_neg h]
    rfl

variable {key password other iterations fresh}

/-- A password that opens a keyfile has its code and gives a key pair of the same account. -/
theorem of_decode_encode {k : KeyPair}
    (h : decode (encode key password iterations fresh) other = .ok k) :
    k.address = key.address ∧ SameCode key password other iterations fresh := by
  rw [decode_encode_eq] at h
  split at h
  · cases h
  split at h
  · cases h
  · next hcode =>
    refine ⟨?_, Decidable.not_not.1 hcode⟩
    unfold unsealed at h
    split at h
    · cases h
    · split at h
      · next hk => cases h; exact hk
      · cases h

/-- What is opened has a number of iterations that readers take. -/
theorem opens_of_decode_encode {k : KeyPair}
    (h : decode (encode key password iterations fresh) other = .ok k) : Opens iterations := by
  by_contra hopens
  rw [decode_encode_refused key password other fresh hopens] at h
  cases h

/-- A password shorter than a block derives the same key as with a null character after it, because the
code's key is filled up with zeros. -/
theorem derivedKey_null (h : (Utf8.encode password).length < 64) :
    derivedKey (password ++ "\x00") iterations fresh = derivedKey password iterations fresh := by
  have hencode : Utf8.encode (password ++ "\x00") = Utf8.encode password ++ [0] := by
    rw [Utf8.encode, String.toList_append, List.flatMap_append]
    rfl
  have hblock : Hmac.keyBlock (Utf8.encode password ++ [0]) = Hmac.keyBlock (Utf8.encode password) := by
    have hlong : ¬ (Utf8.encode password).length > 64 := by omega
    have hlonger : ¬ (Utf8.encode password).length + 1 > 64 := by omega
    have hzeros : List.replicate (64 - (Utf8.encode password).length) (0 : UInt8) =
        0 :: List.replicate (64 - ((Utf8.encode password).length + 1)) 0 := by
      rw [← List.replicate_succ]
      congr 1
      omega
    simp only [Hmac.keyBlock, hlong, hlonger, if_false, List.length_append, List.length_singleton,
      hzeros, List.append_assoc, List.singleton_append]
  rw [derivedKey, derivedKey, hencode, Pbkdf2.derive, Pbkdf2.derive, Hmac.Key.ofBytes, Hmac.Key.ofBytes,
    hblock]

/-- So there are passwords that no keyfile tells apart. -/
theorem sameCode_null (key : KeyPair) (h : (Utf8.encode password).length < 64) :
    SameCode key password (password ++ "\x00") iterations fresh := by
  rw [SameCode, derivedKey_null h]

end

end Keyfile

/-! ## Values that theorems are tried on -/

/-- The key pair of the secret one. -/
def KeyPair.one : KeyPair :=
  ⟨1, by decide, by decide⟩

/-- The key pair of the secret two. -/
def KeyPair.two : KeyPair :=
  ⟨2, by decide, by decide⟩

/-- A seal of null bytes. -/
def Seal.zero : Seal :=
  ⟨⟨List.replicate 32 0, rfl⟩, ⟨List.replicate 16 0, rfl⟩, ⟨List.replicate 16 0, rfl⟩⟩

/-- The address of null bytes. -/
def Address.zero : Address :=
  ⟨⟨List.replicate 20 0, rfl⟩⟩

/-- The account of the secret one is not that of null bytes. -/
theorem KeyPair.address_one_ne : KeyPair.one.address ≠ .zero := by decide +kernel

/-- Nor that of the secret two. -/
theorem KeyPair.address_two_ne : KeyPair.two.address ≠ KeyPair.one.address := by decide +kernel

end Keyring
