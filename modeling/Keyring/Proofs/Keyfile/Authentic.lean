import Keyring.Proofs.Keyfile.Codec

/-!
# Authentic keyfiles

A keyfile is opened exactly if it is authentic (`Keyfile.decode_authentic`): its texts stand for bytes of
the right lengths, its code is that of the derived key and the encrypted secret (`Keyfile.Opening`), and
what is decrypted is a secret whose address is the one that the keyfile tells, if it tells one
(`Keyfile.Opening.Gives`). All other bytes are refused as credentials, and no part of the derived key that
is cut out lies beyond its end, though its length stands in the file (`Keyfile.run_decodeChecked`).
-/

namespace Keyring

/-- The bytes from `start` up to `stop`, if there are as many. -/
def Bytes.slice? (bytes : Bytes) (start stop : Nat) : Option Bytes :=
  if start ≤ stop ∧ stop ≤ bytes.length then some ((bytes.drop start).take (stop - start)) else none

/-- A part of bytes that are long enough is there. -/
theorem Bytes.slice?_eq {bytes : Bytes} {start stop : Nat} (h : start ≤ stop)
    (hstop : stop ≤ bytes.length) :
    bytes.slice? start stop = some ((bytes.drop start).take (stop - start)) :=
  if_pos ⟨h, hstop⟩

/-! ## The derived key -/

open Keyfile (Error of_bind_eq_ok of_check_eq_ok)

/-- Keys are derived with at least 32 bytes. -/
theorem le_of_derivedLength {dklen : UInt32} {length : Nat} (h : derivedLength dklen = .ok length) :
    32 ≤ length := by
  unfold derivedLength at h
  split at h
  · next hrange =>
    cases h
    exact hrange.1
  · cases h

/-- A derivation that is taken gives two keys at least. -/
theorem KdfParams.le_length {params : KdfParams} {kdf : String} {d : Derivation}
    (h : params.derivation kdf = .ok d) : 32 ≤ d.length := by
  cases params with
  | pbkdf2 dklen c prf salt =>
    obtain ⟨-, h⟩ := of_check_eq_ok h
    obtain ⟨-, h⟩ := of_check_eq_ok h
    obtain ⟨length, hlength, h⟩ := of_bind_eq_ok h
    obtain ⟨salt, -, h⟩ := of_bind_eq_ok h
    cases h
    exact le_of_derivedLength hlength
  | scrypt dklen n r p salt =>
    obtain ⟨-, h⟩ := of_check_eq_ok h
    obtain ⟨-, h⟩ := of_check_eq_ok h
    obtain ⟨-, h⟩ := of_check_eq_ok h
    obtain ⟨-, h⟩ := of_check_eq_ok h
    obtain ⟨length, hlength, h⟩ := of_bind_eq_ok h
    obtain ⟨salt, -, h⟩ := of_bind_eq_ok h
    obtain ⟨params, -, h⟩ := of_bind_eq_ok h
    obtain ⟨-, h⟩ := of_check_eq_ok h
    cases h
    exact le_of_derivedLength hlength

/-- The key that is derived from a password, or what is wrong with the parameters. -/
def Envelope.derive (e : Envelope) (password : String) : Except Error Bytes := do
  let derivation ← e.kdfparams.derivation e.kdf
  return derivation.run (Utf8.encode password)

/-- A key is derived exactly as its derivation runs. -/
theorem Envelope.derive_eq_ok_iff {e : Envelope} {password : String} {derived : Bytes} :
    e.derive password = .ok derived ↔
      ∃ d, e.kdfparams.derivation e.kdf = .ok d ∧ d.run (Utf8.encode password) = derived := by
  constructor
  · intro h
    obtain ⟨d, hd, h⟩ := of_bind_eq_ok h
    exact ⟨d, hd, Except.ok.inj h⟩
  · rintro ⟨d, hd, rfl⟩
    rw [derive, hd]
    rfl

/-- So it has at least 32 bytes, which is what is cut out of it. -/
theorem Envelope.le_length_of_derive {e : Envelope} {password : String} {derived : Bytes}
    (h : e.derive password = .ok derived) : 32 ≤ derived.length := by
  obtain ⟨d, hd, rfl⟩ := derive_eq_ok_iff.1 h
  rw [Derivation.length_run]
  exact KdfParams.le_length hd

namespace Keyfile

/-! ## What makes a keyfile authentic -/

/-- The text is the address in hexadecimal, behind any number of marks. -/
def IsAddressText (text : String) (address : Address) : Prop :=
  ∃ marks rest, text.toList = (List.replicate marks ['0', 'x']).flatten ++ rest ∧
    Hex.decode? rest = some address.toBytes

/-- What a keyfile stands for under a password, if its code is right. -/
structure Opening (k : Keyfile) (password : String) where
  iv : FixedBytes 16
  ciphertext : FixedBytes 32
  /-- The derived key. -/
  derived : Bytes
  /-- Its first half, which decrypts. -/
  cipherKey : FixedBytes 16
  /-- Its second half, which goes into the code. -/
  codeKey : FixedBytes 16
  version_eq : k.version = 3
  cipher_eq : k.crypto.cipher = "aes-128-ctr"
  iv_eq : Hex.ofText? k.crypto.iv = some iv.toBytes
  ciphertext_eq : Hex.ofText? k.crypto.ciphertext = some ciphertext.toBytes
  derived_eq : k.crypto.derive password = .ok derived
  cipherKey_eq : derived.slice? 0 16 = some cipherKey.toBytes
  codeKey_eq : derived.slice? 16 32 = some codeKey.toBytes
  mac_eq : Hex.ofText? k.crypto.mac = some (keccak256 (codeKey.toBytes ++ ciphertext.toBytes)).toBytes

namespace Opening
variable {k : Keyfile} {password : String}

/-- The decrypted secret: the encrypted one added to two blocks of the key stream. -/
def plain (o : Opening k password) : Bytes :=
  Bytes.xor o.ciphertext.toBytes
    (Counter.keyStream counterWidth (.ofBytes o.cipherKey.toBytes) o.iv.toBytes 2 0)

/-- The decrypted secret is that of the key pair, and no other address is told than the key pair's. -/
structure Gives (o : Opening k password) (key : KeyPair) : Prop where
  secret_eq : BigEndian.decode o.plain = key.secret
  isAddressText : ∀ text, k.address = some text → IsAddressText text key.address

/-- What is decrypted in an opening is its plain text. -/
theorem apply_eq_plain (o : Opening k password) :
    Counter.apply counterWidth o.cipherKey.toBytes o.iv.toBytes o.ciphertext.toBytes = o.plain := by
  rw [Counter.apply, o.ciphertext.length_toBytes]
  rfl

/-- The plain text is as long as a secret. -/
theorem length_plain (o : Opening k password) : o.plain.length = 32 := by
  rw [← o.apply_eq_plain, Counter.length_apply, o.ciphertext.length_toBytes]

end Opening

/-- The bytes are those of an authentic keyfile that holds the key pair under the password. -/
def IsAuthentic (bytes : Bytes) (password : String) (key : KeyPair) : Prop :=
  ∃ k, ofBytes bytes = .ok k ∧ ∃ o : Opening k password, o.Gives key

/-! ## Opening is what succeeds -/

/-- Any number of marks is dropped. -/
theorem decode?_dropHexMarks_iff {text : List Char} {bytes : Bytes} :
    Hex.decode? (dropHexMarks text) = some bytes ↔
      ∃ marks rest, text = (List.replicate marks ['0', 'x']).flatten ++ rest ∧
        Hex.decode? rest = some bytes := by
  constructor
  · intro h
    fun_induction dropHexMarks text with
    | case1 text ih =>
      obtain ⟨marks, rest, rfl, hrest⟩ := ih h
      exact ⟨marks + 1, rest, rfl, hrest⟩
    | case2 text => exact ⟨0, text, rfl, h⟩
  · rintro ⟨marks, rest, rfl, hrest⟩
    induction marks with
    | zero =>
      rw [List.replicate_zero, List.flatten_nil, List.nil_append, dropHexMarks_of_decode? hrest, hrest]
    | succ marks ih => exact ih

/-- The check of the address is passed if it is not told, or told in hexadecimal. -/
theorem checkAddress_eq_ok_iff {key : KeyPair} {address : Option String} :
    checkAddress key address = .ok () ↔
      ∀ text, address = some text → IsAddressText text key.address := by
  cases address with
  | none => exact ⟨nofun, fun _ => rfl⟩
  | some text =>
    have htext : IsAddressText text key.address ↔
        hexPart .address (String.ofList (dropHexMarks text.toList)) = .ok key.address.toBytes := by
      rw [hexPart_eq_ok_iff, Hex.ofText?, String.toList_ofList, decode?_dropHexMarks_iff, IsAddressText]
    constructor
    · rintro h _ ⟨⟩
      obtain ⟨recorded, hrecorded, h⟩ := of_bind_eq_ok h
      obtain ⟨hsame, -⟩ := of_check_eq_ok h
      rw [htext, hrecorded, Decidable.not_not.1 hsame]
    · intro h
      have hread := htext.1 (h text rfl)
      simp only [checkAddress, hread, ok_bind, ne_eq, not_true_eq_false, if_false]
      rfl

/-- Thirty-two bytes are a secret if their number is one. -/
theorem ofBytes?_eq_some_iff {bytes : Bytes} (h : bytes.length = 32) {key : KeyPair} :
    KeyPair.ofBytes? bytes = some key ↔ BigEndian.decode bytes = key.secret := by
  have hrange : 24 ≤ bytes.length ∧ bytes.length ≤ 32 := by omega
  rw [KeyPair.ofBytes?, if_pos hrange, KeyPair.ofNat?_eq_some_iff]

/-- A derived key has two halves of sixteen bytes. -/
theorem exists_halves {e : Envelope} {password : String} {derived : Bytes}
    (h : e.derive password = .ok derived) :
    ∃ first second : FixedBytes 16, derived.slice? 0 16 = some first.toBytes ∧
      derived.slice? 16 32 = some second.toBytes ∧ cipherKey derived = first.toBytes ∧
      ∀ ciphertext, macOf derived ciphertext = (keccak256 (second.toBytes ++ ciphertext)).toBytes := by
  have hlength := Envelope.le_length_of_derive h
  have hfirst : (derived.take 16).length = 16 := by
    rw [List.length_take]
    omega
  have hsecond : ((derived.drop 16).take 16).length = 16 := by
    rw [List.length_take, List.length_drop]
    omega
  exact ⟨⟨_, hfirst⟩, ⟨_, hsecond⟩, Bytes.slice?_eq (by omega) (by omega),
    Bytes.slice?_eq (by omega) hlength, rfl, fun _ => rfl⟩

/-- A keyfile that gives a key pair has an opening that gives it. -/
theorem exists_opening {k : Keyfile} {password : String} {key : KeyPair}
    (h : k.decrypt password = .ok key) : ∃ o : Opening k password, o.Gives key := by
  obtain ⟨haddress, hversion, hcipher, iv, ciphertext, mac, d, hiv, hciphertext, hmac, hivLength,
    hlength, hd, hcode, hkey⟩ := of_decrypt_eq_ok h
  have hderive : k.crypto.derive password = .ok (d.run (Utf8.encode password)) :=
    Envelope.derive_eq_ok_iff.2 ⟨d, hd, rfl⟩
  obtain ⟨first, second, hfirst, hsecond, hcipherKey, hmacOf⟩ := exists_halves hderive
  let o : Opening k password :=
    { iv := ⟨iv, hivLength⟩
      ciphertext := ⟨ciphertext, hlength⟩
      derived := d.run (Utf8.encode password)
      cipherKey := first
      codeKey := second
      version_eq := hversion
      cipher_eq := hcipher
      iv_eq := hexPart_eq_ok_iff.1 hiv
      ciphertext_eq := hexPart_eq_ok_iff.1 hciphertext
      derived_eq := hderive
      cipherKey_eq := hfirst
      codeKey_eq := hsecond
      mac_eq := by rw [hexPart_eq_ok_iff.1 hmac, ← hcode, hmacOf] }
  refine ⟨o, ?_, checkAddress_eq_ok_iff.1 haddress⟩
  rw [← ofBytes?_eq_some_iff o.length_plain, ← o.apply_eq_plain, ← hkey, hcipherKey]

/-- An opening that gives a key pair passes every check. -/
theorem Opening.decrypt_eq_ok {k : Keyfile} {password : String} {key : KeyPair}
    (o : Opening k password) (h : o.Gives key) : k.decrypt password = .ok key := by
  obtain ⟨d, hd, hderived⟩ := Envelope.derive_eq_ok_iff.1 o.derived_eq
  obtain ⟨first, second, hfirst, hsecond, hcipherKey, hmacOf⟩ := exists_halves o.derived_eq
  -- The halves are those of the opening.
  rw [o.cipherKey_eq] at hfirst
  rw [o.codeKey_eq] at hsecond
  rw [← Option.some.inj hfirst] at hcipherKey
  have hcode : macOf o.derived o.ciphertext.toBytes =
      (keccak256 (o.codeKey.toBytes ++ o.ciphertext.toBytes)).toBytes := by
    rw [hmacOf, Option.some.inj hsecond]
  have hkey : KeyPair.ofBytes? (Counter.apply counterWidth (Keyfile.cipherKey o.derived) o.iv.toBytes
      o.ciphertext.toBytes) = some key := by
    rw [hcipherKey, o.apply_eq_plain, ofBytes?_eq_some_iff o.length_plain]
    exact h.secret_eq
  rw [decrypt_eq o.version_eq o.cipher_eq (hexPart_eq_ok_iff.2 o.iv_eq)
    (hexPart_eq_ok_iff.2 o.ciphertext_eq) (hexPart_eq_ok_iff.2 o.mac_eq) o.iv.length_toBytes
    o.ciphertext.length_toBytes, hd, ok_bind]
  simp only [hderived, hcode, hkey, ne_eq, not_true_eq_false, if_false,
    checkAddress_eq_ok_iff.2 h.isAddressText]
  rfl

/-- A keyfile gives a key pair exactly if it has an opening that gives it. -/
theorem decrypt_eq_ok_iff {k : Keyfile} {password : String} {key : KeyPair} :
    k.decrypt password = .ok key ↔ ∃ o : Opening k password, o.Gives key :=
  ⟨exists_opening, fun ⟨o, h⟩ => o.decrypt_eq_ok h⟩

/-- A keyfile opens to a key pair exactly if it is authentic for that and the password. -/
theorem decode_eq_ok_iff {bytes : Bytes} {password : String} {key : KeyPair} :
    decode bytes password = .ok key ↔ IsAuthentic bytes password key := by
  unfold decode IsAuthentic
  cases hread : ofBytes bytes with
  | error fault => exact ⟨nofun, fun ⟨_, h, _⟩ => nomatch h⟩
  | ok k =>
    simp only [decrypt_eq_ok_iff]
    exact ⟨fun h => ⟨k, rfl, h⟩, fun ⟨_, h, ho⟩ => Except.ok.inj h ▸ ho⟩

/-- What is written is authentic, if readers take its number of iterations. -/
theorem isAuthentic_encode (key : KeyPair) (password : String) (fresh : Seal) {iterations : UInt32}
    (h : Opens iterations) : IsAuthentic (encode key password iterations fresh) password key :=
  decode_eq_ok_iff.1 (decode_encode key password fresh h)

/-! ## Ranges -/

/-- Opens a keyfile with every range and every length checked where it is relied on. There is no answer
if one is not right. -/
def decryptChecked (k : Keyfile) (password : String) : ExceptT Error Option KeyPair := do
  if k.version ≠ 3 then throw (.version k.version)
  if k.crypto.cipher ≠ "aes-128-ctr" then throw (.cipher k.crypto.cipher)
  let iv ← ofExcept (hexPart .iv k.crypto.iv)
  let ciphertext ← ofExcept (hexPart .ciphertext k.crypto.ciphertext)
  let mac ← ofExcept (hexPart .mac k.crypto.mac)
  if iv.length ≠ 16 then throw (.ivLength iv.length)
  if ciphertext.length ≠ 32 then throw (.ciphertextLength ciphertext.length)
  let derived ← ofExcept (k.crypto.derive password)
  let codeKey ← derived.slice? 16 32
  if (keccak256 (codeKey ++ ciphertext)).toBytes ≠ mac then throw .mac
  let cipherKey ← derived.slice? 0 16
  let cipherKey ← FixedBytes.ofBytes? 16 cipherKey
  let iv ← FixedBytes.ofBytes? 16 iv
  match KeyPair.ofBytes? (Counter.apply counterWidth cipherKey.toBytes iv.toBytes ciphertext) with
  | none => throw .secret
  | some key =>
    ofExcept (checkAddress key k.address)
    return key

/-- Answers the key pair in the bytes of a keyfile, with every range checked. -/
def decodeChecked (bytes : Bytes) (password : String) : ExceptT Error Option KeyPair := do
  let k ← ofExcept ((ofBytes bytes).mapError .malformed)
  decryptChecked k password

/-- A step that is not about ranges goes on as without the checks. -/
theorem run_ofExcept_bind {α β : Type} {x : Except Error α} {f : α → ExceptT Error Option β}
    {g : α → Except Error β} (h : ∀ a, x = .ok a → (f a).run = some (g a)) :
    (ofExcept x >>= f : ExceptT Error Option β).run = some (x >>= g) := by
  cases x with
  | error e => rfl
  | ok a => exact h a rfl

/-- A check that is not about ranges is made as without the checks of ranges. -/
theorem run_check {α : Type} {p : Prop} [Decidable p] {e : Error} {f : ExceptT Error Option α}
    {g : Except Error α} (h : ¬ p → f.run = some g) :
    (if p then throw e else f).run = some (if p then throw e else g) := by
  by_cases hp : p
  · rw [if_pos hp, if_pos hp]
    rfl
  · rw [if_neg hp, if_neg hp, h hp]

/-- A range that is right is no obstacle. -/
theorem run_some_bind {α β : Type} {x : Option α} {a : α} (h : x = some a)
    (f : α → ExceptT Error Option β) :
    ((liftM x : ExceptT Error Option α) >>= f).run = (f a).run := by
  subst h
  rfl

/-- No range and no length is wrong where it is relied on. -/
theorem run_decryptChecked (k : Keyfile) (password : String) :
    (decryptChecked k password).run = some (k.decrypt password) := by
  rw [decrypt_eq_unmeasured]
  unfold decryptChecked
  refine run_check fun _ => run_check fun _ => run_ofExcept_bind fun iv _ =>
    run_ofExcept_bind fun ciphertext _ => run_ofExcept_bind fun mac _ => run_check fun hiv =>
    run_check fun _ => ?_
  cases hd : k.crypto.kdfparams.derivation k.crypto.kdf with
  | error e =>
    rw [show k.crypto.derive password = .error e by rw [Envelope.derive, hd]; rfl]
    rfl
  | ok d =>
    have hderive : k.crypto.derive password = .ok (d.run (Utf8.encode password)) :=
      Envelope.derive_eq_ok_iff.2 ⟨d, hd, rfl⟩
    obtain ⟨first, second, hfirst, hsecond, hcipherKey, hmacOf⟩ := exists_halves hderive
    have hivFixed : FixedBytes.ofBytes? 16 iv = some ⟨iv, Decidable.not_not.1 hiv⟩ :=
      FixedBytes.ofBytes?_eq_some_iff.2 rfl
    rw [hderive]
    refine (run_some_bind hsecond _).trans ?_
    rw [← hmacOf]
    refine run_check fun _ => ?_
    refine (run_some_bind hfirst _).trans ?_
    refine (run_some_bind (FixedBytes.ofBytes?_toBytes first) _).trans ?_
    refine (run_some_bind hivFixed _).trans ?_
    simp only [hcipherKey]
    cases KeyPair.ofBytes? (Counter.apply counterWidth first.toBytes iv ciphertext) with
    | none => rfl
    | some key => exact run_ofExcept_bind fun _ _ => rfl

/-- No range is ever wrong, so that decoding with the checks of ranges is decoding. -/
theorem run_decodeChecked (bytes : Bytes) (password : String) :
    (decodeChecked bytes password).run = some (decode bytes password) := by
  unfold decodeChecked decode
  cases ofBytes bytes with
  | error fault => rfl
  | ok k => exact run_decryptChecked k password

/-- Bytes are opened exactly if they are those of an authentic keyfile, and all others are refused as
credentials; no range is wrong in either case. -/
theorem decode_authentic (bytes : Bytes) (password : String) :
    (∀ key, (decode bytes password).mapError AccountError.invalidCredentials = .ok key ↔
        IsAuthentic bytes password key) ∧
      ((¬ ∃ key, IsAuthentic bytes password key) ↔
        ∃ cause, (decode bytes password).mapError AccountError.invalidCredentials =
          .error (.invalidCredentials cause)) ∧
      (decodeChecked bytes password).run = some (decode bytes password) := by
  refine ⟨fun key => ?_, ?_, run_decodeChecked bytes password⟩
  · rw [← decode_eq_ok_iff]
    cases decode bytes password with
    | error cause => exact ⟨nofun, nofun⟩
    | ok found => exact ⟨fun h => congrArg _ (Except.ok.inj h), fun h => congrArg _ (Except.ok.inj h)⟩
  · simp only [← decode_eq_ok_iff]
    cases decode bytes password with
    | error cause => exact ⟨fun _ => ⟨cause, rfl⟩, fun _ => nofun⟩
    | ok found => exact ⟨fun h => absurd ⟨found, rfl⟩ h, nofun⟩

end Keyfile

end Keyring
