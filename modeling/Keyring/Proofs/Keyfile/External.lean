import Keyring.Keystore
import Keyring.Proofs.Bytes.Spelling
import Keyring.Proofs.Keyfile.Authentic

/-!
# Keyfiles of every derivation and spelling

A writer who uses the cipher of this library may still derive the key with PBKDF2 or scrypt, with any numbers
that are accepted, a salt of any length and more bytes than are needed; and may write digits in either case,
and the address behind any number of marks, or not at all (`Keyfile.IsWritten`). The library's own keyfiles
are among these. The password opens whatever is written so (`Keyfile.decrypt_written`), and in every
keystore, because the number of iterations that a keystore seals its own keyfiles with has no part in opening.
-/

namespace Keyring

/-- The parameters with another text as their salt. -/
def KdfParams.withSalt (text : String) : KdfParams → KdfParams
  | pbkdf2 dklen c prf _ => pbkdf2 dklen c prf text
  | scrypt dklen n r p _ => scrypt dklen n r p text

/-- Parameters stand for the same derivation under every text that stands for the same salt. -/
theorem KdfParams.derivation_withSalt {text other : String} (h : Hex.ofText? text = Hex.ofText? other)
    (kdf : String) (params : KdfParams) :
    (params.withSalt text).derivation kdf = (params.withSalt other).derivation kdf := by
  have hpart : hexPart .salt text = hexPart .salt other := by
    rw [hexPart, hexPart, h]
  cases params with
  | pbkdf2 dklen c prf salt => simp only [withSalt, derivation, hpart]
  | scrypt dklen n r p salt => simp only [withSalt, derivation, hpart]

namespace Keyfile

/-- The text is the address in either case, behind any number of marks. -/
def SpellsAddress (text : String) (address : Address) : Prop :=
  ∃ marks digits, text.toList = (List.replicate marks ['0', 'x']).flatten ++ digits ∧
    Hex.Spells digits address.toBytes

/-- A part whose digits spell bytes is accepted as these. -/
theorem hexPart_of_spells {part : HexPart} {text : String} {bytes : Bytes}
    (h : Hex.Spells text.toList bytes) : hexPart part text = .ok bytes :=
  hexPart_eq_ok_iff.2 (Hex.ofText?_of_spells h)

/-- A text that spells an address is one of it. -/
theorem SpellsAddress.isAddressText {text : String} {address : Address} (h : SpellsAddress text address) :
    IsAddressText text address := by
  obtain ⟨marks, digits, htext, hdigits⟩ := h
  exact ⟨marks, digits, htext, Hex.decode?_of_spells hdigits⟩

/-- What a keyfile is written from: a key pair, its password, the first counter block, the salt and the
derivation. -/
structure Writing where
  key : KeyPair
  password : String
  iv : FixedBytes 16
  salt : Bytes
  derivation : Derivation

namespace Writing

/-- The derived key. -/
def derived (w : Writing) : Bytes :=
  w.derivation.run (Utf8.encode w.password)

/-- The encrypted secret. -/
def ciphertext (w : Writing) : Bytes :=
  Counter.apply counterWidth (cipherKey w.derived) w.iv.toBytes w.key.secretBytes.toBytes

@[simp] theorem length_ciphertext (w : Writing) : w.ciphertext.length = 32 := by
  rw [ciphertext, Counter.length_apply, w.key.secretBytes.length_toBytes]

end Writing

/-- The keyfile is what a writer makes of a key pair under a password. Its derivation is one that the
reader takes with the salt in lowercase; all digits of the keyfile may be in either case. -/
structure IsWritten (k : Keyfile) (w : Writing) : Prop where
  version_eq : k.version = 3
  cipher_eq : k.crypto.cipher = "aes-128-ctr"
  address_spelled : ∀ text, k.address = some text → SpellsAddress text w.key.address
  iv_spelled : Hex.Spells k.crypto.iv.toList w.iv.toBytes
  ciphertext_spelled : Hex.Spells k.crypto.ciphertext.toList w.ciphertext
  mac_spelled : Hex.Spells k.crypto.mac.toList (macOf w.derived w.ciphertext)
  kdfparams_spelled : ∃ (params : KdfParams) (salt : String), k.crypto.kdfparams = params.withSalt salt ∧
    Hex.Spells salt.toList w.salt ∧
    (params.withSalt (Hex.text w.salt)).derivation k.crypto.kdf = .ok w.derivation

namespace IsWritten
variable {k : Keyfile} {w : Writing}

/-- The derivation is the writer's, in whatever case the salt is written. -/
theorem derivation_eq (h : k.IsWritten w) :
    k.crypto.kdfparams.derivation k.crypto.kdf = .ok w.derivation := by
  obtain ⟨params, salt, hparams, hsalt, haccepted⟩ := h.kdfparams_spelled
  have hsame : Hex.ofText? salt = Hex.ofText? (Hex.text w.salt) := by
    rw [Hex.ofText?_of_spells hsalt, Hex.ofText?_text]
  rw [hparams, KdfParams.derivation_withSalt hsame, haccepted]

/-- The code is right, the key stream is added a second time, and no other address is told. -/
theorem decrypt_eq (h : k.IsWritten w) : k.decrypt w.password = .ok w.key := by
  have hplain : Counter.apply counterWidth (cipherKey w.derived) w.iv.toBytes w.ciphertext =
      w.key.secretBytes.toBytes := Counter.apply_apply ..
  have haddress : checkAddress w.key k.address = .ok () := by
    rw [checkAddress_eq_ok_iff]
    intro text htext
    exact (h.address_spelled text htext).isAddressText
  have hderived : w.derivation.run (Utf8.encode w.password) = w.derived := rfl
  rw [Keyfile.decrypt_eq h.version_eq h.cipher_eq (hexPart_of_spells h.iv_spelled)
    (hexPart_of_spells h.ciphertext_spelled) (hexPart_of_spells h.mac_spelled) w.iv.length_toBytes
    w.length_ciphertext, h.derivation_eq, ok_bind]
  simp only [hderived, ne_eq, not_true_eq_false, if_false, hplain, KeyPair.ofBytes?_secretBytes, haddress]
  rfl

end IsWritten

/-- What the library itself writes a keyfile from. -/
def Writing.sealing (key : KeyPair) (password : String) (iterations : UInt32) (fresh : Seal) : Writing where
  key := key
  password := password
  iv := fresh.iv
  salt := fresh.salt.toBytes
  derivation := .pbkdf2 fresh.salt.toBytes iterations.toNat 32

/-- The keyfiles of the library are written so, if readers take their number of iterations. -/
theorem isWritten_encrypt (key : KeyPair) (password : String) (fresh : Seal) {iterations : UInt32}
    (h : Opens iterations) :
    (encrypt key password iterations fresh).IsWritten (.sealing key password iterations fresh) where
  version_eq := rfl
  cipher_eq := rfl
  address_spelled := by
    rintro _ ⟨⟩
    refine ⟨0, (Hex.text key.address.toBytes).toList, ?_, Hex.spells_text key.address.toBytes⟩
    rw [List.replicate_zero, List.flatten_nil, List.nil_append]
  iv_spelled := Hex.spells_text fresh.iv.toBytes
  ciphertext_spelled := Hex.spells_text (Writing.sealing key password iterations fresh).ciphertext
  mac_spelled := by
    let w := Writing.sealing key password iterations fresh
    exact Hex.spells_text (macOf w.derived w.ciphertext)
  kdfparams_spelled := by
    refine ⟨.pbkdf2 32 iterations "hmac-sha256" "", _, rfl, Hex.spells_text fresh.salt.toBytes, ?_⟩
    exact (derivation_written iterations fresh).trans (if_pos h)

/-- The password of a keyfile that was written by others opens it to the key pair that was written. Every
keystore imports it as that key pair, whatever number of iterations the keystore itself seals with. -/
theorem decrypt_written {k : Keyfile} {w : Writing} (h : k.IsWritten w) :
    k.decrypt w.password = .ok w.key ∧
      ∀ {σ : Type} (keystore : Keystore σ) (content : Bytes), ofBytes content = .ok k →
        decode content w.password = .ok w.key ∧
        ∀ newPassword fresh, keystore.importKeyfile content w.password newPassword fresh =
          keystore.importKey w.key newPassword fresh := by
  have hdecrypt := h.decrypt_eq
  refine ⟨hdecrypt, ?_⟩
  intro σ keystore content hcontent
  have hdecode : decode content w.password = .ok w.key := by
    rw [decode, hcontent]
    exact hdecrypt
  refine ⟨hdecode, ?_⟩
  intro newPassword fresh
  rw [Keystore.importKeyfile, hdecode]

/-! ### A writer of capital digits -/

namespace Writing

/-- The keyfile of a writer who puts the address behind two marks and writes all digits as capitals. -/
def inCapitals (w : Writing) (kdf : String) (params : KdfParams) : Keyfile where
  version := 3
  address := some (String.ofList ("0x0x".toList ++ Hex.capitals w.key.address.toBytes))
  crypto :=
    { cipher := "aes-128-ctr"
      ciphertext := String.ofList (Hex.capitals w.ciphertext)
      iv := String.ofList (Hex.capitals w.iv.toBytes)
      kdf := kdf
      kdfparams := params.withSalt (String.ofList (Hex.capitals w.salt))
      mac := String.ofList (Hex.capitals (macOf w.derived w.ciphertext)) }
  id := ""

/-- The text of bytes in capitals spells them. -/
theorem spells_ofList_capitals (bytes : Bytes) :
    Hex.Spells (String.ofList (Hex.capitals bytes)).toList bytes := by
  rw [String.toList_ofList]
  exact Hex.spells_capitals bytes

/-- A keyfile in capitals is one that may be written for it. -/
theorem isWritten_inCapitals (w : Writing) {kdf : String} {params : KdfParams}
    (h : (params.withSalt (Hex.text w.salt)).derivation kdf = .ok w.derivation) :
    (w.inCapitals kdf params).IsWritten w where
  version_eq := rfl
  cipher_eq := rfl
  address_spelled := by
    rintro _ ⟨⟩
    exact ⟨2, _, String.toList_ofList, Hex.spells_capitals _⟩
  iv_spelled := spells_ofList_capitals _
  ciphertext_spelled := spells_ofList_capitals _
  mac_spelled := spells_ofList_capitals _
  kdfparams_spelled := ⟨params, _, rfl, spells_ofList_capitals _, h⟩

/-- The secret one under the password p, with a salt of one byte and the longest key that scrypt derives. -/
def sample : Writing where
  key := .one
  password := "p"
  iv := Seal.zero.iv
  salt := [0xab]
  derivation := .scrypt [0xab] 2 1 1 64

/-- The sample in capitals is one that may be written for the sample. -/
theorem isWritten_sample :
    (sample.inCapitals "scrypt" (.scrypt 64 2 1 1 "")).IsWritten sample :=
  isWritten_inCapitals sample rfl

end Writing

/-- What was derived with scrypt and written in capitals is imported by every keystore. -/
theorem decrypt_written_sample :
    let k := Writing.sample.inCapitals "scrypt" (.scrypt 64 2 1 1 "")
    k.IsWritten Writing.sample ∧ k.decrypt "p" = .ok .one ∧
      ∀ keystore : Keystore Disk, decode k.toBytes "p" = .ok .one ∧
        ∀ newPassword fresh, keystore.importKeyfile k.toBytes "p" newPassword fresh =
          keystore.importKey .one newPassword fresh := by
  intro k
  have hwritten : k.IsWritten Writing.sample := Writing.isWritten_sample
  obtain ⟨hdecrypt, himport⟩ := decrypt_written hwritten
  exact ⟨hwritten, hdecrypt, fun keystore => himport keystore k.toBytes k.ofBytes_toBytes⟩

end Keyfile

end Keyring
