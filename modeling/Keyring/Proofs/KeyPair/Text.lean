import Keyring.Manager
import Keyring.Proofs.Address.Text
import Keyring.Proofs.Keyfile.Codec
import Keyring.Proofs.Text.Blank

/-!
# Secrets in hexadecimal

A key pair is read from a text that spells twenty-four to thirty-two bytes, between blanks and behind at
most one mark (`KeyPair.IsText`), if their number is a secret. Its own text is one of these: it is read back,
whatever the case of its digits, the mark before them and the blanks around (`KeyPair.ofText?_exact`).
-/

namespace Keyring

namespace BigEndian

/-- Zeros in front do not count. -/
theorem decode_replicate_append (count : Nat) (bytes : Bytes) :
    decode (List.replicate count 0 ++ bytes) = decode bytes := by
  induction count with
  | zero => rfl
  | succ count ih => exact ih

/-- Digits of a smaller width are written behind zeros. -/
theorem encode_decode_of_le {bytes : Bytes} {width : Nat} (h : bytes.length ≤ width) :
    encode width (decode bytes) = List.replicate (width - bytes.length) 0 ++ bytes := by
  have hlength : (List.replicate (width - bytes.length) 0 ++ bytes).length = width := by
    rw [List.length_append, List.length_replicate]
    omega
  have hencode := encode_decode (List.replicate (width - bytes.length) 0 ++ bytes)
  rw [hlength, decode_replicate_append] at hencode
  exact hencode

end BigEndian

namespace Hex

/-- No digit is blank, nor is a mark. -/
theorem isBlank_of_digitValue? {c : Char} {n : Nat} (h : digitValue? c = some n) :
    Text.isBlank c = false := by
  have hrange := toNat_of_digitValue? h
  simp [Text.isBlank]
  omega

/-- Digits and the mark before them are no blanks. -/
theorem SpellsMarked.isBlank {text : List Char} {bytes : Bytes} (h : SpellsMarked text bytes) :
    ∀ c ∈ text, Text.isBlank c = false := by
  obtain ⟨mark, hmark, digits, rfl, hdigits⟩ := h
  have hmarks : marks.all (fun mark => mark.all fun c => !Text.isBlank c) = true := by decide
  intro c hc
  rcases List.mem_append.1 hc with hc | hc
  · have hnot := List.all_eq_true.1 (List.all_eq_true.1 hmarks mark hmark) c hc
    rwa [Bool.not_eq_true'] at hnot
  · obtain ⟨n, hn⟩ := (of_decode? (decode?_of_spells hdigits)).2 c hc
    exact isBlank_of_digitValue? hn

end Hex

namespace KeyPair

variable {text : String} {bytes : Bytes} {key : KeyPair}

/-- The text spells the bytes between blanks, behind a mark or without one. -/
def IsText (text : String) (bytes : Bytes) : Prop :=
  ∃ before spelling after, text.toList = before ++ spelling ++ after ∧ Text.AllBlank before ∧
    Text.AllBlank after ∧ Hex.SpellsMarked spelling bytes

/-- The bytes are a secret with at most eight zeros in front left out. -/
structure IsSecret (bytes : Bytes) : Prop where
  length_ge : 24 ≤ bytes.length
  length_le : bytes.length ≤ 32
  pos : 0 < BigEndian.decode bytes
  lt_order : BigEndian.decode bytes < Secp256k1.order

/-! ## Reading -/

/-- The bytes that are read from a text are those that it spells. -/
theorem decode?_trim_iff : Hex.decode? (Address.dropHexMark (Text.trim text.toList)) = some bytes ↔
    IsText text bytes := by
  rw [Address.decode?_dropHexMark]
  constructor
  · intro h
    obtain ⟨before, after, htext, hbefore, hafter⟩ := Text.exists_blanks text.toList
    exact ⟨before, _, after, htext, hbefore, hafter, h⟩
  · rintro ⟨before, spelling, after, htext, hbefore, hafter, h⟩
    rw [htext, Text.trim_append hbefore hafter h.isBlank]
    exact h

/-- Bytes are read as a key pair exactly if there are 24 to 32 of them and they tell its secret. -/
theorem ofBytes?_eq_some_iff : ofBytes? bytes = some key ↔
    24 ≤ bytes.length ∧ bytes.length ≤ 32 ∧ BigEndian.decode bytes = key.secret := by
  unfold ofBytes?
  split
  · next h => rw [ofNat?_eq_some_iff]; exact ⟨fun heq => ⟨h.1, h.2, heq⟩, fun heq => heq.2.2⟩
  · next h => exact ⟨nofun, fun heq => absurd ⟨heq.1, heq.2.1⟩ h⟩

/-- The bytes of a secret tell it. -/
theorem decode_secretBytes (key : KeyPair) : BigEndian.decode key.secretBytes.toBytes = key.secret :=
  BigEndian.decode_encode_of_lt (Nat.lt_trans key.secret_lt (by decide))

/-- The bytes of a secret are those of its number, behind zeros. -/
theorem secretBytes_eq_iff (h : bytes.length ≤ 32) :
    key.secretBytes.toBytes = List.replicate (32 - bytes.length) 0 ++ bytes ↔
      BigEndian.decode bytes = key.secret := by
  constructor
  · intro heq
    rw [← decode_secretBytes, heq, BigEndian.decode_replicate_append]
  · intro heq
    rw [← BigEndian.encode_decode_of_le h, heq]
    rfl

/-- A key pair is read from a text that spells its secret, perhaps without zeros in front. -/
theorem ofText?_eq_some_iff : ofText? text = some key ↔
    ∃ bytes, IsText text bytes ∧ 24 ≤ bytes.length ∧ bytes.length ≤ 32 ∧
      BigEndian.decode bytes = key.secret := by
  simp only [ofText?, Option.bind_eq_some_iff, decode?_trim_iff, ofBytes?_eq_some_iff]

/-- Some key pair is read if the number of the bytes is a secret. -/
theorem exists_ofText?_iff :
    (∃ key, ofText? text = some key) ↔ ∃ bytes, IsText text bytes ∧ IsSecret bytes := by
  constructor
  · rintro ⟨key, hread⟩
    obtain ⟨bytes, htext, hge, hle, hsecret⟩ := ofText?_eq_some_iff.1 hread
    exact ⟨bytes, htext, hge, hle, hsecret ▸ key.secret_pos, hsecret ▸ key.secret_lt⟩
  · rintro ⟨bytes, htext, hsecret⟩
    exact ⟨⟨_, hsecret.pos, hsecret.lt_order⟩,
      ofText?_eq_some_iff.2 ⟨bytes, htext, hsecret.length_ge, hsecret.length_le, rfl⟩⟩

/-- A text of no key pair is refused where one is imported. -/
theorem importSecret_of_none {σ : Type} (manager : Manager σ) (h : ofText? text = none) (password : String)
    (fresh : Seal) (session : Session σ) :
    manager.importSecret text password fresh session = .error .invalidPrivateKey session := by
  unfold Manager.importSecret
  rw [h]
  rfl

/-! ## Writing -/

/-- The text of a secret is `0x` and sixty-four lowercase digits that spell its bytes. -/
theorem exists_secretText (key : KeyPair) : ∃ digits, key.secretText.toList = ['0', 'x'] ++ digits ∧
    digits.length = 64 ∧ (∀ c ∈ digits, c ∈ Hex.lowercaseDigits) ∧
    Hex.Spells digits key.secretBytes.toBytes := by
  have htext : key.secretText.toList = ['0', 'x'] ++ Hex.encode key.secretBytes.toBytes := by
    rw [secretText, String.toList_ofList, List.cons_append, List.cons_append, List.nil_append]
  refine ⟨_, htext, ?_, fun c => Hex.mem_lowercaseDigits_of_mem_encode, Hex.spells_encode _⟩
  rw [Hex.length_encode, key.secretBytes.length_toBytes]

/-- What is printed of a secret is a text of it. -/
theorem isText_secretText (key : KeyPair) : IsText key.secretText key.secretBytes.toBytes := by
  obtain ⟨digits, htext, -, -, hdigits⟩ := key.exists_secretText
  refine ⟨[], ['0', 'x'] ++ digits, [], ?_, nofun, nofun, ['0', 'x'], by simp [Hex.marks], digits, rfl,
    hdigits⟩
  rw [List.append_nil, List.nil_append, htext]

/-- Every text that spells the bytes of a secret is read as its key pair. -/
theorem ofText?_of_isText (h : IsText text key.secretBytes.toBytes) : ofText? text = some key := by
  have hlength := key.secretBytes.length_toBytes
  refine ofText?_eq_some_iff.2 ⟨key.secretBytes.toBytes, h, ?_, ?_, key.decode_secretBytes⟩
  · rw [hlength]; decide
  · rw [hlength]

/-- A text is read as a key pair exactly if it spells a secret of twenty-four to thirty-two bytes, between
blanks and behind at most one mark; the key pair's secret then is these bytes, behind zeros up to thirty-two.
Where any other text is imported, it is refused as no private key and nothing is changed. The text of a key
pair is `0x` and sixty-four lowercase digits that spell its secret; it is read back, as are all texts that
spell this secret, and so are its bytes. -/
theorem ofText?_exact (text : String) (key : KeyPair) :
    ((∃ found, ofText? text = some found) ↔ ∃ bytes, IsText text bytes ∧ IsSecret bytes) ∧
    (ofText? text = some key ↔ ∃ bytes, IsText text bytes ∧ 24 ≤ bytes.length ∧ bytes.length ≤ 32 ∧
      key.secretBytes.toBytes = List.replicate (32 - bytes.length) 0 ++ bytes) ∧
    ((¬ ∃ bytes, IsText text bytes ∧ IsSecret bytes) →
      ∀ (σ : Type) (manager : Manager σ) password fresh session,
        manager.importSecret text password fresh session = .error .invalidPrivateKey session) ∧
    (∃ digits, key.secretText.toList = ['0', 'x'] ++ digits ∧ digits.length = 64 ∧
      (∀ c ∈ digits, c ∈ Hex.lowercaseDigits) ∧ Hex.Spells digits key.secretBytes.toBytes) ∧
    ofText? key.secretText = some key ∧
    (IsText text key.secretBytes.toBytes → ofText? text = some key) ∧
    ofBytes? key.secretBytes.toBytes = some key := by
  refine ⟨exists_ofText?_iff, ?_, fun hnone σ manager password fresh session => ?_, key.exists_secretText,
    ofText?_of_isText key.isText_secretText, ofText?_of_isText, ofBytes?_secretBytes key⟩
  · rw [ofText?_eq_some_iff]
    refine exists_congr fun bytes => and_congr_right fun _ => and_congr_right fun _ => ?_
    exact and_congr_right fun hle => (secretBytes_eq_iff hle).symm
  · refine importSecret_of_none manager ?_ password fresh session
    rw [← exists_ofText?_iff] at hnone
    exact Option.eq_none_iff_forall_ne_some.2 fun found hfound => hnone ⟨found, hfound⟩

/-- The secret one in twenty-four bytes, behind the capital mark and between blanks. -/
def paddedText : String :=
  "\t 0X000000000000000000000000000000000000000000000001\n"

/-- What spells it in full is read as the key pair of one, and so is the shorter text, but not behind a second
mark. -/
theorem ofText?_exact_padded :
    IsText KeyPair.one.secretText KeyPair.one.secretBytes.toBytes ∧
      ofText? KeyPair.one.secretText = some .one ∧ ofText? paddedText = some .one ∧
      (¬ ∃ bytes, IsText ("0x" ++ KeyPair.one.secretText) bytes ∧ IsSecret bytes) ∧
      ∀ (σ : Type) (manager : Manager σ) password fresh session,
        manager.importSecret ("0x" ++ KeyPair.one.secretText) password fresh session =
          .error .invalidPrivateKey session := by
  have hfull := KeyPair.one.isText_secretText
  obtain ⟨-, -, -, -, -, hread, -⟩ := ofText?_exact KeyPair.one.secretText .one
  obtain ⟨hmarked, -, hrefused, -⟩ := ofText?_exact ("0x" ++ KeyPair.one.secretText) .one
  have hnone : ¬ ∃ bytes, IsText ("0x" ++ KeyPair.one.secretText) bytes ∧ IsSecret bytes := by
    rw [← hmarked]
    rintro ⟨found, hfound⟩
    rw [show ofText? ("0x" ++ KeyPair.one.secretText) = none from rfl] at hfound
    cases hfound
  exact ⟨hfull, hread hfull, rfl, hnone, hrefused hnone⟩

end KeyPair

end Keyring
