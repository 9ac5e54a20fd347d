import Keyring.Proofs.Keyfile.Authentic

/-!
# Tampering with keyfiles

The code of a keyfile is the hash of one half of the derived key and the encrypted secret
(`Keyfile.Coded`). Two keyfiles that are opened with one code agree in both, or else show two byte strings
with one hash (`Keyfile.Opening.same_or_collide`). Nothing is assumed about the hash: that some byte
strings collide is known, and here they are those of the two keyfiles. So a change of the encrypted secret,
or a password whose half of the derived key is another one, is refused or shows a collision; and whatever is
changed besides the address, the key pair is one of that address (`Keyfile.decrypt_tampered`).
-/

namespace Keyring

/-- Two different byte strings have one hash. -/
def Collide (a b : Bytes) : Prop :=
  a ≠ b ∧ keccak256 a = keccak256 b

namespace Keyfile

/-- What the code is over. -/
structure Coded where
  /-- The second half of the derived key. -/
  codeKey : Bytes
  ciphertext : Bytes

/-- The byte string whose hash the code is. -/
def Coded.bytes (c : Coded) : Bytes :=
  c.codeKey ++ c.ciphertext

/-- What the code of the keyfile is over under a password, if its parts are understood. -/
def coded? (k : Keyfile) (password : String) : Option Coded := do
  let derived ← (k.crypto.derive password).toOption
  let codeKey ← derived.slice? 16 32
  let ciphertext ← Hex.ofText? k.crypto.ciphertext
  return ⟨codeKey, ciphertext⟩

/-- The bytes that the text of an address stands for behind its marks. -/
def recorded? (text : String) : Option Bytes :=
  Hex.decode? (dropHexMarks text.toList)

/-- A recorded text tells an address exactly if it is one of that address. -/
theorem recorded?_eq_some_iff {text : String} {address : Address} :
    recorded? text = some address.toBytes ↔ IsAddressText text address :=
  decode?_dropHexMarks_iff

/-- The coded parts of a keyfile are there exactly if a key is derived and the ciphertext is hexadecimal. -/
theorem coded?_eq_some_iff {k : Keyfile} {password : String} {c : Coded} :
    k.coded? password = some c ↔ ∃ derived, k.crypto.derive password = .ok derived ∧
      derived.slice? 16 32 = some c.codeKey ∧ Hex.ofText? k.crypto.ciphertext = some c.ciphertext := by
  constructor
  · intro h
    obtain ⟨derived, hderived, h⟩ := Option.bind_eq_some_iff.1 h
    obtain ⟨codeKey, hkey, h⟩ := Option.bind_eq_some_iff.1 h
    obtain ⟨ciphertext, hciphertext, h⟩ := Option.bind_eq_some_iff.1 h
    cases h
    refine ⟨derived, ?_, hkey, hciphertext⟩
    cases hresult : k.crypto.derive password with
    | error e =>
      rw [hresult] at hderived
      cases hderived
    | ok found =>
      rw [hresult] at hderived
      rw [Option.some.inj hderived]
  · rintro ⟨derived, hderived, hkey, hciphertext⟩
    rw [coded?, hderived, hciphertext]
    simp only [Except.toOption, Option.bind_eq_bind, Option.bind_some, hkey]
    rfl

/-- If the code is over something under one password, then so it is under every other, because the
parameters are accepted or not whatever the password is. -/
theorem exists_coded {k : Keyfile} {password : String} {c : Coded} (h : k.coded? password = some c)
    (given : String) : ∃ codeKey, k.coded? given = some ⟨codeKey, c.ciphertext⟩ := by
  obtain ⟨derived, hderived, -, hciphertext⟩ := coded?_eq_some_iff.1 h
  obtain ⟨d, hd, -⟩ := Envelope.derive_eq_ok_iff.1 hderived
  have hgiven : k.crypto.derive given = .ok (d.run (Utf8.encode given)) :=
    Envelope.derive_eq_ok_iff.2 ⟨d, hd, rfl⟩
  obtain ⟨-, second, -, hsecond, -⟩ := exists_halves hgiven
  exact ⟨second.toBytes, coded?_eq_some_iff.2 ⟨_, hgiven, hsecond, hciphertext⟩⟩

namespace Opening
variable {k other : Keyfile} {password given : String}

/-- What the code is over. -/
def coded (o : Opening k password) : Coded :=
  ⟨o.codeKey.toBytes, o.ciphertext.toBytes⟩

/-- The coded parts of a keyfile that opens are those that it was opened with. -/
theorem coded?_eq (o : Opening k password) : k.coded? password = some o.coded :=
  coded?_eq_some_iff.2 ⟨o.derived, o.derived_eq, o.codeKey_eq, o.ciphertext_eq⟩

/-- The halves of derived keys have one length, so the byte strings tell them from the encrypted secrets. -/
theorem coded_eq_of_bytes_eq {o : Opening k password} {o' : Opening other given}
    (h : o'.coded.bytes = o.coded.bytes) : o'.coded = o.coded := by
  have hlength : o'.codeKey.toBytes.length = o.codeKey.toBytes.length := by
    rw [o'.codeKey.length_toBytes, o.codeKey.length_toBytes]
  obtain ⟨hkey, hciphertext⟩ := List.append_inj h hlength
  exact congrArg₂ Coded.mk hkey hciphertext

/-- Two keyfiles that are opened with one code agree in what the code is over, or what they differ in has
one hash. -/
theorem same_or_collide (o : Opening k password) (o' : Opening other given)
    (hmac : Hex.ofText? other.crypto.mac = Hex.ofText? k.crypto.mac) :
    o'.coded = o.coded ∨ Collide o.coded.bytes o'.coded.bytes := by
  -- Both codes are the hash of such a byte string, so the hashes are the same in either case.
  by_cases h : o'.coded.bytes = o.coded.bytes
  · exact .inl (coded_eq_of_bytes_eq h)
  · have hhash : some (keccak256 o'.coded.bytes).toBytes = some (keccak256 o.coded.bytes).toBytes := by
      calc some (keccak256 o'.coded.bytes).toBytes = Hex.ofText? other.crypto.mac := o'.mac_eq.symm
        _ = Hex.ofText? k.crypto.mac := hmac
        _ = some (keccak256 o.coded.bytes).toBytes := o.mac_eq
    exact .inr ⟨Ne.symm h, (FixedBytes.ext (Option.some.inj hhash)).symm⟩

/-- A keyfile with the same code over something else is refused, or what the codes are over has one hash. -/
theorem refused_or_collide (o : Opening k password)
    (hmac : Hex.ofText? other.crypto.mac = Hex.ofText? k.crypto.mac)
    (h : other.coded? given ≠ some o.coded) :
    (∃ e, other.decrypt given = .error e) ∨
      ∃ c, other.coded? given = some c ∧ Collide o.coded.bytes c.bytes := by
  cases hdecrypt : other.decrypt given with
  | error e => exact .inl ⟨e, rfl⟩
  | ok found =>
    obtain ⟨o', -⟩ := exists_opening hdecrypt
    rw [o'.coded?_eq] at h
    have hne : o'.coded ≠ o.coded := fun heq => h (congrArg some heq)
    exact .inr ⟨o'.coded, o'.coded?_eq, (o.same_or_collide o' hmac).resolve_left hne⟩

end Opening

/-- Keyfiles that tell one address, in whatever spelling, are opened to key pairs of that address. -/
theorem Opening.Gives.same_address {k other : Keyfile} {password given : String} {key found : KeyPair}
    {o : Opening k password} {o' : Opening other given} (h : o.Gives key) (h' : o'.Gives found)
    {text text' : String} (htext : k.address = some text) (htext' : other.address = some text')
    (hsame : recorded? text = recorded? text') :
    recorded? text = some key.address.toBytes ∧ found.address = key.address := by
  have hown : recorded? text = some key.address.toBytes :=
    recorded?_eq_some_iff.2 (h.isAddressText text htext)
  have hother : recorded? text' = some found.address.toBytes :=
    recorded?_eq_some_iff.2 (h'.isAddressText text' htext')
  have hbytes : found.address.toBytes = key.address.toBytes := by
    rw [hsame, hother] at hown
    exact Option.some.inj hown
  exact ⟨hown, Address.ext hbytes⟩

/-- Let a password open a keyfile. If a keyfile with the same code is opened by any password, then both
codes are over the same, or over two byte strings with one hash; and if both keyfiles tell one address, then
both key pairs have it. With another encrypted secret, or under a password that gives the code another half
of the derived key, the keyfile is refused, or two such byte strings are shown. -/
theorem decrypt_tampered {k : Keyfile} {password : String} {key : KeyPair}
    (h : k.decrypt password = .ok key) :
    ∃ c, k.coded? password = some c ∧
      (∀ (other : Keyfile) (given : String) (found : KeyPair), other.decrypt given = .ok found →
        (∃ c', other.coded? given = some c' ∧
          (Hex.ofText? other.crypto.mac = Hex.ofText? k.crypto.mac →
            c' = c ∨ Collide c.bytes c'.bytes)) ∧
        ∀ text text', k.address = some text → other.address = some text' →
          recorded? text = recorded? text' →
            recorded? text = some key.address.toBytes ∧ found.address = key.address) ∧
      (∀ text, Hex.ofText? text ≠ some c.ciphertext →
        let other := { k with crypto := { k.crypto with ciphertext := text } }
        (∃ e, other.decrypt password = .error e) ∨
          ∃ c', other.coded? password = some c' ∧ Collide c.bytes c'.bytes) ∧
      (∀ given, ∃ c', k.coded? given = some c' ∧
        (c'.codeKey ≠ c.codeKey →
          (∃ e, k.decrypt given = .error e) ∨ Collide c.bytes c'.bytes)) := by
  obtain ⟨o, ho⟩ := exists_opening h
  refine ⟨o.coded, o.coded?_eq, ?_, ?_, ?_⟩
  · intro other given found hfound
    obtain ⟨o', ho'⟩ := exists_opening hfound
    refine ⟨⟨o'.coded, o'.coded?_eq, o.same_or_collide o'⟩, ?_⟩
    intro text text' htext htext' hsame
    exact ho.same_address ho' htext htext' hsame
  · intro text htext other
    refine o.refused_or_collide rfl ?_
    intro hcoded
    obtain ⟨-, -, -, hciphertext⟩ := coded?_eq_some_iff.1 hcoded
    exact htext hciphertext
  · intro given
    obtain ⟨codeKey, hcoded⟩ := exists_coded o.coded?_eq given
    refine ⟨_, hcoded, ?_⟩
    intro hne
    have hother : k.coded? given ≠ some o.coded := by
      intro hsame
      rw [hcoded] at hsame
      exact hne (congrArg Coded.codeKey (Option.some.inj hsame))
    refine (o.refused_or_collide rfl hother).imp_right ?_
    rintro ⟨c, hc, hcollide⟩
    rw [hcoded] at hc
    cases hc
    exact hcollide

/-- A keyfile of the library is opened, and what its code is over is guarded so. -/
theorem decrypt_tampered_sample :
    let k := encrypt .one "p" 1 .zero
    k.decrypt "p" = .ok .one ∧ ∃ c, k.coded? "p" = some c ∧
      (∀ given found, k.decrypt given = .ok found → ∃ c', k.coded? given = some c' ∧
        (c' = c ∨ Collide c.bytes c'.bytes)) ∧
      ∀ text, Hex.ofText? text ≠ some c.ciphertext →
        let other := { k with crypto := { k.crypto with ciphertext := text } }
        (∃ e, other.decrypt "p" = .error e) ∨
          ∃ c', other.coded? "p" = some c' ∧ Collide c.bytes c'.bytes := by
  intro k
  have hdecrypt : k.decrypt "p" = .ok .one := by
    have hdecode := decode_encode .one "p" .zero (show Opens 1 by decide)
    rw [decode, encode, ofBytes_toBytes] at hdecode
    exact hdecode
  obtain ⟨c, hc, hopened, hchanged, -⟩ := decrypt_tampered hdecrypt
  refine ⟨hdecrypt, c, hc, ?_, hchanged⟩
  intro given found hfound
  obtain ⟨⟨c', hc', hsame⟩, -⟩ := hopened k given found hfound
  exact ⟨c', hc', hsame rfl⟩

end Keyfile

end Keyring
