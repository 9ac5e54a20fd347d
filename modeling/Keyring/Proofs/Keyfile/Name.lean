import Keyring.Keyfile.Name
import Keyring.Proofs.Bytes.Spelling
import Keyring.Proofs.Disk.Lookup
import Keyring.Proofs.Text.Utf8

/-!
# Names of keyfiles, written and read

The name of an address's keyfile tells the address (`Keyfile.addressOfName?_name`). Every name that
tells an address has the parts of one, the digits perhaps in another case, so that any directory can hold
it and it is looked up as it is (`Keyfile.plain_of_addressOfName?`). Names with these parts are the only ones
that tell an address, and they tell the same one exactly if they differ in the case of their digits alone
(`Keyfile.addressOfName?_exact`).
-/

namespace Keyring

namespace Keyfile

/-! ## Starts and ends -/

@[simp] theorem dropStart?_append (start text : List Char) :
    dropStart? start (start ++ text) = some text := by
  induction start with
  | nil => cases text <;> rfl
  | cons c start ih => simp [dropStart?, ih]

/-- A start is dropped exactly from texts that start so. -/
theorem dropStart?_eq_some_iff {start text rest : List Char} :
    dropStart? start text = some rest ↔ text = start ++ rest := by
  constructor
  · intro h
    induction start generalizing text with
    | nil => cases text <;> simp_all [dropStart?]
    | cons c start ih =>
      cases text with
      | nil => cases h
      | cons d text =>
        rw [dropStart?] at h
        split at h
        · next hc => rw [hc, ih h, List.cons_append]
        · cases h
  · rintro rfl
    exact dropStart?_append start rest

/-- An ending is dropped exactly from texts that end so. -/
theorem dropEnd?_eq_some_iff {ending text rest : List Char} :
    dropEnd? ending text = some rest ↔ text = rest ++ ending := by
  simp only [dropEnd?, Option.map_eq_some_iff, dropStart?_eq_some_iff]
  constructor
  · rintro ⟨before, htext, rfl⟩
    have := congrArg List.reverse htext
    simpa using this
  · rintro rfl
    exact ⟨rest.reverse, by simp, by simp⟩

/-! ## Names -/

/-- A name tells an address exactly if digits of the address stand between start and end. -/
theorem addressOfName?_eq_some_iff {name : String} {address : Address} :
    addressOfName? name = some address ↔
      ∃ digits, name.toList = nameStart ++ digits ++ nameEnd ∧
        Hex.decode? digits = some address.toBytes := by
  simp only [addressOfName?, Option.bind_eq_some_iff, dropStart?_eq_some_iff, dropEnd?_eq_some_iff,
    Address.ofBytes?_eq_some_iff]
  constructor
  · rintro ⟨digits, ⟨rest, htext, rfl⟩, bytes, hdigits, rfl⟩
    exact ⟨digits, by rw [htext, List.append_assoc], hdigits⟩
  · rintro ⟨digits, htext, hdigits⟩
    exact ⟨digits, ⟨digits ++ nameEnd, by rw [htext, List.append_assoc], rfl⟩, _, hdigits, rfl⟩

/-- The name of a keyfile tells the address. -/
@[simp] theorem addressOfName?_name (address : Address) :
    addressOfName? (name address) = some address :=
  addressOfName?_eq_some_iff.2
    ⟨address.hex, by rw [name, String.toList_ofList], Hex.decode?_encode _⟩

/-! ## Names in a directory -/

/-- Characters of one byte are written as their numbers. -/
theorem encode_of_ascii {cs : List Char} (h : ∀ c ∈ cs, c.toNat < 128) :
    cs.flatMap Utf8.encodeChar = cs.map fun c => UInt8.ofNat c.toNat := by
  induction cs with
  | nil => rfl
  | cons c cs ih =>
    have hc := h c List.mem_cons_self
    rw [List.flatMap_cons, ih fun d hd => h d (List.mem_cons_of_mem c hd), Utf8.encodeChar]
    simp only [hc, if_true]
    rfl

/-- The characters of a name that tells an address: there are sixty-three, and each takes one byte that
is neither a null byte nor a slash. -/
theorem chars_of_addressOfName? {name : String} {address : Address}
    (h : addressOfName? name = some address) :
    name.toList.length = 63 ∧ ∀ c ∈ name.toList, 0 < c.toNat ∧ c.toNat < 128 ∧ c.toNat ≠ 0x2f := by
  obtain ⟨digits, hname, hdigits⟩ := addressOfName?_eq_some_iff.1 h
  obtain ⟨hlength, hdigit⟩ := Hex.of_decode? hdigits
  rw [Address.length_toBytes] at hlength
  have hstart : nameStart.length = 18 := by decide
  have hend : nameEnd.length = 5 := by decide
  have hfixed : (nameStart ++ nameEnd).all
      (fun c => decide (0 < c.toNat ∧ c.toNat < 128 ∧ c.toNat ≠ 0x2f)) = true := by decide
  have hfixed : ∀ c ∈ nameStart ++ nameEnd, 0 < c.toNat ∧ c.toNat < 128 ∧ c.toNat ≠ 0x2f :=
    fun c hc => of_decide_eq_true (List.all_eq_true.1 hfixed c hc)
  rw [hname]
  refine ⟨by rw [List.length_append, List.length_append, hlength, hstart, hend], fun c hc => ?_⟩
  rw [List.mem_append, List.mem_append] at hc
  rcases hc with (hc | hc) | hc
  · exact hfixed c (List.mem_append_left _ hc)
  · obtain ⟨n, hn⟩ := hdigit c hc
    have := Hex.toNat_of_digitValue? hn
    omega
  · exact hfixed c (List.mem_append_right _ hc)

/-- A name that tells an address is plain. -/
theorem plain_of_addressOfName? {name : String} {address : Address}
    (h : addressOfName? name = some address) : Path.Plain (Utf8.encode name) := by
  obtain ⟨hlength, hchars⟩ := chars_of_addressOfName? h
  have hbytes : Utf8.encode name = name.toList.map fun c => UInt8.ofNat c.toNat :=
    encode_of_ascii fun c hc => (hchars c hc).2.1
  have hcount : (Utf8.encode name).length = 63 := by rw [hbytes, List.length_map, hlength]
  have hbyte : ∀ b ∈ Utf8.encode name, b ≠ 0 ∧ b ≠ Path.slash := by
    intro b hb
    rw [hbytes, List.mem_map] at hb
    obtain ⟨c, hc, rfl⟩ := hb
    have hn := hchars c hc
    have hnat := Utf8.toNat_ofNat (show c.toNat < 256 by omega)
    constructor
    · intro hzero
      rw [hzero] at hnat
      exact absurd hnat.symm (Nat.pos_iff_ne_zero.1 hn.1)
    · intro hslash
      rw [hslash] at hnat
      exact hn.2.2 hnat.symm
  exact {
    ne_nil := fun he => by rw [he] at hcount; cases hcount
    ne_dot := fun he => by rw [he] at hcount; cases hcount
    ne_dots := fun he => by rw [he] at hcount; cases hcount
    no_slash := fun hmem => (hbyte _ hmem).2 rfl
    no_null := fun hmem => (hbyte _ hmem).1 rfl
    short := by rw [hcount]; decide }

/-! ## Names and digits -/

/-- The name is some digits between the start and the end of a keyfile's name. -/
def Holds (name : String) (digits : List Char) : Prop :=
  name.toList = nameStart ++ digits ++ nameEnd

section
variable {name other : String} {digits otherDigits : List Char} {address otherAddress : Address}

/-- A name holds one text of digits at most. -/
theorem Holds.unique (h : Holds name digits) (hother : Holds name otherDigits) : digits = otherDigits := by
  have hsame := h.symm.trans hother
  exact List.append_cancel_left (List.append_cancel_right hsame)

/-- The canonical name holds the digits of the address. -/
theorem holds_name (address : Address) : Holds (Keyfile.name address) address.hex := by
  rw [Holds, Keyfile.name, String.toList_ofList]

/-- A name tells an address exactly if it holds digits that spell it. -/
theorem addressOfName?_iff_spells : addressOfName? name = some address ↔
    ∃ digits, Holds name digits ∧ Hex.Spells digits address.toBytes := by
  simp only [addressOfName?_eq_some_iff, Hex.decode?_eq_some_iff, Holds]

/-- The digits that a name holds spell the address that it tells. -/
theorem Holds.spells (h : Holds name digits) (hname : addressOfName? name = some address) :
    Hex.Spells digits address.toBytes := by
  obtain ⟨found, hfound, hspells⟩ := addressOfName?_iff_spells.1 hname
  rwa [h.unique hfound]

/-- The digits of an address are forty. -/
theorem length_of_spells (h : Hex.Spells digits address.toBytes) : digits.length = 40 := by
  rw [h.length_eq, Address.length_toBytes]

/-- Forty digits tell some address. -/
theorem Holds.exists_address (h : Holds name digits) (hlength : digits.length = 40)
    (hdigits : ∀ c ∈ digits, Hex.IsDigit c) : ∃ address, addressOfName? name = some address := by
  have htwice : digits.length = 2 * 20 := hlength
  obtain ⟨bytes, hbytes⟩ := Hex.exists_spells htwice hdigits
  have hcount : bytes.length = 20 := by
    have hbytes := hbytes.length_eq
    omega
  exact ⟨⟨⟨bytes, hcount⟩⟩, addressOfName?_iff_spells.2 ⟨digits, h, hbytes⟩⟩

/-- The name of the address that a name tells has the same digits in lowercase. -/
theorem Holds.name_eq (h : Holds name digits) (hname : addressOfName? name = some address) :
    Holds (Keyfile.name address) (digits.map Char.toLower) := by
  rw [h.spells hname]
  exact holds_name address

/-- Two names tell the same address exactly if they differ in the case of digits alone. -/
theorem eq_iff_sameButCase (hname : addressOfName? name = some address)
    (hother : addressOfName? other = some otherAddress) :
    address = otherAddress ↔ Hex.SameButCase name.toList other.toList := by
  obtain ⟨digits, hdigits, hspells⟩ := addressOfName?_iff_spells.1 hname
  obtain ⟨otherDigits, hotherDigits, hotherSpells⟩ := addressOfName?_iff_spells.1 hother
  rw [hdigits, hotherDigits]
  constructor
  · rintro rfl
    exact ((Hex.SameButCase.refl nameStart).append (hspells.sameButCase hotherSpells)).append (.refl nameEnd)
  · intro hsame
    have hlower := hsame.map_toLower
    simp only [List.map_append] at hlower
    have hbytes := List.append_cancel_left (List.append_cancel_right hlower)
    rw [hspells, hotherSpells] at hbytes
    have hread := congrArg Hex.decode? hbytes
    rw [Hex.decode?_encode, Hex.decode?_encode] at hread
    exact Address.ext (Option.some.inj hread)

end

/-- A name tells an address exactly if it is the start, forty digits in either case and the end, and the
address is the twenty bytes that the digits denote; all such digits tell one. The name of an address tells
it; it is every name that tells it with the digits in lowercase, and names tell the same address exactly if
they differ in the case of digits alone. -/
theorem addressOfName?_exact (name : String) (address : Address) :
    (addressOfName? name = some address ↔ ∃ digits, name.toList = nameStart ++ digits ++ nameEnd ∧
      digits.length = 40 ∧ (∀ c ∈ digits, Hex.IsDigit c) ∧ Hex.Denotes digits address.toBytes) ∧
    ((∃ address, addressOfName? name = some address) ↔
      ∃ digits, name.toList = nameStart ++ digits ++ nameEnd ∧ digits.length = 40 ∧
        ∀ c ∈ digits, Hex.IsDigit c) ∧
    addressOfName? (Keyfile.name address) = some address ∧
    (addressOfName? name = some address → ∃ digits, name.toList = nameStart ++ digits ++ nameEnd ∧
      (Keyfile.name address).toList = nameStart ++ digits.map Char.toLower ++ nameEnd) ∧
    ∀ other otherAddress, addressOfName? name = some address → addressOfName? other = some otherAddress →
      (address = otherAddress ↔ Hex.SameButCase name.toList other.toList) := by
  refine ⟨?_, ?_, addressOfName?_name address, ?_, fun other otherAddress => eq_iff_sameButCase⟩
  · rw [addressOfName?_iff_spells]
    refine exists_congr fun digits => and_congr_right fun _ => ?_
    rw [← Hex.spells_iff_denotes]
    exact ⟨fun h => ⟨length_of_spells h, fun _ => h.isDigit, h⟩, fun h => h.2.2⟩
  · constructor
    · rintro ⟨found, hfound⟩
      obtain ⟨digits, hdigits, hspells⟩ := addressOfName?_iff_spells.1 hfound
      exact ⟨digits, hdigits, length_of_spells hspells, fun _ => hspells.isDigit⟩
    · rintro ⟨digits, hdigits, hlength, hall⟩
      exact Holds.exists_address hdigits hlength hall
  · intro hname
    obtain ⟨digits, hdigits, -⟩ := addressOfName?_iff_spells.1 hname
    exact ⟨digits, hdigits, Holds.name_eq hdigits hname⟩

/-- Names of an address that differ in case, and the digits of one of them behind the mark. -/
theorem addressOfName?_exact_mixed :
    let name := "meowchain-keyfile-F39Fd6e51aad88F6F4ce6aB8827279cffFb92266.json"
    let other := "meowchain-keyfile-f39fd6e51aad88f6f4ce6ab8827279cfffb92266.json"
    ∃ address, addressOfName? name = some address ∧ addressOfName? other = some address ∧
      Hex.SameButCase name.toList other.toList ∧
      (∃ digits, name.toList = nameStart ++ digits ++ nameEnd ∧
        (Keyfile.name address).toList = nameStart ++ digits.map Char.toLower ++ nameEnd) ∧
      addressOfName? "meowchain-keyfile-0xf39fd6e51aad88f6f4ce6ab8827279cfffb92266.json" = none := by
  intro name other
  let bytes : Bytes := [0xf3, 0x9f, 0xd6, 0xe5, 0x1a, 0xad, 0x88, 0xf6, 0xf4, 0xce, 0x6a, 0xb8, 0x82, 0x72, 0x79,
    0xcf, 0xff, 0xb9, 0x22, 0x66]
  let address : Address := ⟨⟨bytes, rfl⟩⟩
  have hname : addressOfName? name = some address := by decide +kernel
  have hother : addressOfName? other = some address := by decide +kernel
  obtain ⟨-, -, -, hlower, hsame⟩ := addressOfName?_exact name address
  exact ⟨address, hname, hother, (hsame other address hname hother).1 rfl, hlower hname, by decide +kernel⟩

end Keyfile

end Keyring
