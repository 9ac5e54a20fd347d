import Keyring.Keyfile.Printer
import Keyring.Proofs.Json.Printed
import Keyring.Proofs.Keyfile.Shown

/-!
# Reading the keyfiles that were written

What a keyfile is printed as is a text that shows it (`Keyfile.exists_document`), so that every keyfile is
read back from its own bytes, whatever its texts are, and no other one is (`Keyfile.ofBytes_toBytes_iff`).
A text by other writers is read as the keyfile that it shows, however it is laid out, and is refused if a
member is missing or repeated (`Keyfile.ofBytes_layout`).
-/

namespace Keyring

open Json (Prints Written prints_object prints_string prints_word)
open Json.Written (HasMembers IsText)

/-- The parameters are printed as a value that shows them. -/
theorem KdfParams.prints (params : KdfParams) : Prints params.toJson params.ShownBy := by
  cases params with
  | pbkdf2 dklen c prf salt =>
    exact prints_object <| .cons ⟨rfl, prints_word dklen⟩ <| .cons ⟨rfl, prints_word c⟩ <|
      .cons ⟨rfl, prints_string prf⟩ <| .cons ⟨rfl, prints_string salt⟩ .nil
  | scrypt dklen n r p salt =>
    exact prints_object <| .cons ⟨rfl, prints_word dklen⟩ <| .cons ⟨rfl, prints_word n⟩ <|
      .cons ⟨rfl, prints_word r⟩ <| .cons ⟨rfl, prints_word p⟩ <| .cons ⟨rfl, prints_string salt⟩ .nil

/-- The envelope is printed as a value that shows it. -/
theorem Envelope.prints (e : Envelope) : Prints e.toJson e.ShownBy := by
  have hiv : Prints (.object [("iv", .string e.iv)])
      (HasMembers [("iv", IsText e.iv)] ["iv"] fun _ => True) :=
    prints_object <| .cons ⟨rfl, prints_string e.iv⟩ .nil
  exact prints_object <| .cons ⟨rfl, prints_string e.cipher⟩ <|
    .cons ⟨rfl, prints_string e.ciphertext⟩ <| .cons ⟨rfl, hiv⟩ <| .cons ⟨rfl, prints_string e.kdf⟩ <|
    .cons ⟨rfl, e.kdfparams.prints⟩ <| .cons ⟨rfl, prints_string e.mac⟩ .nil

namespace Keyfile

/-- A keyfile is printed as a value that shows it. -/
theorem prints (k : Keyfile) : Prints k.toJson k.ShownBy := by
  obtain ⟨version, address, crypto, id⟩ := k
  have hlast : List.Forall₂ (fun j field => j.1 = field.1 ∧ Prints j.2 field.2)
      [("crypto", crypto.toJson), ("id", .string id)]
      [("crypto", crypto.ShownBy), ("id", IsText id)] :=
    .cons ⟨rfl, crypto.prints⟩ <| .cons ⟨rfl, prints_string id⟩ .nil
  intro level
  cases address with
  | none =>
    have h : Prints (toJson ⟨version, none, crypto, id⟩)
        (ShownAs ⟨version, none, crypto, id⟩ "crypto" []) :=
      prints_object <| .cons ⟨rfl, prints_word version⟩ hlast
    obtain ⟨w, hbytes, hright⟩ := h level
    exact ⟨w, hbytes, "crypto", by simp [cryptoNames], [], by simp [addressFields], hright⟩
  | some address =>
    have h : Prints (toJson ⟨version, some address, crypto, id⟩)
        (ShownAs ⟨version, some address, crypto, id⟩ "crypto" [("address", IsText address)]) :=
      prints_object <| .cons ⟨rfl, prints_word version⟩ <| .cons ⟨rfl, prints_string address⟩ hlast
    obtain ⟨w, hbytes, hright⟩ := h level
    exact ⟨w, hbytes, "crypto", by simp [cryptoNames], _, List.mem_singleton_self _, hright⟩

/-- The bytes of a keyfile are those of a text that shows it. -/
theorem exists_document (k : Keyfile) : ∃ d : Json.Document, d.bytes = k.toBytes ∧ k.ShownBy d.value := by
  obtain ⟨w, hbytes, hshown⟩ := k.prints 0
  refine ⟨⟨[], w, []⟩, ?_, hshown⟩
  simp [Json.Document.bytes, Json.blankBytes_nil, hbytes, toBytes, Json.toBytes]

/-- A keyfile is read back from its bytes. -/
theorem ofBytes_toBytes (k : Keyfile) : ofBytes k.toBytes = .ok k := by
  obtain ⟨d, hbytes, hshown⟩ := k.exists_document
  rw [← hbytes]
  exact ofBytes_of_shownBy hshown

/-- A keyfile is the only one that is read from its bytes, which are those of a text that shows it. -/
theorem ofBytes_toBytes_iff (k : Keyfile) :
    (∃ d : Json.Document, d.bytes = k.toBytes ∧ k.ShownBy d.value) ∧
      (∀ k', ofBytes k.toBytes = .ok k' ↔ k' = k) ∧ (ofBytes k.toBytes).map toBytes = .ok k.toBytes := by
  have hread := k.ofBytes_toBytes
  refine ⟨k.exists_document, fun k' => ?_, by rw [hread]; rfl⟩
  rw [hread]
  exact ⟨fun h => (Except.ok.inj h).symm, fun h => congrArg _ h.symm⟩

/-! ## Any layout -/

/-- A text that shows a keyfile is read as that keyfile, however it is laid out, and a text is refused in
which a member is missing or repeated. -/
theorem ofBytes_layout (d : Json.Document) :
    (∀ k : Keyfile, k.ShownBy d.value → ofBytes d.bytes = .ok k) ∧
      (IsAmiss d.value → ∃ fault, ofBytes d.bytes = .error fault) := by
  refine ⟨fun k => ofBytes_of_shownBy, fun h => ?_⟩
  have hread := ofBytes_bytes d
  rw [read?_of_isAmiss h] at hread
  cases hresult : ofBytes d.bytes with
  | ok k =>
    rw [hresult] at hread
    cases hread
  | error fault => exact ⟨fault, rfl⟩

section
open Json (Document Members spell hasMembers_wide string?_spell)

/-- A keyfile without an address. -/
def sample : Keyfile :=
  ⟨3, none, ⟨"aes-128-ctr", "00", "11", "scrypt", .scrypt 32 2 1 1 "22", "33"⟩, "44"⟩

/-- The parameters of its derivation. -/
def sampleParams : Written :=
  .object [] <| .wide 1 ("dklen", .number (.plain 3 (by decide) [⟨2, by decide⟩])) [
    ("n", .number (.plain 2 (by decide) [])),
    ("r", .number (.plain 1 (by decide) [])),
    ("p", .number (.plain 1 (by decide) [])),
    ("salt", .string (spell "22"))]

/-- Its encrypted part. -/
def sampleEnvelope : Written :=
  .object [] <| .wide 3 ("cipher", .string (spell "aes-128-ctr")) [
    ("ciphertext", .string (spell "00")),
    ("cipherparams", .object [] (.wide 0 ("iv", .string (spell "11")) [])),
    ("kdf", .string (spell "scrypt")),
    ("kdfparams", sampleParams),
    ("mac", .string (spell "33"))]

/-- A text that shows it, with its members backwards, behind one of another name. -/
def sampleDocument : Document where
  before := [.tab]
  value := .object [.space] <| .wide 0 ("note", .list [] .nil) [
    ("id", .string (spell "44")),
    ("Crypto", sampleEnvelope),
    ("address", .null),
    ("version", .number (.plain 3 (by decide) []))]
  after := [.lineFeed]

/-- The sample document shows the sample keyfile. -/
theorem sample_shownBy : sample.ShownBy sampleDocument.value := by
  have htext (s : String) : IsText s (.string (spell s)) := string?_spell s
  have hiv : HasMembers [("iv", IsText "11")] ["iv"] (fun _ => True)
      (.object [] (.wide 0 ("iv", .string (spell "11")) [])) :=
    hasMembers_wide _ _ _ _ <| .cons ⟨rfl, htext _⟩ .nil
  have hparams : sample.crypto.kdfparams.ShownBy sampleParams :=
    hasMembers_wide _ _ _ _ <| .cons ⟨rfl, rfl⟩ <| .cons ⟨rfl, rfl⟩ <| .cons ⟨rfl, rfl⟩ <|
      .cons ⟨rfl, rfl⟩ <| .cons ⟨rfl, htext _⟩ .nil
  have hcrypto : sample.crypto.ShownBy sampleEnvelope :=
    hasMembers_wide _ _ _ _ <| .cons ⟨rfl, htext _⟩ <| .cons ⟨rfl, htext _⟩ <| .cons ⟨rfl, hiv⟩ <|
      .cons ⟨rfl, htext _⟩ <| .cons ⟨rfl, hparams⟩ <| .cons ⟨rfl, htext _⟩ .nil
  refine ⟨"Crypto", by simp [cryptoNames], [("address", (· = .null))], by simp [sample, addressFields],
    [.space], _, [(some "version", .number (.plain 3 (by decide) [])), (some "address", .null),
      (some "Crypto", sampleEnvelope), (some "id", .string (spell "44"))],
    [(some "note", .list [] .nil)], rfl, ?_, ?_, ?_⟩
  · rw [Members.entries_wide]
    exact (List.reverse_perm _).symm
  · exact .cons ⟨rfl, rfl⟩ <| .cons ⟨rfl, rfl⟩ <| .cons ⟨rfl, hcrypto⟩ <| .cons ⟨rfl, htext _⟩ .nil
  · simp [cryptoNames]

/-- A text whose encrypted part stands in it twice, once under each name. -/
def twiceDocument : Document where
  before := []
  value := .object [] <| .wide 0 ("crypto", sampleEnvelope) [("Crypto", sampleEnvelope)]
  after := []

/-- A document that tells a member twice shows none. -/
theorem twice_isAmiss : IsAmiss twiceDocument.value := by
  refine ⟨_, _, rfl, .inl ?_⟩
  simp only [Members.IsAmiss, Members.count, Members.entries_wide]
  decide

/-- The sample is read, and the text that has its encrypted part twice is not. -/
theorem ofBytes_layout_sample : sample.ShownBy sampleDocument.value ∧ IsAmiss twiceDocument.value ∧
    ofBytes sampleDocument.bytes = .ok sample ∧ ∃ fault, ofBytes twiceDocument.bytes = .error fault :=
  ⟨sample_shownBy, twice_isAmiss, (ofBytes_layout sampleDocument).1 sample sample_shownBy,
    (ofBytes_layout twiceDocument).2 twice_isAmiss⟩

end

end Keyfile

end Keyring
