import Keyring.Proofs.Keyfile.Forms

/-!
# Keyfiles that are shown, and objects that show none

Each object of a keyfile is taken by its form, so that a value that shows a keyfile is read as it
(`Keyfile.read?_of_shownBy`), and one in which something is amiss is not read (`Keyfile.read?_of_isAmiss`).
The parameters of the derivation have no form: they are read as any value first, and the first variant
that fits is taken (`KdfParams.ofWritten?_of_shownBy`).
-/

namespace Keyring

open Json (Form Members Written isNamed)
open Json.Written (IsText IsWord)

/-! ## The parameters of the key derivation -/

namespace KdfParams

/-- An entry means a member. -/
abbrev Means (depth : Nat) (entry : Option String × Written) (m : String × Json) : Prop :=
  entry.1 = some m.1 ∧ entry.2.json? depth = some m.2

/-- What the one entry that there is means. -/
def only? (depth : Nat) : List (Option String × Written) → Option Json
  | [entry] => entry.2.json? depth
  | _ => none

/-- The order does not matter, because one entry has no other. -/
theorem only?_eq_of_perm {found found' : List (Option String × Written)} (h : found'.Perm found)
    (depth : Nat) : only? depth found' = only? depth found := by
  rcases found with _ | ⟨entry, _ | ⟨next, found⟩⟩
  · rw [h.eq_nil]
  · rw [List.perm_singleton.1 h]
  · rcases found' with _ | ⟨entry', _ | ⟨next', found'⟩⟩
    · rfl
    · cases h.length_eq
    · rfl

/-- The one value of a name is what the one entry of the name means. -/
theorem unique?_of_means {depth : Nat} {entries : List (Option String × Written)}
    {ms : List (String × Json)} (h : List.Forall₂ (Means depth) entries ms) (name : String) :
    unique? ms name = only? depth (entries.filter (isNamed [name])) := by
  have hfilter : List.Forall₂ (Means depth) (entries.filter (isNamed [name]))
      (ms.filter fun m => m.1 = name) := by
    induction h with
    | nil => exact .nil
    | @cons entry m entries ms hm _ ih =>
      have hsame : isNamed [name] entry = decide (m.1 = name) := by simp [isNamed, hm.1]
      rw [List.filter_cons, List.filter_cons, hsame]
      split
      · exact .cons hm ih
      · exact ih
  rw [unique?]
  generalize entries.filter (isNamed [name]) = found at hfilter ⊢
  generalize ms.filter (fun m => m.1 = name) = foundMs at hfilter ⊢
  cases hfilter with
  | nil => rfl
  | cons hm hmore =>
    cases hmore with
    | nil => exact hm.2.symm
    | cons => rfl

/-- A number that fits a word is read as it. -/
theorem word?_natural (n : UInt32) : word? (.number (.natural n.toNat)) = some n := by
  simp [word?, n.toNat_lt]

/-- Of members that are given among others, each tells the one value that it has. -/
theorem exists_unique?_eq {members : Members} {declared extras : List (Option String × Written)}
    (hperm : members.entries.Perm (declared ++ extras))
    (hdeclared : ∀ entry ∈ declared, ∃ name a, entry.1 = some name ∧ entry.2.json? 124 = some a)
    (hextras : ∀ entry ∈ extras,
      ∃ name, entry.1 = some name ∧ name ∉ memberNames ∧ IsExtra entry.2) :
    ∃ ms, members.jsons? 124 = some ms ∧
      ∀ name ∈ memberNames, unique? ms name = only? 124 (declared.filter (isNamed [name])) := by
  have hmeans : ∀ entry ∈ members.entries, ∃ name a, entry.1 = some name ∧
      entry.2.json? 124 = some a := by
    intro entry hentry
    rcases List.mem_append.1 (hperm.mem_iff.1 hentry) with h | h
    · exact hdeclared entry h
    · obtain ⟨name, hname, -, hsound, hdepth⟩ := hextras entry h
      obtain ⟨a, ha⟩ := entry.2.json?_of_isSound hsound (show entry.2.depth ≤ 124 by omega)
      exact ⟨name, a, hname, ha⟩
  obtain ⟨ms, hms, hentries⟩ := members.jsons?_of_entries hmeans
  refine ⟨ms, hms, fun name hname => ?_⟩
  have hnone : extras.filter (isNamed [name]) = [] := by
    refine List.filter_eq_nil_iff.2 fun entry hentry h => ?_
    obtain ⟨other, hother, hundeclared, -⟩ := hextras entry hentry
    simp only [isNamed, hother, Option.any_some, List.mem_singleton, decide_eq_true_eq] at h
    exact hundeclared (h ▸ hname)
  have hfound := hperm.filter (isNamed [name])
  rw [List.filter_append, hnone, List.append_nil] at hfound
  rw [unique?_of_means hentries, only?_eq_of_perm hfound]

/-- Parameters that are shown are read, whatever stands beside them. Neither derivation has all members of
the other, so that the first one that fits is the one that is shown. -/
theorem ofWritten?_of_shownBy {params : KdfParams} {w : Written} (h : params.ShownBy w) :
    ofWritten? 125 w = some params := by
  obtain ⟨blanks, members, declared, extras, rfl, hperm, hdeclared, hextras⟩ := h
  have hword {n : UInt32} {w : Written} (h : w.IsWord n) := Written.json?_of_isWord h 124
  have htext {s : String} {w : Written} (h : w.IsText s) := Written.json?_of_isText h 124
  cases params with
  | pbkdf2 dklen c prf salt =>
    simp only [fields, List.forall₂_cons_right_iff, List.forall₂_nil_right_iff] at hdeclared
    obtain ⟨⟨_, w₁⟩, _, ⟨rfl, h₁⟩, ⟨⟨_, w₂⟩, _, ⟨rfl, h₂⟩, ⟨⟨_, w₃⟩, _, ⟨rfl, h₃⟩, ⟨⟨_, w₄⟩, _, ⟨rfl, h₄⟩,
      rfl, rfl⟩, rfl⟩, rfl⟩, rfl⟩ := hdeclared
    obtain ⟨ms, hms, hunique⟩ := exists_unique?_eq hperm
      (by simp [hword h₁, hword h₂, htext h₃, htext h₄]) hextras
    simp [memberNames, isNamed, only?, hword h₁, hword h₂, htext h₃, htext h₄] at hunique
    simp [ofWritten?, Written.json?, hms, ofJson?, pbkdf2?, hunique, word?_natural, text?]
  | scrypt dklen n r p salt =>
    simp only [fields, List.forall₂_cons_right_iff, List.forall₂_nil_right_iff] at hdeclared
    obtain ⟨⟨_, w₁⟩, _, ⟨rfl, h₁⟩, ⟨⟨_, w₂⟩, _, ⟨rfl, h₂⟩, ⟨⟨_, w₃⟩, _, ⟨rfl, h₃⟩, ⟨⟨_, w₄⟩, _, ⟨rfl, h₄⟩,
      ⟨⟨_, w₅⟩, _, ⟨rfl, h₅⟩, rfl, rfl⟩, rfl⟩, rfl⟩, rfl⟩, rfl⟩ := hdeclared
    obtain ⟨ms, hms, hunique⟩ := exists_unique?_eq hperm
      (by simp [hword h₁, hword h₂, hword h₃, hword h₄, htext h₅]) hextras
    simp [memberNames, isNamed, only?, hword h₁, hword h₂, hword h₃, hword h₄, htext h₅] at hunique
    simp [ofWritten?, Written.json?, hms, ofJson?, pbkdf2?, scrypt?, hunique, word?_natural, text?]

end KdfParams

/-! ## What is shown is read -/

/-- A value that shows a word is read as it. -/
theorem Json.Written.word?_of_isWord {n : UInt32} {w : Written} (h : w.IsWord n) : w.word? = some n := by
  have hread := Written.json?_of_isWord h 0
  cases w with
  | number m =>
    rw [Written.json?] at hread
    obtain ⟨number, hnumber, ⟨⟩⟩ := Option.map_eq_some_iff.1 hread
    simp [word?, hnumber, n.toNat_lt]
  | null | bool | string | list | object => cases h

/-- A value that shows a text is read as it where there may be none. -/
theorem Json.Written.textOrNull?_of_isText {s : String} {w : Written} (h : w.IsText s) :
    w.textOrNull? = some (some s) := by
  cases w with
  | string pieces => exact congrArg (Option.map some) h
  | null | bool | number | list | object => cases h

/-- The parameters of the cipher are read from the one member that they have. -/
theorem cipherParams_of_hasMembers {iv : String} {w : Written}
    (h : w.HasMembers [("iv", IsText iv)] ["iv"] fun _ => True) :
    cipherParamsForm.read? cipherParamsRecord w = some iv :=
  Form.read?_of_hasMembers h (by simp [cipherParamsForm])
    (Form.take_field rfl rfl (fun _ h => h) Form.take_noFields) rfl

/-- An encrypted part that is shown is read. -/
theorem Envelope.read?_of_shownBy {e : Envelope} {w : Written} (h : e.ShownBy w) :
    form.read? record w = some e := by
  exact Form.read?_of_hasMembers h (by simp [form, memberNames])
    (Form.take_field rfl rfl (fun _ h => h) <|
      Form.take_field rfl rfl (fun _ h => h) <|
      Form.take_field rfl rfl (fun _ h => cipherParams_of_hasMembers h) <|
      Form.take_field rfl rfl (fun _ h => h) <|
      Form.take_field rfl rfl (fun _ h => KdfParams.ofWritten?_of_shownBy h) <|
      Form.take_field rfl rfl (fun _ h => h) Form.take_noFields) rfl

namespace Keyfile

/-- A keyfile that is shown is read. -/
theorem read?_of_shownBy {k : Keyfile} {w : Written} (h : k.ShownBy w) :
    form.read? record w = some k := by
  obtain ⟨version, address, crypto, id⟩ := k
  obtain ⟨cryptoName, hcrypto, addressFields, haddress, h⟩ := h
  have hnames : ∀ s ∈ form.slots, ∀ name ∈ s.names,
      name ∈ "version" :: "address" :: "id" :: cryptoNames := by
    simp [form, cryptoNames]
  have hfind : form.find? cryptoName = form.find? "crypto" := by
    simp only [cryptoNames, List.mem_cons, List.not_mem_nil, or_false] at hcrypto
    rcases hcrypto with rfl | rfl <;> rfl
  cases address with
  | none =>
    simp only [Keyfile.addressFields, List.mem_cons, List.not_mem_nil, or_false] at haddress
    rcases haddress with rfl | rfl
    · exact Form.read?_of_hasMembers h hnames
        (Form.take_field rfl rfl (fun _ h => Written.word?_of_isWord h) <|
          Form.take_field hfind rfl (fun _ h => Envelope.read?_of_shownBy h) <|
          Form.take_field rfl rfl (fun _ h => h) Form.take_noFields) rfl
    · exact Form.read?_of_hasMembers h hnames
        (Form.take_field rfl rfl (fun _ h => Written.word?_of_isWord h) <|
          Form.take_field rfl rfl (fun _ h => h ▸ rfl) <|
          Form.take_field hfind rfl (fun _ h => Envelope.read?_of_shownBy h) <|
          Form.take_field rfl rfl (fun _ h => h) Form.take_noFields) rfl
  | some address =>
    simp only [Keyfile.addressFields, List.mem_singleton] at haddress
    subst haddress
    exact Form.read?_of_hasMembers h hnames
      (Form.take_field rfl rfl (fun _ h => Written.word?_of_isWord h) <|
        Form.take_field rfl rfl (fun _ h => Written.textOrNull?_of_isText h) <|
        Form.take_field hfind rfl (fun _ h => Envelope.read?_of_shownBy h) <|
        Form.take_field rfl rfl (fun _ h => h) Form.take_noFields) rfl

/-- A text holds the keyfile that its value shows. -/
theorem ofBytes_of_shownBy {k : Keyfile} {d : Json.Document} (h : k.ShownBy d.value) :
    ofBytes d.bytes = .ok k := by
  have hread := ofBytes_bytes d
  rw [read?_of_shownBy h] at hread
  cases hresult : ofBytes d.bytes with
  | ok k' =>
    rw [hresult] at hread
    cases hread
    rfl
  | error fault =>
    rw [hresult] at hread
    cases hread

end Keyfile

/-! ## Objects in which something is amiss -/

/-- An encrypted part that is read has all of its members. -/
theorem Envelope.isSome_of_ofParts {p : Envelope.Parts} {e : Envelope} (h : Envelope.ofParts p = .ok e) :
    p.cipher.isSome ∧ p.ciphertext.isSome ∧ p.iv.isSome ∧ p.kdf.isSome ∧ p.kdfparams.isSome ∧
      p.mac.isSome := by
  obtain ⟨cipher, ciphertext, iv, kdf, kdfparams, mac⟩ := p
  cases cipher <;> [cases h; skip]
  cases ciphertext <;> [cases h; skip]
  cases iv <;> [cases h; skip]
  cases kdf <;> [cases h; skip]
  cases kdfparams <;> [cases h; skip]
  cases mac <;> [cases h; skip]
  exact ⟨rfl, rfl, rfl, rfl, rfl, rfl⟩

/-- A keyfile that is read has its version, its encrypted part and its identifier. -/
theorem Keyfile.isSome_of_ofParts {p : Keyfile.Parts} {k : Keyfile} (h : Keyfile.ofParts p = .ok k) :
    p.version.isSome ∧ p.crypto.isSome ∧ p.id.isSome := by
  obtain ⟨version, address, crypto, id⟩ := p
  cases version <;> [cases h; skip]
  cases crypto <;> [cases h; skip]
  cases id <;> [cases h; skip]
  exact ⟨rfl, rfl, rfl⟩

/-- No encrypted part is read from an object in which something is amiss. -/
theorem Envelope.not_isAmiss_of_read? {blanks : List Json.Blank} {members : Members} {e : Envelope}
    (h : form.read? record (.object blanks members) = some e) :
    ¬ members.IsAmiss (memberNames.map fun name => [name]) [] := by
  refine Form.not_isAmiss h (by simp [form, record, memberNames]) fun parts hbuild => ?_
  simpa [form, memberNames] using isSome_of_ofParts hbuild

/-- No keyfile is read from an object in which something is amiss, or in whose encrypted part. -/
theorem Keyfile.read?_of_isAmiss {w : Written} (h : IsAmiss w) : form.read? record w = none := by
  obtain ⟨blanks, members, rfl, h⟩ := h
  refine Option.eq_none_iff_forall_ne_some.2 fun k hread => ?_
  rcases h with hmembers | ⟨name, hname, blanks', inner, hentry, hinner⟩
  · refine Form.not_isAmiss hread (by simp [form, record, cryptoNames]) (fun parts hbuild => ?_) hmembers
    simpa [form, cryptoNames] using isSome_of_ofParts hbuild
  · obtain ⟨parts, htake, -⟩ := Option.bind_eq_some_iff.1 hread
    have hslot : form.slots[2] ∈ form.slots := List.getElem_mem _
    obtain ⟨e, he⟩ := Form.parse_of_take hslot htake hentry (by
      simpa [isNamed, form, cryptoNames] using hname)
    have he : Envelope.form.read? Envelope.record (.object blanks' inner) = some e := he
    exact Envelope.not_isAmiss_of_read? he hinner

end Keyring
