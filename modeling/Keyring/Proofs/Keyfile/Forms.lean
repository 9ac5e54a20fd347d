import Keyring.Keyfile.Reader
import Keyring.Proofs.Json.Records
import Keyring.Proofs.Keyfile.Layout

/-!
# Reading keyfiles, however they are laid out

The keyfile, its encrypted part and the parameters of its cipher are told by forms, and the parameters of
the key derivation by the value that they are read as. A text then holds the keyfile that its value
tells (`Keyfile.ofBytes_bytes`).
-/

namespace Keyring

open Json (Form Record Slot Written)
open Json.Reader

/-! ## The parameters of the key derivation -/

namespace KdfParams

/-- The parameters that a value tells, if at most `depth` containers stand inside each other in it. -/
def ofWritten? (depth : Nat) (w : Written) : Option KdfParams :=
  (w.json? depth).bind ofJson?

/-- Parameters are read exactly if they have one of the two forms. -/
theorem gives_read (depth : Nat) (w : Written) {blanks rest : Bytes} (hb : Blanks blanks)
    (hrest : StopsNumber rest) :
    Gives (KdfParams.read depth (blanks ++ (w.bytes ++ rest))) (ofWritten? depth w) rest := by
  refine (gives_value depth w hb hrest).bind fun a _ => ?_
  cases ofJson? a with
  | some params => exact gives_ok
  | none => exact gives_error

end KdfParams

/-! ## Slots that hold what a reader gives -/

/-- A member that is read by a reader of one type is told by a slot that takes what the reader gives. -/
theorem tells_of_reader {ρ : Type} {depth : Nat} {s : Slot ρ} {m : Json.Member ρ}
    (x : Json.Reader s.Value) (hnames : s.names = m.name :: m.otherName.toList)
    (hset : ∀ parts, m.isSet parts = (s.get parts).isSome)
    (hread : ∀ parts, m.read depth parts = x >>= fun v => pure (s.set v parts))
    (hgives : ∀ {blanks rest : Bytes} (w : Written), Blanks blanks → StopsNumber rest →
      Gives (x (blanks ++ (w.bytes ++ rest))) (s.parse w) rest) : s.Tells depth m where
  names := hnames
  isSet := hset
  read w parts hb hrest := by
    rw [hread]
    have h := (hgives w hb hrest).bind (f := fun v => pure (s.set v parts))
      (g := fun v => some (s.set v parts))
      fun _ _ => gives_ok
    simpa [Option.map_eq_bind, Function.comp_def] using h

/-! ## The parameters of the cipher -/

/-- The form of the parameters of the cipher. -/
def cipherParamsForm : Form (Option String) where
  slots := [⟨["iv"], String, id, fun v _ => some v, Written.text?⟩]
  get_set := by simp
  apart := by simp

/-- The form of the cipher's parameters tells how they are read. -/
theorem cipherParamsForm_tells (depth : Nat) : cipherParamsForm.Tells depth cipherParamsRecord := by
  refine .cons (tells_of_reader string rfl (fun _ => rfl) (fun _ => ?_) fun w hb _ => ?_) .nil
  · exact map_eq_pure_bind ..
  · exact gives_string hb w

namespace Envelope

/-- The form of the encrypted part, of which at most 126 containers may stand inside each other. -/
def form : Form Parts where
  slots := [
    ⟨["cipher"], String, Parts.cipher, fun v p => { p with cipher := some v }, Written.text?⟩,
    ⟨["ciphertext"], String, Parts.ciphertext, fun v p => { p with ciphertext := some v },
      Written.text?⟩,
    ⟨["cipherparams"], String, Parts.iv, fun v p => { p with iv := some v },
      cipherParamsForm.read? cipherParamsRecord⟩,
    ⟨["kdf"], String, Parts.kdf, fun v p => { p with kdf := some v }, Written.text?⟩,
    ⟨["kdfparams"], KdfParams, Parts.kdfparams, fun v p => { p with kdfparams := some v },
      KdfParams.ofWritten? 125⟩,
    ⟨["mac"], String, Parts.mac, fun v p => { p with mac := some v }, Written.text?⟩]
  get_set := by simp
  apart := by simp [Slot.apart_iff]

/-- The form of the envelope tells how it is read. -/
theorem form_tells : form.Tells 125 record := by
  have hstring {blanks rest : Bytes} (w : Written) (hb : Blanks blanks) (_ : StopsNumber rest) :=
    (gives_string hb w : Gives (string (blanks ++ (w.bytes ++ rest))) w.text? rest)
  refine .cons (tells_of_reader string rfl (fun _ => rfl) (fun _ => rfl) hstring) <|
    .cons (tells_of_reader string rfl (fun _ => rfl) (fun _ => rfl) hstring) <|
    .cons (tells_of_reader (cipherParamsRecord.read 125) rfl (fun _ => rfl) (fun _ => rfl)
      fun w hb _ => (cipherParamsForm_tells 124).gives_read hb w) <|
    .cons (tells_of_reader string rfl (fun _ => rfl) (fun _ => rfl) hstring) <|
    .cons (tells_of_reader (KdfParams.read 125) rfl (fun _ => rfl) (fun _ => rfl)
      fun w => KdfParams.gives_read 125 w) <|
    .cons (tells_of_reader string rfl (fun _ => rfl) (fun _ => rfl) hstring) .nil

end Envelope

namespace Keyfile

/-- The form of the keyfile. -/
def form : Form Parts where
  slots := [
    ⟨["version"], UInt32, Parts.version, fun v p => { p with version := some v }, Written.word?⟩,
    ⟨["address"], Option String, Parts.address, fun v p => { p with address := some v },
      Written.textOrNull?⟩,
    ⟨["crypto", "Crypto"], Envelope, Parts.crypto, fun v p => { p with crypto := some v },
      Envelope.form.read? Envelope.record⟩,
    ⟨["id"], String, Parts.id, fun v p => { p with id := some v }, Written.text?⟩]
  get_set := by simp
  apart := by simp [Slot.apart_iff]

/-- The form of a keyfile tells how it is read. -/
theorem form_tells : form.Tells 126 record := by
  refine .cons (tells_of_reader word32 rfl (fun _ => rfl) (fun _ => rfl)
      fun w hb => gives_word32 hb w) <|
    .cons (tells_of_reader stringOrNull rfl (fun _ => rfl) (fun _ => rfl)
      fun w hb _ => gives_stringOrNull hb w) <|
    .cons (tells_of_reader (Envelope.record.read 126) rfl (fun _ => rfl) (fun _ => rfl)
      fun w hb _ => Envelope.form_tells.gives_read hb w) <|
    .cons (tells_of_reader string rfl (fun _ => rfl) (fun _ => rfl)
      fun w hb _ => gives_string hb w) .nil

/-- A text holds the keyfile that its value tells. -/
theorem ofBytes_bytes (d : Json.Document) : (ofBytes d.bytes).toOption = form.read? record d.value :=
  form_tells.readText_bytes d

end Keyfile

end Keyring
