import Keyring.Proofs.Keystore.Changes
import Keyring.Proofs.Keystore.Listing
import Keyring.Proofs.Manager.Files
import Keyring.Proofs.Storage.Trail

/-!
# Importing key pairs

An import asks twice whether an account is there: it looks for a name that tells the account, in whatever
case its digits are, and then it makes the keyfile under the canonical name, which has to be free. As long
as nobody else writes in between the second answer follows from the first, so that an import either keeps
everything as it is or makes one keyfile (`Keystore.traces_importKey`), whichever of three calls it is made
by (`Manager.imports_add_or_keep`).
-/

namespace Keyring

open Keyring.Action (Traces)
open Keyfile (addressIn? entryName)

/-! ## What the keystore does -/

namespace Directory

variable {directory : Directory} {disk : Disk} {place : Place} {address : Address}

/-- Some name in the directory tells the account. -/
def Named (disk : Disk) (place : Place) (address : Address) : Prop :=
  ∃ name ∈ disk.names place, addressIn? name = some address

instance : Decidable (Named disk place address) :=
  inferInstanceAs (Decidable (∃ name ∈ disk.names place, addressIn? name = some address))

/-- Where no name tells the account, its canonical name is free, too. -/
theorem get?_entryName_of_not_named (h : ¬ Named disk place address) :
    disk.get? (entryName address :: place) = none := by
  rw [← Disk.not_mem_names_iff]
  exact fun hmem => h ⟨_, hmem, Keyfile.addressIn?_entryName address⟩

/-- Where the canonical name is taken, it tells the account. -/
theorem Added.named {content : Bytes} {left : Disk} (h : Added place address content disk left) :
    Named left place address := by
  refine ⟨entryName address, ?_, Keyfile.addressIn?_entryName address⟩
  rw [h.names_perm.mem_iff]
  exact List.mem_cons_self

end Directory

namespace Keystore

open Directory (Named foreignFiles)

variable {directory : Directory} {iterations : UInt32} {disk : Disk} {place : Place}

/-- Writing a keyfile where there is nothing makes it and notes nothing. -/
theorem traces_write (h : disk.LeadsTo directory.path place) (hroom : directory.HasRoom)
    (address : Address) (content : Bytes) (hfree : disk.get? (entryName address :: place) = none) :
    Traces (directory.write address content) disk ⟨address, directory.keyfilePath address⟩
      (disk.put (entryName address :: place) (.file Directory.keyfileMode content)) [] := by
  obtain ⟨mode, hlocate⟩ := h
  have hcheck := hroom.checkPath (Disk.locate_ok hlocate).2.1 (Keyfile.addressIn?_entryName address)
  have hcreate : disk.create (directory.keyfilePath address) Directory.keyfileMode content =
      .ok (disk.put (entryName address :: place) (.file Directory.keyfileMode content)) := by
    have heq := Disk.create_eq ⟨mode, hlocate⟩ (Keyfile.plain_entryName address) hcheck
      Directory.keyfileMode content
    rw [hfree] at heq
    exact heq
  exact (Action.traces_change (fun disk : Disk => disk.create _ Directory.keyfileMode content) hcreate).bind
    (Action.traces_pure _ _)

/-- A keyfile is made where its name is free. -/
theorem traces_persist (iterations : UInt32) (h : disk.LeadsTo directory.path place)
    (hroom : directory.HasRoom) (key : KeyPair) (password : String) (fresh : Seal)
    (hfree : disk.get? (entryName key.address :: place) = none) :
    Traces ((directory.keystore iterations).persist key password fresh) disk key.address
      (disk.put (entryName key.address :: place)
        (.file Directory.keyfileMode (Keyfile.encode key password iterations fresh))) [] :=
  (traces_write h hroom key.address _ hfree).bind (Action.traces_pure _ _)

/-- There is no failure to catch then. -/
theorem traces_persistNew (iterations : UInt32) (h : disk.LeadsTo directory.path place)
    (hroom : directory.HasRoom) (key : KeyPair) (password : String) (fresh : Seal)
    (hfree : disk.get? (entryName key.address :: place) = none) :
    Traces ((directory.keystore iterations).persistNew key password fresh) disk true
      (disk.put (entryName key.address :: place)
        (.file Directory.keyfileMode (Keyfile.encode key password iterations fresh))) [] := by
  have hpersist := traces_persist iterations h hroom key password fresh hfree
  generalize disk.put _ _ = left at hpersist ⊢
  unfold Keystore.persistNew
  refine Traces.tryCatch ?_
  exact hpersist.bind (Action.traces_pure _ _)

/-- Telling whether an account is managed changes nothing and notes the foreign files. -/
theorem traces_isManaged (iterations : UInt32) (h : disk.LeadsTo directory.path place) (address : Address) :
    Traces ((directory.keystore iterations).isManaged address) disk (decide (Named disk place address)) disk
      (foreignFiles disk place) := by
  have htrace : Traces ((directory.keystore iterations).isManaged address) disk _ disk
      (foreignFiles disk place ++ []) :=
    (Directory.traces_find h address).bind (Action.traces_pure _ _)
  rwa [List.isEmpty_map, Directory.isEmpty_keyfiles, List.append_nil] at htrace

/-- The first question decides. An account that some name tells is left alone; one that no name tells gets its
keyfile, and the answer that the place was taken meanwhile is never given. -/
theorem traces_importKey (iterations : UInt32) (h : disk.LeadsTo directory.path place)
    (hroom : directory.HasRoom) (key : KeyPair) (password : String) (fresh : Seal) :
    (Named disk place key.address →
      Traces ((directory.keystore iterations).importKey key password fresh) disk none disk
        (foreignFiles disk place ++ [.alreadyManaged key.address])) ∧
    (¬ Named disk place key.address →
      Traces ((directory.keystore iterations).importKey key password fresh) disk (some key.address)
        (disk.put (entryName key.address :: place)
          (.file Directory.keyfileMode (Keyfile.encode key password iterations fresh)))
        (foreignFiles disk place ++ [.imported key.address])) := by
  have hmanaged := traces_isManaged iterations h key.address
  constructor
  · intro hnamed
    rw [decide_eq_true hnamed] at hmanaged
    refine hmanaged.bind ?_
    exact (Action.traces_note _ _).bind (Action.traces_pure _ _)
  · intro hnamed
    have hfree := Directory.get?_entryName_of_not_named hnamed
    rw [decide_eq_false hnamed] at hmanaged
    have hnew := traces_persistNew iterations h hroom key password fresh hfree
    generalize disk.put _ _ = left at hnew ⊢
    refine hmanaged.bind ?_
    exact hnew.bind ((Action.traces_note _ _).bind (Action.traces_pure _ _))

end Keystore

/-! ## The calls that import -/

namespace Call

/-- The call imports the key pair under the password: the secret is read, or the keyfile opens. -/
inductive Imports (key : KeyPair) (password : String) (fresh : Seal) : Call → Prop
  | secret {secret : String} : KeyPair.ofText? secret = some key →
      Imports key password fresh (.importSecret secret password fresh)
  | keyfile {content : Bytes} {given : String} : Keyfile.decode content given = .ok key →
      Imports key password fresh (.importKeyfile content given password fresh)
  | file {disk : Disk} {path : Path} {content : Bytes} {given : String} : disk.read path = .ok content →
      Keyfile.decode content given = .ok key →
      Imports key password fresh (.importFile disk path given password fresh)

/-- The call has no key pair to import, and why. -/
inductive ImportsNothing : AccountError → Call → Prop
  | secret {secret password : String} {fresh : Seal} : KeyPair.ofText? secret = none →
      ImportsNothing .invalidPrivateKey (.importSecret secret password fresh)
  | keyfile {content : Bytes} {given password : String} {fresh : Seal} {cause : Keyfile.Error} :
      Keyfile.decode content given = .error cause →
      ImportsNothing (.invalidCredentials cause) (.importKeyfile content given password fresh)
  | unread {disk : Disk} {path : Path} {given password : String} {fresh : Seal} {source : IoError} :
      disk.read path = .error source →
      ImportsNothing (.io path source) (.importFile disk path given password fresh)
  | file {disk : Disk} {path : Path} {content : Bytes} {given password : String} {fresh : Seal}
      {cause : Keyfile.Error} : disk.read path = .ok content →
      Keyfile.decode content given = .error cause →
      ImportsNothing (.invalidCredentials cause) (.importFile disk path given password fresh)

end Call

/-- What importing a key pair comes to. Where a name tells the account nothing is changed. Else its keyfile is
made, and nothing besides. The place of the keyfile is not found taken after that. -/
structure AddsOrKeeps (place : Place) (key : KeyPair) (content : Bytes) (before after : Traced Disk)
    (reply : Except AccountError (Option Address)) : Prop where
  kept : Directory.Named before.files place key.address ↔ reply = .ok none ∧ after.files = before.files
  added : ¬ Directory.Named before.files place key.address → reply = .ok (some key.address) ∧
    Directory.Added place key.address content before.files after.files
  undisturbed : ∃ noted, after.events = before.events ++ noted ∧
    ∀ address, .writtenMeanwhile address ∉ noted

section
variable {directory : Directory} {place : Place} {key : KeyPair} {content : Bytes}
  {before after : Traced Disk} {reply : Except AccountError (Option Address)}

/-- After an import some name tells the account. -/
theorem AddsOrKeeps.named (h : AddsOrKeeps place key content before after reply) :
    Directory.Named after.files place key.address := by
  by_cases hnamed : Directory.Named before.files place key.address
  · rw [(h.kept.1 hnamed).2]
    exact hnamed
  · exact (h.added hnamed).2.named

/-- The path still leads to the directory after an import. -/
theorem AddsOrKeeps.leadsTo (h : AddsOrKeeps place key content before after reply)
    (hleads : before.files.LeadsTo directory.path place) : after.files.LeadsTo directory.path place := by
  by_cases hnamed : Directory.Named before.files place key.address
  · rw [(h.kept.1 hnamed).2]
    exact hleads
  · exact (h.added hnamed).2.leadsTo hleads

end

namespace Manager

open SessionAction (onFiles)

section
variable {σ : Type} {call : Call} {key : KeyPair} {password : String} {fresh : Seal}

/-- The three calls do one thing. -/
theorem perform_imports (manager : Manager σ) (now : Instant) (h : call.Imports key password fresh) :
    manager.perform now call =
      Answer.imported <$> onFiles (manager.keystore.importKey key password fresh) := by
  cases h with
  | secret hkey => rw [perform, importSecret, hkey]
  | keyfile hdecode => rw [perform, importKeyfile, Keystore.importKeyfile, hdecode]
  | file hread hdecode =>
    rw [perform, importFile, hread]
    simp only [importKeyfile, Keystore.importKeyfile, hdecode]

/-- They answer and leave what the keystore does, and unlock nothing. -/
theorem answers_imports (manager : Manager σ) (now : Instant) (h : call.Imports key password fresh)
    (session : Session σ) :
    answer (manager.perform now call) session =
      (answer (manager.keystore.importKey key password fresh) session.traced).map .imported ∧
    leaves (manager.perform now call) session =
      ⟨leaves (manager.keystore.importKey key password fresh) session.traced, session.unlocked⟩ := by
  rw [perform_imports manager now h, answer_map, leaves_map, SessionAction.answer_onFiles,
    SessionAction.leaves_onFiles]
  exact ⟨rfl, rfl⟩

/-- Without a key pair the files are not even looked at. -/
theorem perform_importsNothing {cause : AccountError} (manager : Manager σ) (now : Instant)
    (h : call.ImportsNothing cause) (session : Session σ) :
    manager.perform now call session = .error cause session := by
  cases h with
  | secret hkey =>
    rw [perform, importSecret, hkey]
    rfl
  | keyfile hdecode =>
    rw [perform, importKeyfile, Keystore.importKeyfile, hdecode]
    rfl
  | unread hread =>
    rw [perform, importFile, hread]
    rfl
  | file hread hdecode =>
    rw [perform, importFile, hread]
    simp only [importKeyfile, Keystore.importKeyfile, hdecode]
    rfl

end

variable {directory : Directory} {iterations : UInt32} {signer : Signer} {place : Place}
  {session : Session Disk} {key : KeyPair}

/-- What a look at the keyfiles notes tells of nothing that was written meanwhile. -/
theorem writtenMeanwhile_not_mem (disk : Disk) (place : Place) {event : Event}
    (h : ∀ address, .writtenMeanwhile address ≠ event) (address : Address) :
    .writtenMeanwhile address ∉ Directory.foreignFiles disk place ++ [event] := by
  intro hmem
  rcases List.mem_append.1 hmem with hmem | hmem
  · obtain ⟨name, -, heq⟩ := List.mem_map.1 hmem
    cases heq
  · exact h address (List.mem_singleton.1 hmem)

/-- The first question decides what is answered, what is left and what is noted. -/
theorem addsOrKeeps_importKey (iterations : UInt32) {traced : Traced Disk}
    (hleads : traced.files.LeadsTo directory.path place) (hroom : directory.HasRoom) (key : KeyPair)
    (password : String) (fresh : Seal) :
    AddsOrKeeps place key (Keyfile.encode key password iterations fresh) traced
      (leaves ((directory.keystore iterations).importKey key password fresh) traced)
      (answer ((directory.keystore iterations).importKey key password fresh) traced) := by
  obtain ⟨disk, events⟩ := traced
  obtain ⟨hmanaged, hnew⟩ := Keystore.traces_importKey iterations hleads hroom key password fresh
  by_cases hnamed : Directory.Named disk place key.address
  · have htrace := hmanaged hnamed
    rw [htrace.answer_eq, htrace.leaves_eq]
    exact ⟨iff_of_true hnamed ⟨rfl, rfl⟩, fun hnot => absurd hnamed hnot, _, rfl,
      writtenMeanwhile_not_mem disk place nofun⟩
  · have htrace := hnew hnamed
    have hadded := Directory.added_put (Directory.get?_entryName_of_not_named hnamed)
      (Keyfile.encode key password iterations fresh)
    generalize disk.put _ _ = left at htrace hadded
    rw [htrace.answer_eq, htrace.leaves_eq]
    exact ⟨iff_of_false hnamed nofun, fun _ => ⟨rfl, hadded⟩, _, rfl,
      writtenMeanwhile_not_mem disk place nofun⟩

/-- An import never writes over anything. It keeps everything as it is exactly if some name in the directory
tells the account; else the directory is the old one and the account's keyfile, which the password opens to
the key pair. The place of a keyfile is never found taken meanwhile. This is so for each of the calls
that import a key pair: importing it once more, by whichever call and under whatever password, leaves
everything as it is, and a call that has no key pair to import changes nothing. -/
theorem imports_add_or_keep (directory : Directory) (iterations : UInt32) (signer : Signer)
    {manager : Manager Disk} (hmanager : manager = directory.manager iterations signer)
    {session : Session Disk} {place : Place} (hleads : session.traced.files.LeadsTo directory.path place)
    (hroom : directory.HasRoom) (key : KeyPair) :
    (∀ password fresh,
      AddsOrKeeps place key (Keyfile.encode key password iterations fresh) session.traced
        (leaves (manager.keystore.importKey key password fresh) session.traced)
        (answer (manager.keystore.importKey key password fresh) session.traced)) ∧
    (0 < iterations.toNat ∧ iterations.toNat ≤ Keyfile.maxIterations → ∀ password fresh,
      Keyfile.decode (Keyfile.encode key password iterations fresh) password = .ok key) ∧
    (∀ now call password fresh, call.Imports key password fresh →
      answer (manager.perform now call) session =
        (answer (manager.keystore.importKey key password fresh) session.traced).map .imported ∧
      leaves (manager.perform now call) session =
        ⟨leaves (manager.keystore.importKey key password fresh) session.traced, session.unlocked⟩) ∧
    (∀ now call password fresh, call.Imports key password fresh →
      ∀ later again newPassword other, again.Imports key newPassword other →
        answer (manager.perform later again) (leaves (manager.perform now call) session) =
          .ok (.imported none) ∧
        (leaves (manager.perform later again) (leaves (manager.perform now call) session)).traced.files =
          (leaves (manager.perform now call) session).traced.files) ∧
    ∀ now call cause, call.ImportsNothing cause →
      answer (manager.perform now call) session = .error cause ∧
      leaves (manager.perform now call) session = session := by
  subst hmanager
  refine ⟨addsOrKeeps_importKey iterations hleads hroom key,
    fun hopens password fresh => Keyfile.decode_encode key password fresh hopens,
    fun now call password fresh h => answers_imports _ now h session,
    fun now call password fresh h later again newPassword other hagain => ?_,
    fun now call cause h => ?_⟩
  · have hfirst := addsOrKeeps_importKey iterations hleads hroom key password fresh
    have hsecond := addsOrKeeps_importKey iterations (hfirst.leadsTo hleads) hroom key newPassword other
    obtain ⟨hnone, hsame⟩ := hsecond.kept.1 hfirst.named
    obtain ⟨-, hleft⟩ := answers_imports (directory.manager iterations signer) now h session
    obtain ⟨hanswer, hleft'⟩ := answers_imports (directory.manager iterations signer) later hagain
      (leaves ((directory.manager iterations signer).perform now call) session)
    rw [hanswer, hleft', hleft]
    have hreply : answer ((directory.manager iterations signer).keystore.importKey key newPassword other)
        (leaves ((directory.manager iterations signer).keystore.importKey key password fresh)
          session.traced) = .ok none := hnone
    rw [hreply]
    exact ⟨rfl, hsame⟩
  · have hnothing := perform_importsNothing (directory.manager iterations signer) now h session
    exact ⟨answer_of_error hnothing, leaves_of_error hnothing⟩

/-- A key pair that is imported by its secret is there when its keyfile is imported. -/
theorem imports_add_or_keep_sample :
    answer ((Directory.sample.manager 1 .ecdsa).perform 0 (.importSecret
        "0x0000000000000000000000000000000000000000000000000000000000000001" "p" .zero))
      (.opened ⟨.sample, []⟩) = .ok (.imported (some KeyPair.one.address)) ∧
    answer ((Directory.sample.manager 1 .ecdsa).perform 1 (.importKeyfile
        (Keyfile.encode .one "p" 1 .zero) "p" "q" .zero))
      (leaves ((Directory.sample.manager 1 .ecdsa).perform 0 (.importSecret
        "0x0000000000000000000000000000000000000000000000000000000000000001" "p" .zero))
        (.opened ⟨.sample, []⟩)) = .ok (.imported none) ∧
    leaves ((Directory.sample.manager 1 .ecdsa).perform 0 (.importSecret "" "p" .zero))
      (.opened ⟨.sample, []⟩) = .opened ⟨.sample, []⟩ := by
  have hsecret : KeyPair.ofText? "0x0000000000000000000000000000000000000000000000000000000000000001" =
      some .one := rfl
  have hempty : KeyPair.ofText? "" = none := rfl
  have hdecode : Keyfile.decode (Keyfile.encode .one "p" 1 .zero) "p" = .ok .one :=
    Keyfile.decode_encode .one "p" .zero (show Keyfile.Opens 1 by decide)
  have hleads := Disk.sample_leadsTo
  have hnames := Disk.names_sample
  generalize Keyfile.encode .one "p" 1 .zero = content at hdecode ⊢
  generalize KeyPair.one = key at hsecret hdecode ⊢
  generalize Disk.sample = disk at hleads hnames ⊢
  generalize hsession : (Session.opened ⟨disk, []⟩ : Session Disk) = session
  have hfiles : session.traced.files = disk := by rw [← hsession]; rfl
  rw [← hfiles] at hleads hnames
  obtain ⟨himport, -, hcalls, hagain, hnothing⟩ :=
    imports_add_or_keep Directory.sample 1 .ecdsa rfl hleads Directory.hasRoom_sample key
  have hnamed : ¬ Directory.Named session.traced.files [[0x6b]] key.address := by
    rintro ⟨name, hname, -⟩
    rw [hnames] at hname
    cases hname
  obtain ⟨hanswer, -⟩ := (himport "p" .zero).added hnamed
  refine ⟨?_, (hagain 0 _ _ _ (.secret hsecret) 1 _ _ _ (.keyfile hdecode)).1,
    (hnothing 0 _ _ (.secret hempty)).2⟩
  rw [(hcalls 0 _ _ _ (.secret hsecret)).1, hanswer]
  rfl

end Manager

end Keyring
