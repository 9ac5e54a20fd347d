import Keyring.Proofs.Cli.Runs
import Keyring.Proofs.Cli.Words
import Keyring.Proofs.Keystore.Sealed
import Keyring.Proofs.Manager.Stored

/-!
# Passwords that were set on the command line

A run that sets a new password for an account, or imports one with it, leaves the account with one keyfile
that was sealed with this password (`exists_sealed`). A run that follows opens that keyfile with the password,
unless it is empty: the commands that set a password take an empty one, and those that need one refuse it
(`usable_iff_ne_empty`).
-/

namespace Keyring

open Keyring.Action (Yields)

/-! ## What was stored -/

namespace Manager

variable {directory : Directory} {iterations : UInt32} {session : Session Disk} {place : Place}
  {password : String} {fresh : Seal} {a : Answer} {signer : Signer} {now : Instant}

/-- A new password that is reported to be set. -/
theorem exists_sealed_of_update {address : Address} {given : String}
    (hfaithful : directory.Faithful session.traced.files address)
    (h : answer ((directory.manager iterations signer).perform now (.update address given password fresh))
      session = .ok a) (ha : a.succeeds = true) :
    ∃ place key, key.address = address ∧ directory.Sealed iterations place key password
      (leaves ((directory.manager iterations signer).perform now (.update address given password fresh))
        session).traced.files := by
  rw [perform] at h ⊢
  obtain ⟨told, htold, rfl⟩ := of_answer_map h
  obtain rfl : told = true := ha
  rw [update, SessionAction.answer_onFiles] at htold
  obtain ⟨place, hleads⟩ := Directory.exists_leadsTo_of_update htold
  have heffect : SessionAction.HasEffect ((directory.manager iterations signer).update address given
      password fresh) session _ := hasEffect_update hleads address given password fresh
  obtain ⟨told, ⟨⟩, hupdated⟩ := heffect.of_map h
  obtain ⟨key, haddress, hsealed⟩ := Directory.sealed_of_updated hleads hfaithful hupdated
  exact ⟨place, key, haddress, hsealed⟩

end Manager

namespace Cli

open Command

variable {directory : Directory} {iterations : UInt32} {session : Session Disk} {place : Place}
  {random : Randomness} {call : Call} {a : Answer} {signer : Signer} {password : String}

/-- An import keeps the key pair under the password of its own. -/
theorem eq_of_kept {source : KeySource} {disk : Disk} {given : Option String}
    (hcall : (Command.importAccount source (some password)).call? random disk given = some call)
    {key : KeyPair} {kept : String} (hkept : call.kept? = some (key, kept)) : kept = password := by
  cases source with
  | secret secret =>
    obtain ⟨given, -, rfl⟩ := Option.map_eq_some_iff.1 hcall
    obtain ⟨key, -, heq⟩ := Option.map_eq_some_iff.1 hkept
    cases heq
    rfl
  | file path =>
    obtain ⟨given, -, rfl⟩ := Option.map_eq_some_iff.1 hcall
    obtain ⟨content, -, hkept⟩ := Option.bind_eq_some_iff.1 hkept
    obtain ⟨key, -, heq⟩ := Option.map_eq_some_iff.1 hkept
    cases heq
    rfl

/-- What an import with a password of its own does, if it is reported to have succeeded. -/
theorem exists_imported {source : KeySource} {disk : Disk} {given : Option String}
    (hcall : (Command.importAccount source (some password)).call? random disk given = some call)
    (hleads : session.traced.files.LeadsTo directory.path place)
    (h : answer ((directory.manager iterations signer).perform 0 call) session = .ok a) :
    ∃ key found fresh, directory.imported iterations session.traced.files place key password fresh =
      (.ok found, (leaves ((directory.manager iterations signer).perform 0 call) session).traced.files) := by
  have himported : ∃ found, a = .imported found := by
    cases source <;>
    · obtain ⟨given, -, rfl⟩ := Option.map_eq_some_iff.1 hcall
      obtain ⟨found, -, rfl⟩ := of_answer_map h
      exact ⟨found, rfl⟩
  obtain ⟨found, rfl⟩ := himported
  obtain ⟨key, kept, hkept⟩ := Manager.exists_kept (.inr ⟨found, h⟩)
  obtain ⟨-, fresh, hresult⟩ := Manager.imported_of_kept hleads hkept h
  obtain rfl : kept = password := eq_of_kept hcall hkept
  exact ⟨key, found, fresh, hresult⟩

/-! ## Setting a password -/

/-- The command sets the password of an account, or it imports the account with this password where the
directory at the place that the path leads to has no keyfile of it before and has one afterwards. -/
inductive Command.Sets (directory : Directory) (opened left : Disk) (address : Address) (password : String) :
    Command → Prop
  | update : Sets directory opened left address password (.update address password)
  | importAccount {source : KeySource} {place : Place} : opened.LeadsTo directory.path place →
    Directory.keyfiles opened place address = [] → Directory.keyfiles left place address ≠ [] →
      Sets directory opened left address password (.importAccount source (some password))

/-- A run that sets a password and exits with zero leaves a keyfile that is sealed with it. -/
theorem exists_sealed {words : List String} {environment : Environment} {disk : Disk}
    {invocation : Invocation} (hwords : Invocation.ofWords words environment = .ok invocation)
    {manager : Manager Disk} {opened : Traced Disk}
    (hopened : Manager.ofConfig (invocation.config environment) ⟨disk, []⟩ = .ok manager opened)
    {address : Address}
    (hfaithful : (invocation.config environment).opens.Faithful opened.files address)
    (hexit : (run words environment random disk).1.exitCode = 0)
    (hsets : invocation.command.Sets (invocation.config environment).opens opened.files
      (run words environment random disk).2 address password) :
    ∃ place key, key.address = address ∧
      (invocation.config environment).opens.Sealed invocation.kdfIterations place key password
        (run words environment random disk).2 := by
  obtain ⟨hmanager, -⟩ := Manager.of_ofConfig_ok hopened
  cases hcall : invocation.command.call? random opened.files invocation.password with
  | none => exact absurd hexit (exitCode_of_none hwords hopened hcall).1
  | some call =>
    obtain ⟨hsucceeds, hleft⟩ := exitCode_of_call hwords hopened hcall
    obtain ⟨a, ha, hsuccess⟩ := hsucceeds.1 hexit
    rw [hleft] at hsets ⊢
    rw [hmanager] at ha hsets ⊢
    generalize hcommand : invocation.command = command at hcall hsets
    cases hsets with
    | update =>
      obtain ⟨given, -, rfl⟩ := Option.map_eq_some_iff.1 hcall
      exact Manager.exists_sealed_of_update hfaithful ha hsuccess
    | @importAccount source place hleads hbefore hafter =>
      obtain ⟨key, found, fresh, himported⟩ := exists_imported hcall hleads ha
      obtain ⟨haddress, hsealed⟩ := Directory.sealed_of_imported hleads hbefore hafter himported
      exact ⟨place, key, haddress, hsealed⟩

/-! ## Using a password -/

section
variable {words : List String} {environment : Environment} {disk : Disk} {invocation : Invocation}
  {key : KeyPair} {written : UInt32}

/-- A directory that a keyfile was sealed in is opened as it is. -/
theorem ofConfig_of_sealed (hsealed : (invocation.config environment).opens.Sealed written place key password
      disk) : Manager.ofConfig (invocation.config environment) ⟨disk, []⟩ =
    .ok ((invocation.config environment).opens.manager invocation.kdfIterations .ecdsa) ⟨disk, []⟩ :=
  Manager.ofConfig_of_leadsTo hsealed.leads []

/-- A run that exports a sealed account with the password exits with zero unless the password is empty. -/
theorem exitCode_exportKey_iff (hwords : Invocation.ofWords words environment = .ok invocation)
    (hsealed : (invocation.config environment).opens.Sealed written place key password disk)
    (hopens : Keyfile.Opens written) (hpassword : invocation.password = some password)
    (hcommand : invocation.command = .exportKey key.address) :
    (run words environment random disk).1.exitCode = 0 ↔ password ≠ "" := by
  have hopened := ofConfig_of_sealed hsealed
  by_cases hempty : password = ""
  · have hcall : invocation.command.call? random disk invocation.password = none :=
      call?_eq_none_iff.2 (.inl ⟨by rw [hcommand]; rfl, by rw [hpassword, hempty]; rfl⟩)
    exact ⟨fun hexit => absurd hexit (exitCode_of_none hwords hopened hcall).1, fun h => absurd hempty h⟩
  · have hcall : invocation.command.call? random disk invocation.password =
        some (.exportKey key.address password) := by
      rw [hcommand, hpassword, call?, Option.filter_some, if_pos (decide_eq_true hempty), Option.map_some]
    refine ⟨fun _ => hempty, fun _ => (exitCode_of_call hwords hopened hcall).1.2 ?_⟩
    refine ⟨.exported (some key), ?_, rfl⟩
    change answer (Answer.exported <$> Manager.exportKey _ key.address password : SessionAction Disk Answer)
      (.opened ⟨disk, []⟩) = _
    have hanswer : answer (((invocation.config environment).opens.manager invocation.kdfIterations
        .ecdsa).exportKey key.address password) (.opened ⟨disk, []⟩) = _ :=
      Manager.answer_exportKey hsealed.leads key.address password
    rw [answer_map, hanswer]
    change ((invocation.config environment).opens.loaded disk place key.address password).map _ = _
    rw [hsealed.loaded_eq hopens]
    rfl

/-- The password of a sealed account resolves to its key pair unless it is empty. -/
theorem resolveKey_sealed_iff {directory : Directory} {iterations : UInt32} {signer : Signer}
    (hsealed : directory.Sealed written place key password disk) (hopens : Keyfile.Opens written)
    {found : KeyPair} :
    answer ((directory.manager iterations signer).resolveKey 0 key.address (some password))
        (.opened ⟨disk, []⟩) = .ok found ↔ password ≠ "" ∧ found = key := by
  constructor
  · intro h
    obtain ⟨given, content, hgiven, hne, hholds, hdecode⟩ := of_resolveKey_opened h
    cases hgiven
    have hloaded := (Directory.loaded_eq_ok_iff hsealed.leads).2 ⟨content, hholds, hdecode⟩
    rw [hsealed.loaded_eq hopens] at hloaded
    cases hloaded
    exact ⟨hne, rfl⟩
  · rintro ⟨hne, rfl⟩
    refine Manager.answer_resolveKey_some hne (fun k hlookup => by cases hlookup) fun traced hfiles => ?_
    have hload : Yields ((directory.keystore iterations).load found.address password) disk _ _ :=
      Directory.yields_load hsealed.leads found.address password
    obtain ⟨files, events⟩ := traced
    cases hfiles
    exact ((hload events).1).trans (hsealed.loaded_eq hopens)

/-- A run that signs a message with the password of a sealed account exits with zero unless the password
is empty or the key pair cannot sign the message. -/
theorem exitCode_signMessage_iff (hwords : Invocation.ofWords words environment = .ok invocation)
    (hsealed : (invocation.config environment).opens.Sealed written place key password disk)
    (hopens : Keyfile.Opens written) (hpassword : invocation.password = some password) {text : String}
    (hcommand : invocation.command = .signMessage key.address text false)
    (htext : text.toList.take 2 ≠ ['0', 'x']) :
    (run words environment random disk).1.exitCode = 0 ↔
      password ≠ "" ∧ ∃ sig, Signer.ecdsa.sign (Utf8.encode text) key true = .ok sig := by
  have hopened := ofConfig_of_sealed hsealed
  have hcall : invocation.command.call? random disk invocation.password =
      some (.signMessage key.address (some password) (Utf8.encode text) true) := by
    rw [hcommand, hpassword, call?, messageOf?, if_neg htext]
    rfl
  rw [(exitCode_of_call hwords hopened hcall).1]
  constructor
  · rintro ⟨a, ha, -⟩
    obtain ⟨shown, hshown, rfl⟩ := of_answer_map ha
    obtain ⟨sig, hsign, -⟩ := of_answer_bind hshown
    obtain ⟨found, hkey, hsig⟩ := Manager.of_answer_sign hsign
    obtain ⟨hne, rfl⟩ := (resolveKey_sealed_iff hsealed hopens).1 hkey
    exact ⟨hne, sig, hsig⟩
  · rintro ⟨hne, sig, hsig⟩
    have hsign : answer (((invocation.config environment).opens.manager invocation.kdfIterations
        .ecdsa).sign 0 key.address (some password) (Utf8.encode text) true) (.opened ⟨disk, []⟩) = .ok sig :=
      (Manager.answer_sign ((resolveKey_sealed_iff hsealed hopens).2 ⟨hne, rfl⟩)).trans hsig
    refine ⟨.signedMessage ("0x" ++ Hex.text sig.toBytes), ?_, rfl⟩
    change answer (Answer.signedMessage <$> Manager.signMessage _ 0 key.address (some password)
      (Utf8.encode text) true : SessionAction Disk Answer) (.opened ⟨disk, []⟩) = _
    rw [answer_map, Manager.signMessage, answer_bind_ok hsign]
    rfl

end

/-- What runs on the disk that are given the password can do with the account of the key pair. -/
structure Usable (directory : Directory) (disk : Disk) (key : KeyPair) (password : String) : Prop where
  exportKey_iff : ∀ words environment random invocation,
    Invocation.ofWords words environment = .ok invocation →
    (invocation.config environment).opens = directory → invocation.password = some password →
    invocation.command = .exportKey key.address →
      ((run words environment random disk).1.exitCode = 0 ↔ password ≠ "")
  signMessage_iff : ∀ words environment random invocation text,
    Invocation.ofWords words environment = .ok invocation →
    (invocation.config environment).opens = directory → invocation.password = some password →
    invocation.command = .signMessage key.address text false → text.toList.take 2 ≠ ['0', 'x'] →
      ((run words environment random disk).1.exitCode = 0 ↔
        password ≠ "" ∧ ∃ sig, Signer.ecdsa.sign (Utf8.encode text) key true = .ok sig)

/-- A sealed account can be used with its password by every run that follows. -/
theorem usable_of_sealed {key : KeyPair} {disk : Disk}
    (hsealed : directory.Sealed iterations place key password disk) (hopens : Keyfile.Opens iterations) :
    Usable directory disk key password where
  exportKey_iff _ _ _ _ hwords hsame hpassword hcommand :=
    exitCode_exportKey_iff hwords (hsame ▸ hsealed) hopens hpassword hcommand
  signMessage_iff _ _ _ _ _ hwords hsame hpassword hcommand htext :=
    exitCode_signMessage_iff hwords (hsame ▸ hsealed) hopens hpassword hcommand htext

/-- A run that sets a password for an account and exits with zero leaves the account with a key pair that the
password opens: a run that follows and is given the password exports it exactly if the password is not empty,
and signs a text with it exactly if besides the text can be signed. Both can be told on the command line,
whatever the password is. -/
theorem usable_iff_ne_empty (random : Randomness) {words : List String} {environment : Environment}
    {disk : Disk} {invocation : Invocation}
    (hwords : Invocation.ofWords words environment = .ok invocation) {manager : Manager Disk}
    {opened : Traced Disk}
    (hopened : Manager.ofConfig (invocation.config environment) ⟨disk, []⟩ = .ok manager opened)
    (hopens : Keyfile.Opens invocation.kdfIterations)
    (hfaithful : ∀ address, (invocation.config environment).opens.Faithful opened.files address)
    (hexit : (run words environment random disk).1.exitCode = 0) {address : Address} {password : String}
    (hsets : invocation.command.Sets (invocation.config environment).opens opened.files
      (run words environment random disk).2 address password) :
    (∃ key : KeyPair, key.address = address ∧
      Usable (invocation.config environment).opens (run words environment random disk).2 key password) ∧
    ∀ directory text environment', directory ≠ "" → Address.ofText? text = some address →
      environment' "MEOW_KEYSTORE" ≠ some "" →
      Invocation.ofWords [optionWord .keystore directory, "export", text, optionWord .password password]
          environment' =
        .ok ⟨some (Path.ofText directory), some password, Config.defaultIterations, .exportKey address⟩ ∧
      ∀ message, Word.ofText message = .plain →
        Invocation.ofWords [optionWord .keystore directory, "sign-message", text, message,
            optionWord .password password] environment' =
          .ok ⟨some (Path.ofText directory), some password, Config.defaultIterations,
            .signMessage address message false⟩ := by
  obtain ⟨place, key, haddress, hsealed⟩ := exists_sealed hwords hopened (hfaithful address) hexit hsets
  refine ⟨⟨key, haddress, usable_of_sealed hsealed hopens⟩, ?_⟩
  intro directory text environment' hdirectory htext henvironment
  refine ⟨ofWords_exportKey hdirectory htext password henvironment, fun message hmessage => ?_⟩
  exact ofWords_signMessage hdirectory htext hmessage password henvironment

/-! ### A password that is set in the sample directory -/

/-- The words that import a key pair into the sample directory with a password of its own. -/
def importWords (password : String) : List String :=
  ["--keystore=/k", "--kdf-iterations=1", "--password=p", "import",
    "--private-key=0x0000000000000000000000000000000000000000000000000000000000000001",
    "--new-password=" ++ password]

/-- What they mean. -/
def importing (password : String) : Invocation :=
  ⟨some (Path.ofText "/k"), some "p", 1, .importAccount
    (.secret "0x0000000000000000000000000000000000000000000000000000000000000001") (some password)⟩

/-- The text of the secret one is read as it. -/
theorem ofText?_one : KeyPair.ofText?
    "0x0000000000000000000000000000000000000000000000000000000000000001" = some .one := by
  rfl

/-- The call that imports a key pair into the sample directory. -/
theorem hasEffect_importSecret_sample (key : KeyPair) {secret : String}
    (hsecret : KeyPair.ofText? secret = some key) (password : String) (fresh : Seal) :
    SessionAction.HasEffect ((Directory.sample.manager 1 .ecdsa).perform 0
        (.importSecret secret password fresh)) (.opened ⟨.sample, []⟩)
      (.ok (.imported (some key.address)), Disk.sample.put (Keyfile.entryName key.address :: [[0x6b]])
        (.file Directory.keyfileMode (Keyfile.encode key password 1 fresh))) := by
  have hleads := Disk.sample_leadsTo
  have hfirst := Directory.keyfiles_sample key.address
  have hcheck := Directory.checkPath_sample key.address
  have hnone := Disk.get?_sample (Keyfile.entryName key.address)
  generalize Disk.sample = disk at hleads hfirst hnone ⊢
  have hpersisted := Directory.persisted_eq 1 hleads key password fresh hcheck hnone
  have himport : SessionAction.HasEffect ((Directory.sample.manager 1 .ecdsa).importSecret secret password
      fresh) (.opened ⟨disk, []⟩)
      (Directory.sample.imported 1 disk [[0x6b]] key password fresh) := by
    unfold Manager.importSecret
    rw [hsecret]
    exact Manager.hasEffect_importKey hleads key password fresh
  rw [Directory.imported_eq hfirst hpersisted] at himport
  exact himport.map Answer.imported

/-- An import into the sample directory succeeds and makes the first keyfile of the account. -/
theorem run_importing {words : List String}
    (hwords : Invocation.ofWords words .none = .ok (importing password)) :
    (run words .none .sample .sample).1.exitCode = 0 ∧
      (importing password).command.Sets Directory.sample Disk.sample (run words .none .sample .sample).2
        KeyPair.one.address password := by
  have hcall : (importing password).command.call? .sample Disk.sample (importing password).password =
      some (.importSecret "0x0000000000000000000000000000000000000000000000000000000000000001" password
        .zero) := rfl
  obtain ⟨hexit, hleft⟩ := exitCode_of_call hwords (ofConfig_sample 1 Disk.sample_leadsTo) hcall
  obtain ⟨hanswer, hfiles⟩ := hasEffect_importSecret_sample .one ofText?_one password .zero
  refine ⟨hexit.2 ⟨_, hanswer, rfl⟩, .importAccount Disk.sample_leadsTo (Directory.keyfiles_sample _) ?_⟩
  rw [hleft]
  rw [hfiles, Directory.keyfiles_put_of_nil (Disk.get?_sample _) (Keyfile.addressIn?_entryName _)
    (Directory.keyfiles_sample _)]
  exact List.cons_ne_nil _ _

/-- The sample directory holds no keyfile that could belong to another account. -/
theorem faithful_sample (address : Address) : Directory.sample.Faithful Disk.sample address := by
  intro content hholds
  obtain ⟨name, others, hnames, -⟩ := (Directory.holds_iff Disk.sample_leadsTo).1 hholds
  rw [Directory.keyfiles_sample] at hnames
  cases hnames

/-- A password that is not empty can be used after an import with it. -/
theorem usable_import : (run (importWords "q") .none .sample .sample).1.exitCode = 0 ∧
    (run (exportWords "q") .none .sample (run (importWords "q") .none .sample .sample).2).1.exitCode = 0 := by
  have hwords : Invocation.ofWords (importWords "q") .none = .ok (importing "q") := by rfl
  obtain ⟨hexit, hsets⟩ := run_importing hwords
  obtain ⟨⟨key, haddress, husable⟩, -⟩ := usable_iff_ne_empty .sample hwords
    (ofConfig_sample 1 Disk.sample_leadsTo) (show Keyfile.Opens 1 by decide) faithful_sample hexit hsets
  refine ⟨hexit, (husable.exportKey_iff _ _ _ _ (ofWords_exportWords "q") rfl rfl ?_).2 (by decide)⟩
  rw [haddress]

/-- An empty one cannot, though the import with it succeeds. -/
theorem exportKey_refused_import : (run (importWords "") .none .sample .sample).1.exitCode = 0 ∧
    (importing "").command.Sets Directory.sample Disk.sample
      (run (importWords "") .none .sample .sample).2 KeyPair.one.address "" ∧
    (run (exportWords "") .none .sample (run (importWords "") .none .sample .sample).2).1.exitCode ≠ 0 := by
  have hwords : Invocation.ofWords (importWords "") .none = .ok (importing "") := by rfl
  obtain ⟨hexit, hsets⟩ := run_importing hwords
  obtain ⟨place, key, haddress, hsealed⟩ := exists_sealed hwords (ofConfig_sample 1 Disk.sample_leadsTo)
    (faithful_sample KeyPair.one.address) hexit hsets
  have hcommand : Command.exportKey KeyPair.one.address = .exportKey key.address := by rw [haddress]
  refine ⟨hexit, hsets, fun hexport => ?_⟩
  exact (exitCode_exportKey_iff (ofWords_exportWords "") hsealed (show Keyfile.Opens 1 by decide) rfl
    hcommand).1 hexport rfl

end Cli

end Keyring
