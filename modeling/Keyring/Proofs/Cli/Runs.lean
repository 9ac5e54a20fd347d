import Keyring.Proofs.Cli.Calls
import Keyring.Proofs.Cli.Words
import Keyring.Proofs.Keystore.Sealed
import Keyring.Proofs.Manager.Ownership
import Keyring.Proofs.Transaction.Recovery

/-!
# Runs of the program

A run opens the manager of the directory that the command line tells and carries out the command with it
(`run_of_prints`). So it makes the one call that its command stands for: it exits with zero exactly if
the call succeeds, and leaves the disk that the call leaves (`run_makes_call`). What is printed of a key,
or signed with it, is printed for a password that is not empty and opens a keyfile of the account.
-/

namespace Keyring.Cli

open Step

/-! ## From a command to a run -/

/-- The settings that a command line tells. -/
def Invocation.config (invocation : Invocation) (environment : Environment) : Config :=
  (Config.withDir (invocation.directory ((environment "HOME").map Path.ofText))).withIterations
    invocation.kdfIterations

section

variable {words : List String} {environment : Environment} {random : Randomness} {disk : Disk}
  {invocation : Invocation} {manager : Manager Disk} {opened : Traced Disk}

/-- The manager is opened before the command is carried out. -/
theorem runInvocation_of_opened
    (hopened : Manager.ofConfig (invocation.config environment) ⟨disk, []⟩ = .ok manager opened) :
    runInvocation ((environment "HOME").map Path.ofText) random invocation ⟨⟨⟨disk, []⟩, .empty⟩, []⟩ =
      runCommand manager invocation.password random invocation.command ⟨.opened opened, []⟩ := by
  have hopen : openManager invocation ((environment "HOME").map Path.ofText)
      ⟨⟨⟨disk, []⟩, .empty⟩, []⟩ = .ok manager ⟨.opened opened, []⟩ := by
    unfold openManager orElse manage SessionAction.onFiles
    unfold Invocation.config at hopened
    simp only [hopened]
    rfl
  unfold runInvocation
  rw [bind_of_ok (answer_of_ok hopen), leaves_of_ok hopen]

/-- What a run shows and leaves, by what its command prints. -/
theorem run_of_prints (hwords : Invocation.ofWords words environment = .ok invocation)
    (hopened : Manager.ofConfig (invocation.config environment) ⟨disk, []⟩ = .ok manager opened)
    {session : Session Disk} {before : List Output} {output : Option Output}
    (h : Prints (runCommand manager invocation.password random invocation.command)
      ⟨.opened opened, []⟩ session before output) :
    ((run words environment random disk).1.exitCode = 0 ↔ output.isSome = true) ∧
      (run words environment random disk).1.stdout =
        String.join ((before ++ output.toList).map (Output.text (Palette.ofEnvironment environment))) ∧
      (run words environment random disk).2 = session.traced.files := by
  obtain ⟨hok, hleaves⟩ := h
  unfold run
  simp only [hwords, runInvocation_of_opened hopened]
  unfold answer at hok
  unfold leaves at hleaves
  generalize runCommand manager invocation.password random invocation.command ⟨.opened opened, []⟩ =
    result at hok hleaves
  cases result with
  | ok a progress =>
    simp only at hok hleaves
    subst hleaves
    rw [← hok]
    exact ⟨⟨fun _ => rfl, fun _ => rfl⟩, rfl, rfl⟩
  | error failure progress =>
    simp only at hok hleaves
    subst hleaves
    rw [← hok]
    exact ⟨⟨nofun, nofun⟩, rfl, rfl⟩

/-- A run whose command has a call. -/
theorem run_of_call (hwords : Invocation.ofWords words environment = .ok invocation)
    (hopened : Manager.ofConfig (invocation.config environment) ⟨disk, []⟩ = .ok manager opened)
    {call : Call}
    (hcall : invocation.command.call? random opened.files invocation.password = some call) :
    ((run words environment random disk).1.exitCode = 0 ↔
        ((answer (manager.perform 0 call) (.opened opened)).toOption.bind
          invocation.command.printed?).isSome = true) ∧
      (run words environment random disk).1.stdout = String.join
        ((invocation.command.heading manager.directory ++
          ((answer (manager.perform 0 call) (.opened opened)).toOption.bind
            invocation.command.printed?).toList).map (Output.text (Palette.ofEnvironment environment))) ∧
      (run words environment random disk).2 =
        (leaves (manager.perform 0 call) (.opened opened)).traced.files := by
  refine run_of_prints hwords hopened ?_
  exact runCommand_of_call hcall

end

/-! ## What counts as a success -/

namespace Command

/-- A command prints something for the answers of its call that are successes. -/
theorem isSome_printed? {command : Command} {random : Randomness} {disk : Disk}
    {password : Option String} {call : Call} (hcall : command.call? random disk password = some call)
    {manager : Manager Disk} {session : Session Disk} {a : Answer}
    (ha : answer (manager.perform 0 call) session = .ok a) :
    (command.printed? a).isSome = a.succeeds := by
  cases command with
  | new =>
    obtain ⟨given, -, rfl⟩ := Option.map_eq_some_iff.1 hcall
    obtain ⟨address, -, rfl⟩ := of_answer_map ha
    rfl
  | list =>
    cases hcall
    obtain ⟨addresses, -, rfl⟩ := of_answer_map ha
    rfl
  | importAccount source newPassword =>
    cases source <;>
    · obtain ⟨given, -, rfl⟩ := Option.map_eq_some_iff.1 hcall
      obtain ⟨imported, -, rfl⟩ := of_answer_map ha
      cases imported <;> rfl
  | exportKey address =>
    obtain ⟨given, -, rfl⟩ := Option.map_eq_some_iff.1 hcall
    obtain ⟨key, -, rfl⟩ := of_answer_map ha
    cases key <;> rfl
  | update address newPassword =>
    obtain ⟨given, -, rfl⟩ := Option.map_eq_some_iff.1 hcall
    obtain ⟨told, -, rfl⟩ := of_answer_map ha
    cases told <;> rfl
  | delete address =>
    cases hcall
    obtain ⟨told, -, rfl⟩ := of_answer_map ha
    cases told <;> rfl
  | signMessage address text raw =>
    obtain ⟨message, -, rfl⟩ := Option.map_eq_some_iff.1 hcall
    obtain ⟨sig, -, rfl⟩ := of_answer_map ha
    rfl
  | signTransaction sender tx =>
    cases hcall
    obtain ⟨bytes, -, rfl⟩ := of_answer_map ha
    rfl

/-- There is no call exactly if a password is missing, or a message is wrong. -/
theorem call?_eq_none_iff {command : Command} {random : Randomness} {disk : Disk}
    {password : Option String} : command.call? random disk password = none ↔
      (command.needsPassword = true ∧ password.filter (· ≠ "") = none) ∨
        ∃ address text raw, command = .signMessage address text raw ∧ messageOf? text = none := by
  cases command with
  | importAccount source newPassword => cases source <;> simp [call?, needsPassword]
  | _ => simp [call?, needsPassword]

end Command

/-! ## What is printed of a key -/

namespace Output

variable (palette : Palette)

/-- An exported key stands on a line of its own, below a warning that names the account. -/
theorem text_exported (address : Address) (secret : String) :
    (exported address secret).text palette =
      warning palette ("Anyone holding this key controls " ++ palette.address address ++ ".") ++ "\n" ++
        (secret ++ "\n") := by
  simp [text, lines, String.join]

/-- A signature is a line. -/
theorem text_line (shown : String) : (line shown).text palette = shown ++ "\n" := by
  simp [text, lines, String.join]

end Output

section
variable {directory : Directory} {iterations : UInt32} {signer : Signer} {opened : Traced Disk}
  {address : Address} {password : Option String} {key : KeyPair}

/-- A manager that has just been opened resolves only what a password opens. -/
theorem of_resolveKey_opened {now : Instant}
    (h : answer ((directory.manager iterations signer).resolveKey now address password) (.opened opened) =
      .ok key) :
    ∃ given content, password = some given ∧ given ≠ "" ∧
      directory.Holds opened.files address content ∧ Keyfile.decode content given = .ok key := by
  rcases Manager.of_answer_resolveKey h with hlookup | ⟨given, traced, hgiven, hfiles, hload⟩
  · obtain ⟨unlock, hunlock, -⟩ := UnlockRegistry.lookup_unlocked_iff.1 hlookup
    cases hunlock
  · obtain ⟨hpassword, hne⟩ := Option.filter_eq_some_iff.1 hgiven
    obtain ⟨content, hholds, hdecode⟩ := Directory.loads_iff.1 hload
    rw [hfiles] at hholds
    exact ⟨given, content, hpassword, of_decide_eq_true hne, hholds, hdecode⟩

namespace Command

/-- The account whose key a command prints or signs with. -/
def account? : Command → Option Address
  | exportKey address | signMessage address .. | signTransaction address _ => some address
  | _ => none

/-- What is printed is the key pair's secret, or a signature by it of what the command tells. -/
def Reveals (key : KeyPair) (output : Output) : Command → Prop
  | exportKey address => output = .exported address key.secretText
  | signMessage _ text raw => ∃ message sig, messageOf? text = some message ∧
    Signer.ecdsa.sign message key (!raw) = .ok sig ∧ output = .line ("0x" ++ Hex.text sig.toBytes)
  | signTransaction _ tx => ∃ sig,
    Signer.ecdsa.sign (keccak256 (Transaction.legacy tx).preimage).toBytes key false = .ok sig ∧
      output = .line ("0x" ++ Hex.text ((Transaction.legacy tx).signed sig))
  | _ => False

/-- What a command prints with an account's key, it prints with a key pair that a keyfile of the account
opens to under the password. -/
theorem exists_reveals {command : Command} (haccount : command.account? = some address)
    {random : Randomness} {call : Call}
    (hcall : command.call? random opened.files password = some call) {a : Answer}
    (ha : answer ((directory.manager iterations .ecdsa).perform 0 call) (.opened opened) = .ok a)
    {output : Output} (houtput : command.printed? a = some output) :
    ∃ given content key, password = some given ∧ given ≠ "" ∧
      directory.Holds opened.files address content ∧ Keyfile.decode content given = .ok key ∧
      command.Reveals key output := by
  cases command with
  | exportKey =>
    cases haccount
    obtain ⟨given, hgiven, rfl⟩ := Option.map_eq_some_iff.1 hcall
    obtain ⟨found, hload, rfl⟩ := of_answer_map ha
    obtain ⟨hpassword, hne⟩ := Option.filter_eq_some_iff.1 hgiven
    cases found with
    | none => cases houtput
    | some key =>
      cases houtput
      unfold Manager.exportKey at hload
      rw [SessionAction.answer_onFiles] at hload
      obtain ⟨content, hholds, hdecode⟩ := Directory.loads_iff.1 hload
      exact ⟨given, content, key, hpassword, of_decide_eq_true hne, hholds, hdecode, rfl⟩
  | signMessage _ text raw =>
    cases haccount
    obtain ⟨message, hmessage, rfl⟩ := Option.map_eq_some_iff.1 hcall
    obtain ⟨shown, hshown, rfl⟩ := of_answer_map ha
    cases houtput
    obtain ⟨sig, hsign, hshown⟩ := of_answer_bind hshown
    cases hshown
    obtain ⟨key, hkey, hsig⟩ := Manager.of_answer_sign hsign
    obtain ⟨given, content, hpassword, hne, hholds, hdecode⟩ := of_resolveKey_opened hkey
    exact ⟨given, content, key, hpassword, hne, hholds, hdecode, message, sig, hmessage, hsig, rfl⟩
  | signTransaction _ tx =>
    cases haccount
    cases hcall
    obtain ⟨bytes, hbytes, rfl⟩ := of_answer_map ha
    cases houtput
    obtain ⟨key, sig, hkey, hsig, rfl⟩ := Manager.of_answer_signTransaction hbytes
    obtain ⟨given, content, hpassword, hne, hholds, hdecode⟩ := of_resolveKey_opened hkey
    exact ⟨given, content, key, hpassword, hne, hholds, hdecode, sig, hsig, rfl⟩
  | new | list | importAccount | update | delete => cases haccount

end Command

end

/-! ## Runs -/

section
variable {words : List String} {environment : Environment} {random : Randomness} {disk : Disk}
  {invocation : Invocation} {manager : Manager Disk} {opened : Traced Disk}

/-- A run exits with zero exactly if its call succeeds, and leaves what the call leaves. -/
theorem exitCode_of_call (hwords : Invocation.ofWords words environment = .ok invocation)
    (hopened : Manager.ofConfig (invocation.config environment) ⟨disk, []⟩ = .ok manager opened)
    {call : Call}
    (hcall : invocation.command.call? random opened.files invocation.password = some call) :
    ((run words environment random disk).1.exitCode = 0 ↔
        ∃ a, answer (manager.perform 0 call) (.opened opened) = .ok a ∧ a.succeeds = true) ∧
      (run words environment random disk).2 =
        (leaves (manager.perform 0 call) (.opened opened)).traced.files := by
  obtain ⟨hexit, -, hleft⟩ := run_of_call hwords hopened hcall
  refine ⟨hexit.trans ?_, hleft⟩
  cases ha : answer (manager.perform 0 call) (.opened opened) with
  | error e => exact ⟨nofun, nofun⟩
  | ok a =>
    change (invocation.command.printed? a).isSome = true ↔ _
    rw [Command.isSome_printed? hcall ha]
    exact ⟨fun h => ⟨a, rfl, h⟩, fun ⟨_, heq, h⟩ => by cases heq; exact h⟩

/-- A run without a call fails, and has only opened the directory. -/
theorem exitCode_of_none (hwords : Invocation.ofWords words environment = .ok invocation)
    (hopened : Manager.ofConfig (invocation.config environment) ⟨disk, []⟩ = .ok manager opened)
    (hcall : invocation.command.call? random opened.files invocation.password = none) :
    (run words environment random disk).1.exitCode ≠ 0 ∧
      (run words environment random disk).1.stdout = "" ∧
      (run words environment random disk).2 = opened.files := by
  obtain ⟨hexit, hstdout, hleft⟩ := run_of_prints hwords hopened (runCommand_of_none hcall)
  exact ⟨fun h => (by cases hexit.1 h), hstdout, hleft⟩

/-- Only a list has a heading, and it is about no account. -/
theorem Command.heading_of_account? {command : Command} {address : Address} (directory : Path)
    (h : command.account? = some address) : command.heading directory = [] := by
  cases command with
  | list => cases h
  | _ => rfl

/-- What a run prints with an account's key, it prints with a key pair that a keyfile of the account opens to
under the password. -/
theorem reveals_of_stdout_ne (hwords : Invocation.ofWords words environment = .ok invocation)
    (hopened : Manager.ofConfig (invocation.config environment) ⟨disk, []⟩ = .ok manager opened)
    {address : Address} (haccount : invocation.command.account? = some address)
    (hprinted : (run words environment random disk).1.stdout ≠ "") :
    ∃ given content key output, invocation.password = some given ∧ given ≠ "" ∧
      (∃ place name mode, opened.files.LeadsTo manager.directory place ∧
        Keyfile.addressIn? name = some address ∧
        disk.get? (name :: place) = some (.file mode content)) ∧
      Keyfile.decode content given = .ok key ∧
      (run words environment random disk).1.stdout =
        output.text (Palette.ofEnvironment environment) ∧
      invocation.command.Reveals key output := by
  cases hcall : invocation.command.call? random opened.files invocation.password with
  | none => exact absurd (exitCode_of_none hwords hopened hcall).2.1 hprinted
  | some call =>
    obtain ⟨-, hstdout, -⟩ := run_of_call hwords hopened hcall
    rw [Command.heading_of_account? _ haccount, List.nil_append] at hstdout
    cases houtput : (answer (manager.perform 0 call) (.opened opened)).toOption.bind
        invocation.command.printed? with
    | none =>
      rw [houtput] at hstdout
      exact absurd hstdout hprinted
    | some output =>
      rw [houtput] at hstdout
      obtain ⟨hmanager, hfiles⟩ := Manager.of_ofConfig_ok hopened
      obtain ⟨a, ha, houtput⟩ := Option.bind_eq_some_iff.1 houtput
      rw [hmanager] at ha
      obtain ⟨given, content, key, hpassword, hne, hholds, hdecode, hreveals⟩ :=
        Command.exists_reveals haccount hcall (eq_ok_of_toOption ha) houtput
      obtain ⟨place, name, mode, hleads, htells, hfile⟩ := hholds.exists_file
      refine ⟨given, content, key, output, hpassword, hne, ⟨place, name, mode, ?_, htells, ?_⟩, hdecode,
        ?_, hreveals⟩
      · rw [hmanager]
        exact hleads
      · exact (hfiles (name :: place) mode content).1 hfile
      · rw [hstdout]
        simp [String.join]

end

/-- A run whose command line is accepted and whose directory can be opened. Without a password that is not
empty, the commands that need one fail and change no file. Otherwise the run makes the one call that its
command stands for, on a manager that has just been opened: it exits with zero exactly if the call succeeds,
and leaves what the call leaves; only where a message is wrong is there no call, and the run fails. A secret
or a signature is printed only if the password, which is not empty, opens a keyfile that has a name of the
account, and then it is the secret that is in the keyfile, or a signature by it. -/
theorem run_makes_call (random : Randomness) {words : List String} {environment : Environment}
    {disk : Disk} {invocation : Invocation}
    (hwords : Invocation.ofWords words environment = .ok invocation) {manager : Manager Disk}
    {opened : Traced Disk}
    (hopened : Manager.ofConfig (invocation.config environment) ⟨disk, []⟩ = .ok manager opened) :
    (invocation.command.needsPassword = true ∧ invocation.password.filter (· ≠ "") = none →
      (run words environment random disk).1.exitCode ≠ 0 ∧
        disk.SameFiles (run words environment random disk).2) ∧
    (¬ (invocation.command.needsPassword = true ∧ invocation.password.filter (· ≠ "") = none) →
      match invocation.command.call? random opened.files invocation.password with
      | some call =>
        ((run words environment random disk).1.exitCode = 0 ↔
          ∃ a, answer (manager.perform 0 call) (.opened opened) = .ok a ∧ a.succeeds = true) ∧
        (run words environment random disk).2 =
          (leaves (manager.perform 0 call) (.opened opened)).traced.files
      | none =>
        (∃ address text raw, invocation.command = .signMessage address text raw ∧
          messageOf? text = none) ∧
        (run words environment random disk).1.exitCode ≠ 0 ∧
        (run words environment random disk).2 = opened.files) ∧
    (∀ address, invocation.command.account? = some address →
      (run words environment random disk).1.stdout ≠ "" →
        ∃ given content key output, invocation.password = some given ∧ given ≠ "" ∧
          (∃ place name mode, opened.files.LeadsTo manager.directory place ∧
            Keyfile.addressIn? name = some address ∧
            disk.get? (name :: place) = some (.file mode content)) ∧
          Keyfile.decode content given = .ok key ∧
          (run words environment random disk).1.stdout =
            output.text (Palette.ofEnvironment environment) ∧
          invocation.command.Reveals key output) := by
  refine ⟨fun hmissing => ?_, fun hgiven => ?_, fun address => reveals_of_stdout_ne hwords hopened⟩
  · have hcall : invocation.command.call? random opened.files invocation.password = none :=
      Command.call?_eq_none_iff.2 (.inl hmissing)
    obtain ⟨hfails, -, hleft⟩ := exitCode_of_none hwords hopened hcall
    rw [hleft]
    exact ⟨hfails, (Manager.of_ofConfig_ok hopened).2⟩
  · split
    · next call hcall => exact exitCode_of_call hwords hopened hcall
    · next hcall =>
      obtain ⟨hfails, -, hleft⟩ := exitCode_of_none hwords hopened hcall
      exact ⟨(Command.call?_eq_none_iff.1 hcall).resolve_left hgiven, hfails, hleft⟩

/-! ### Runs in the sample directory -/

/-- The environment without variables. -/
def Environment.none : Environment :=
  fun _ => Option.none

/-- Random values that are none. -/
def Randomness.sample : Randomness :=
  ⟨.one, .zero⟩

/-- The words that make a new account in the sample directory. -/
def newWords : List String :=
  ["--keystore=/k", "--password=p", "new"]

/-- What they mean. -/
theorem ofWords_newWords : Invocation.ofWords newWords .none =
    .ok ⟨some (Path.ofText "/k"), some "p", Config.defaultIterations, .new⟩ := by
  rfl

/-- The words that export the key pair of the secret one. -/
def exportWords (password : String) : List String :=
  [optionWord .keystore "/k", "export", KeyPair.one.address.lowerText, optionWord .password password]

/-- An address is read back from its text in lowercase. -/
theorem ofText?_lowerText (address : Address) : Address.ofText? address.lowerText = some address := by
  rw [Address.ofText?, Address.lowerText, String.toList_ofList]
  change (Hex.decode? (Hex.encode address.toBytes)).bind Address.ofBytes? = _
  rw [Hex.decode?_encode]
  exact Address.ofBytes?_eq_some_iff.2 rfl

/-- What those mean. -/
theorem ofWords_exportWords (password : String) : Invocation.ofWords (exportWords password) .none =
    .ok ⟨some (Path.ofText "/k"), some password, Config.defaultIterations,
      .exportKey KeyPair.one.address⟩ :=
  ofWords_exportKey (by decide) (ofText?_lowerText _) password nofun

/-- The manager of the sample directory is opened on any disk that has this directory. -/
theorem ofConfig_sample (iterations : UInt32) {disk : Disk} {place : Place}
    (hleads : disk.LeadsTo Directory.sample.path place) :
    Manager.ofConfig ⟨Path.ofText "/k", iterations⟩ ⟨disk, []⟩ =
      .ok (Directory.sample.manager iterations .ecdsa) ⟨disk, []⟩ := by
  have hopens : Config.opens ⟨Path.ofText "/k", iterations⟩ = Directory.sample := by rfl
  rw [← hopens] at hleads ⊢
  exact Manager.ofConfig_of_leadsTo hleads []

/-- The call that makes a new account in the sample directory. -/
theorem hasEffect_perform_create (iterations : UInt32) (key : KeyPair) (password : String) (fresh : Seal) :
    SessionAction.HasEffect ((Directory.sample.manager iterations .ecdsa).perform 0
        (.create key password fresh)) (.opened ⟨.sample, []⟩)
      (.ok (.created key.address), Disk.sample.put (Keyfile.entryName key.address :: [[0x6b]])
        (.file Directory.keyfileMode (Keyfile.encode key password iterations fresh))) :=
  (Manager.hasEffect_create_sample iterations key password fresh).map Answer.created

/-- A new account's keyfile in the sample directory opens under its password. -/
theorem sealed_create_sample (iterations : UInt32) (key : KeyPair) (password : String) (fresh : Seal) :
    Directory.sample.Sealed iterations [[0x6b]] key password
      (Disk.sample.put (Keyfile.entryName key.address :: [[0x6b]])
        (.file Directory.keyfileMode (Keyfile.encode key password iterations fresh))) :=
  Directory.sealed_put Disk.sample_leadsTo (Directory.checkPath_sample _) (Disk.get?_sample _)
    (Directory.keyfiles_sample _) rfl

/-- The call that exports the key pair of a sealed account. -/
theorem answer_perform_exportKey {iterations : UInt32} {place : Place} {key : KeyPair} {password : String}
    {disk : Disk} (hsealed : Directory.sample.Sealed iterations place key password disk)
    (hopens : Keyfile.Opens iterations) :
    answer ((Directory.sample.manager iterations .ecdsa).perform 0 (.exportKey key.address password))
      (.opened ⟨disk, []⟩) = .ok (.exported (some key)) := by
  have hleads : (Session.opened ⟨disk, []⟩ : Session Disk).traced.files.LeadsTo
      Directory.sample.path place := hsealed.leads
  rw [Manager.perform, answer_map, Manager.answer_exportKey hleads]
  exact congrArg (Except.map Answer.exported) (hsealed.loaded_eq hopens)

/-- A new account is made in the sample directory. A run that is given its password then prints its secret,
and this is the secret of a keyfile that the password opens. -/
theorem run_makes_call_export :
    (run newWords .none .sample .sample).1.exitCode = 0 ∧
      (run (exportWords "p") .none .sample (run newWords .none .sample .sample).2).1.exitCode = 0 ∧
      (run (exportWords "p") .none .sample (run newWords .none .sample .sample).2).1.stdout =
        "  WARNING: Anyone holding this key controls " ++ KeyPair.one.address.text ++ ".\n" ++
          (KeyPair.one.secretText ++ "\n") ∧
      ∃ content key, Keyfile.decode content "p" = .ok key ∧
        (run (exportWords "p") .none .sample (run newWords .none .sample .sample).2).1.stdout =
          (Output.exported KeyPair.one.address key.secretText).text ⟨false⟩ := by
  obtain ⟨-, hnew, -⟩ := run_makes_call .sample ofWords_newWords
    (ofConfig_sample Config.defaultIterations Disk.sample_leadsTo)
  have hcreate : Command.new.call? .sample Disk.sample (some "p") = some (.create .one "p" .zero) := rfl
  have hnew := hnew (by decide)
  simp only [hcreate] at hnew
  obtain ⟨hcreated, hleft⟩ := hnew
  obtain ⟨hanswer, hfiles⟩ := hasEffect_perform_create Config.defaultIterations .one "p" .zero
  have hsealed := sealed_create_sample Config.defaultIterations .one "p" .zero
  refine ⟨hcreated.2 ⟨_, hanswer, rfl⟩, ?_⟩
  rw [hleft, hfiles]
  simp only
  generalize Disk.sample.put _ _ = disk at hsealed ⊢
  have hopened := ofConfig_sample Config.defaultIterations hsealed.leads
  have hcall : (Command.exportKey KeyPair.one.address).call? Randomness.sample disk (some "p") =
      some (.exportKey KeyPair.one.address "p") := rfl
  have hexported := answer_perform_exportKey hsealed (by decide)
  obtain ⟨-, hstdout, -⟩ := run_of_call (ofWords_exportWords "p") hopened hcall
  obtain ⟨-, hcalls, hprints⟩ := run_makes_call .sample (ofWords_exportWords "p") hopened
  have hexport := hcalls (by simp)
  simp only [hcall] at hexport
  have hprinted : (run (exportWords "p") .none .sample disk).1.stdout =
      "  WARNING: Anyone holding this key controls " ++ KeyPair.one.address.text ++ ".\n" ++
        (KeyPair.one.secretText ++ "\n") := by
    rw [hstdout, hexported]
    change String.join [Output.text ⟨false⟩ (.exported KeyPair.one.address KeyPair.one.secretText)] = _
    rw [Output.text_exported]
    generalize KeyPair.one = key
    simp only [String.join, List.foldl_cons, List.foldl_nil, String.empty_append, Output.warning,
      Palette.paint, Palette.address, Bool.false_eq_true, if_false, String.append_assoc]
    rw [← String.append_assoc]
    rfl
  have hsome : (run (exportWords "p") .none .sample disk).1.stdout ≠ "" := by
    rw [hprinted]
    simp
  refine ⟨hexport.1.2 ⟨_, hexported, rfl⟩, hprinted, ?_⟩
  obtain ⟨given, content, key, output, hgiven, -, -, hdecode, hshown, hreveals⟩ :=
    hprints KeyPair.one.address rfl hsome
  cases hgiven
  cases hreveals
  exact ⟨content, key, hdecode, hshown⟩

end Keyring.Cli
