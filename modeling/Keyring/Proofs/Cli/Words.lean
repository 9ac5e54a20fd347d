import Keyring.Cli.Arguments

/-!
# Command lines that are accepted

The text after the equals sign of an option is taken as it is, whatever it is (`ofText_optionWord`). So a
command line that names a directory, an account and a password means exactly these, and what the command
line gives wins over the environment (`ofWords_exportKey`, `ofWords_signMessage`).
-/

namespace Keyring.Cli

/-! ## Words -/

/-- Two dashes, the name of an option, and a text after an equals sign. -/
def optionWord (p : Parameter) (text : String) : String :=
  "--" ++ p.words ++ "=" ++ text

/-- The name in the word of an option ends before the equals sign, and the rest is its text. -/
theorem ofText_optionWord (p : Parameter) (text : String) :
    Word.ofText (optionWord p text) = .long p.words (some text) := by
  cases p <;> simp [Word.ofText, optionWord, Parameter.words]

/-- The word of an option is the name of no command. -/
theorem not_command_optionWord (p : Parameter) (text : String) :
    CommandName.ofText? (optionWord p text) = none ∧ optionWord p text ≠ "help" := by
  have hdash : (optionWord p text).toList.head? = some '-' := by simp [optionWord]
  refine ⟨List.find?_eq_none.2 fun name _ => ?_, ?_⟩
  · rw [decide_eq_true_eq]
    intro heq
    rw [← heq] at hdash
    cases name <;> simp [CommandName.text] at hdash
  · intro heq
    rw [heq] at hdash
    simp at hdash

/-- A text that starts with a dash tells no address. -/
theorem ne_dash_of_address {text : String} {address : Address}
    (h : Address.ofText? text = some address) (rest : List Char) : text.toList ≠ '-' :: rest := by
  intro htext
  have hdash : Hex.digitValue? '-' = none := by decide
  have hnone : Hex.decode? ('-' :: rest) = none := by
    cases rest with
    | nil => rfl
    | cons low rest => simp only [Hex.decode?, hdash]
  rw [Address.ofText?, htext] at h
  change (Hex.decode? ('-' :: rest)).bind _ = _ at h
  rw [hnone] at h
  cases h

/-- So the text of an address is no option. -/
theorem ofText_address {text : String} {address : Address} (h : Address.ofText? text = some address) :
    Word.ofText text = .plain := by
  unfold Word.ofText
  split
  · next htext => exact absurd htext (ne_dash_of_address h _)
  · next htext => exact absurd htext (ne_dash_of_address h _)
  · next htext => exact absurd htext (ne_dash_of_address h _)
  · rfl

namespace Scan

variable {scope : Scope} {scan : Scan} {p : Parameter} {text : String}

/-- A parameter that is not given yet is taken with a text that is one of its values. -/
theorem add_eq (scan : Scan) (hnew : scan.has p = false) (hcheck : p.check text = .ok ())
    (source : Source) : scan.add p text source = .ok { scan with given := scan.given ++ [⟨p, text, source⟩] } := by
  unfold add
  rw [hnew, hcheck]
  rfl

/-- An option with its text after an equals sign. -/
theorem read_optionWord (hescaped : scan.escaped = false) (hscope : scope.option? p.words = some p)
    (hvalue : p.takesValue = true) : scan.read scope (optionWord p text) =
      scan.settle.bind fun scan => scan.add p text .commandLine := by
  unfold read readOption
  simp only [hescaped, ofText_optionWord, hscope, hvalue, Bool.false_eq_true, if_false]
  rfl

/-- A plain word where nothing is to be settled is the next parameter by order. -/
theorem read_plain (given : List Given) (rest : List Parameter) (hplain : Word.ofText text = .plain) :
    (⟨given, none, p :: rest, false⟩ : Scan).read scope text =
      .ok ⟨given, some (p, some text), rest, false⟩ := by
  unfold read
  simp only [hplain, Bool.false_eq_true, if_false]
  rfl

end Scan

/-! ## Command lines that give a password -/

section
variable {directory text password : String} {environment : Environment}

/-- A directory that is not empty is accepted. -/
theorem check_keystore (h : directory ≠ "") : Parameter.keystore.check directory = .ok () :=
  if_neg h

/-- A text that is read as an address is accepted. -/
theorem check_address {address : Address} (h : Address.ofText? text = some address) :
    Parameter.address.check text = .ok () := by
  simp [Parameter.check, h]

/-- What is read before the name of a command. -/
theorem readProgramWords_keystore (hdirectory : directory ≠ "") {word : String} {name : CommandName}
    (hname : CommandName.ofText? word = some name) (rest : List String) :
    readProgramWords (optionWord .keystore directory :: word :: rest) (.start .program) =
      .ok (⟨[⟨.keystore, directory, .commandLine⟩], none, [], false⟩, some (name, rest)) := by
  obtain ⟨hcommand, hhelp⟩ := not_command_optionWord .keystore directory
  have hread : (Scan.start .program).read .program (optionWord .keystore directory) =
      .ok ⟨[⟨.keystore, directory, .commandLine⟩], none, [], false⟩ := by
    rw [Scan.read_optionWord rfl rfl rfl]
    exact Scan.add_eq (.start .program) rfl (check_keystore hdirectory) .commandLine
  have hstart : (Scan.start .program).atCommand = true := rfl
  have hnext : (⟨[⟨.keystore, directory, .commandLine⟩], none, [], false⟩ : Scan).atCommand = true := rfl
  simp only [readProgramWords, hstart, hcommand, hhelp, if_false, hread]
  change readProgramWords (word :: rest) _ = _
  simp only [readProgramWords, hnext, hname]

end

namespace Scan

variable {environment : Environment} {rest : List Parameter} {scan : Scan} {p : Parameter}

/-- A parameter that is given, or has no variable, is not looked for in the environment. -/
theorem addVariables_skip (h : scan.has p = true ∨ p.fromVariable?.bind environment = none) :
    scan.addVariables environment (p :: rest) = scan.addVariables environment rest := by
  conv => lhs; unfold addVariables
  rcases h with h | h
  · rw [h]
    rfl
  · rw [h]
    cases scan.has p <;> rfl

/-- A parameter that is not given is taken from its variable, if there is one and its text is a value. -/
theorem addVariables_take (hnew : scan.has p = false)
    (hcheck : ∀ text, p.fromVariable?.bind environment = some text → p.check text = .ok ()) :
    scan.addVariables environment (p :: rest) =
      addVariables environment rest { scan with given := scan.given ++
        ((p.fromVariable?.bind environment).map fun text => ⟨p, text, .environment⟩).toList } := by
  cases hvariable : p.fromVariable?.bind environment with
  | none =>
    rw [addVariables_skip (.inr hvariable), Option.map_none, Option.toList_none, List.append_nil]
  | some text =>
    rw [addVariables, hnew, hvariable]
    simp only
    rw [add_eq _ hnew (hcheck text hvariable)]
    rfl

end Scan

section
variable {directory text password : String} {environment : Environment}

/-- What is given before the name of the command, with the environment. -/
def outerGiven (environment : Environment) (directory : String) : List Given :=
  ⟨.keystore, directory, .commandLine⟩ ::
    ((environment "MEOW_PASSWORD").map fun text => ⟨.password, text, .environment⟩).toList

/-- The options of the program are complete with a directory. -/
theorem finish_program (environment : Environment) :
    (⟨[⟨.keystore, directory, .commandLine⟩], none, [], false⟩ : Scan).finish .program environment =
      .ok (outerGiven environment directory) := by
  have hvariables : (⟨[⟨.keystore, directory, .commandLine⟩], none, [], false⟩ : Scan).addVariables
      environment Scope.shared = .ok ⟨outerGiven environment directory, none, [], false⟩ := by
    rw [Scope.shared, Scan.addVariables_skip (.inl rfl), Scan.addVariables_take rfl fun _ _ => rfl,
      Scan.addVariables_skip (.inr rfl)]
    rfl
  unfold Scan.finish Scan.settle Scope.parameters
  simp only
  change (do let scan ← Scan.addVariables environment Scope.shared _; return scan.given) = _
  rw [hvariables]
  rfl

/-- What is given of the directory and the password, after what is given of the command. -/
def sharedGiven (environment : Environment) (password : String) : List Given :=
  ⟨.password, password, .commandLine⟩ ::
    ((environment "MEOW_KEYSTORE").map fun text => ⟨.keystore, text, .environment⟩).toList

/-- A directory that the environment tells is accepted, if it is not empty. -/
theorem check_variable (henvironment : environment "MEOW_KEYSTORE" ≠ some "") (text : String)
    (htext : Parameter.keystore.fromVariable?.bind environment = some text) :
    Parameter.keystore.check text = .ok () := by
  refine check_keystore fun heq => henvironment ?_
  rw [← heq]
  exact htext

/-- A word that is read is followed by the others. -/
theorem readCommandWords_cons {name : CommandName} {word : String} {scan scan' : Scan}
    (h : scan.read (.command name) word = .ok scan') (rest : List String) :
    readCommandWords name (word :: rest) scan = readCommandWords name rest scan' := by
  conv => lhs; unfold readCommandWords
  rw [h]
  rfl

/-- The password is the last thing that is given, and what was met before it is looked at first. -/
theorem readCommandWords_password {name : CommandName} (given : List Given) {met : Scan}
    (hescaped : met.escaped = false)
    (hscope : (Scope.command name).option? Parameter.password.words = some .password)
    (hsettle : met.settle = .ok ⟨given, none, [], false⟩)
    (hnew : (⟨given, none, [], false⟩ : Scan).has .password = false) :
    readCommandWords name [optionWord .password password] met =
      .ok ⟨given ++ [⟨.password, password, .commandLine⟩], none, [], false⟩ := by
  refine readCommandWords_cons ?_ []
  rw [Scan.read_optionWord hescaped hscope rfl, hsettle]
  exact Scan.add_eq _ hnew (show Parameter.password.check password = .ok () from rfl) .commandLine

/-- What is given for a command whose words were read and go together. -/
theorem readCommand_eq {name : CommandName} {words : List String} (given : List Given) {all : List Given}
    (hwords : readCommandWords name words (.start (.command name)) = .ok ⟨given, none, [], false⟩)
    (hvariables : (⟨given, none, [], false⟩ : Scan).addVariables environment
      (Scope.command name).parameters = .ok ⟨all, none, [], false⟩)
    (htogether : checkTogether name all = .ok ()) : readCommand name environment words = .ok all := by
  have hfinish : (⟨given, none, [], false⟩ : Scan).finish (.command name) environment = .ok all := by
    unfold Scan.finish Scan.settle
    simp only
    change (do let scan ← Scan.addVariables environment _ _; return scan.given) = _
    rw [hvariables]
    rfl
  unfold readCommand
  simp only [hwords]
  change (do
    let given ← Scan.finish (.command name) environment _
    checkTogether name given
    return given) = _
  rw [hfinish]
  change (do checkTogether name all; return all) = _
  rw [htogether]
  rfl

/-- What is given for a command with an account. -/
theorem readCommand_exportKey {address : Address} (haddress : Address.ofText? text = some address)
    (henvironment : environment "MEOW_KEYSTORE" ≠ some "") :
    readCommand .exportKey environment [text, optionWord .password password] =
      .ok ([⟨.address, text, .commandLine⟩] ++ sharedGiven environment password) := by
  refine readCommand_eq [⟨.address, text, .commandLine⟩, ⟨.password, password, .commandLine⟩] ?_ ?_ ?_
  · refine (readCommandWords_cons (Scan.read_plain [] [] (ofText_address haddress)) _).trans ?_
    refine readCommandWords_password [⟨.address, text, .commandLine⟩] rfl rfl ?_ rfl
    exact Scan.add_eq ⟨[], none, [], false⟩ rfl (check_address haddress) .commandLine
  · change Scan.addVariables environment [.address, .keystore, .password, .kdfIterations] _ = _
    rw [Scan.addVariables_skip (.inl rfl), Scan.addVariables_take rfl (check_variable henvironment),
      Scan.addVariables_skip (.inl rfl), Scan.addVariables_skip (.inr rfl)]
    rfl
  · cases h : environment "MEOW_KEYSTORE" <;> simp only [sharedGiven, h] <;> rfl

/-- What is given for a command with an account and a message. -/
theorem readCommand_signMessage {address : Address} (haddress : Address.ofText? text = some address)
    {message : String} (hmessage : Word.ofText message = .plain)
    (henvironment : environment "MEOW_KEYSTORE" ≠ some "") :
    readCommand .signMessage environment [text, message, optionWord .password password] =
      .ok ([⟨.address, text, .commandLine⟩, ⟨.message, message, .commandLine⟩] ++
        sharedGiven environment password) := by
  have hsettle : (⟨[], some (.address, some text), [.message], false⟩ : Scan).settle =
      .ok ⟨[⟨.address, text, .commandLine⟩], none, [.message], false⟩ :=
    Scan.add_eq ⟨[], none, [.message], false⟩ rfl (check_address haddress) .commandLine
  have hread : (⟨[], some (.address, some text), [.message], false⟩ : Scan).read (.command .signMessage)
      message = .ok ⟨[⟨.address, text, .commandLine⟩], some (.message, some message), [], false⟩ := by
    unfold Scan.read Scan.readPositional
    simp only [hmessage, hsettle, Bool.false_eq_true, if_false]
    rfl
  refine readCommand_eq [⟨.address, text, .commandLine⟩, ⟨.message, message, .commandLine⟩,
    ⟨.password, password, .commandLine⟩] ?_ ?_ ?_
  · refine (readCommandWords_cons (Scan.read_plain [] [.message] (ofText_address haddress)) _).trans ?_
    rw [readCommandWords_cons hread]
    refine readCommandWords_password
      [⟨.address, text, .commandLine⟩, ⟨.message, message, .commandLine⟩] rfl rfl ?_ rfl
    exact Scan.add_eq ⟨[⟨.address, text, .commandLine⟩], none, [], false⟩ rfl
      (show Parameter.message.check message = .ok () from rfl) .commandLine
  · change Scan.addVariables environment
      [.address, .message, .raw, .keystore, .password, .kdfIterations] _ = _
    rw [Scan.addVariables_skip (.inl rfl), Scan.addVariables_skip (.inl rfl),
      Scan.addVariables_skip (.inr rfl), Scan.addVariables_take rfl (check_variable henvironment),
      Scan.addVariables_skip (.inl rfl), Scan.addVariables_skip (.inr rfl)]
    rfl
  · cases h : environment "MEOW_KEYSTORE" <;> simp only [sharedGiven, h] <;> rfl

/-- All that is given on a command line with a directory before the name of the command, and a password at
the end. -/
def allGiven (environment : Environment) (directory password : String) (own : List Given) : Arguments :=
  ⟨outerGiven environment directory, own ++ sharedGiven environment password⟩

/-- What a command line with a directory before the name of its command is read as. -/
theorem ofWords_eq (hdirectory : directory ≠ "") {name : CommandName} {word : String}
    (hname : CommandName.ofText? word = some name) {words : List String} {inner : List Given}
    (hcommand : readCommand name environment words = .ok inner) :
    Invocation.ofWords (optionWord .keystore directory :: word :: words) environment =
      Arguments.invocation ⟨outerGiven environment directory, inner⟩ name := by
  unfold Invocation.ofWords
  rw [readProgramWords_keystore hdirectory hname]
  change (do
    let inner ← readCommand name environment words
    let outer ← Scan.finish .program environment _
    Arguments.invocation ⟨outer, inner⟩ name) = _
  rw [hcommand, finish_program]
  rfl

section
variable {own : List Given}

/-- The directory and the password on the command line win over the environment, and no number of iterations
is given. -/
theorem text?_shared (hown : ∀ given ∈ own, given.parameter ∉ Scope.shared) :
    (allGiven environment directory password own).text? .keystore = some directory ∧
      (allGiven environment directory password own).text? .password = some password ∧
      (allGiven environment directory password own).text? .kdfIterations = none := by
  have hnone (p : Parameter) (hp : p ∈ Scope.shared) :
      own.find? (fun given => given.parameter = p) = none := by
    refine List.find?_eq_none.2 fun given hmem heq => hown given hmem ?_
    rwa [of_decide_eq_true heq]
  have hkeystore := hnone .keystore (by decide)
  have hpassword := hnone .password (by decide)
  have hiterations := hnone .kdfIterations (by decide)
  unfold Arguments.text? allGiven outerGiven sharedGiven
  simp only [List.find?_append, hkeystore, hpassword, hiterations, Option.none_or]
  cases environment "MEOW_KEYSTORE" <;> cases environment "MEOW_PASSWORD" <;> exact ⟨rfl, rfl, rfl⟩

/-- What is given of a command's own parameters is found. -/
theorem text?_own {p : Parameter} (hp : p ∉ Scope.shared) :
    (allGiven environment directory password own).text? p =
      (own.find? fun given => given.parameter = p).map (·.text) := by
  have hne (shared : Parameter) (hshared : shared ∈ Scope.shared) : ¬ shared = p :=
    fun heq => hp (heq ▸ hshared)
  have hkeystore := hne .keystore (by decide)
  have hpassword := hne .password (by decide)
  have houter : (outerGiven environment directory).find? (fun given => given.parameter = p) = none := by
    cases h : environment "MEOW_PASSWORD" <;> simp [outerGiven, h, hkeystore, hpassword]
  have hshared : (sharedGiven environment password).find? (fun given => given.parameter = p) = none := by
    cases h : environment "MEOW_KEYSTORE" <;> simp [sharedGiven, h, hkeystore, hpassword]
  unfold Arguments.text? allGiven
  simp only [List.find?_append, houter, hshared, Option.or_none]
  cases own.find? fun given => given.parameter = p <;> rfl

/-- The value of one of the command's own parameters. -/
theorem value_own {α : Type} {p : Parameter} (hp : p ∉ Scope.shared) (given : Given)
    (hgiven : own.find? (fun given => given.parameter = p) = some given) {read : String → Option α} {a : α}
    (hread : read given.text = some a) :
    (allGiven environment directory password own).value p read = .ok a := by
  unfold Arguments.value
  rw [text?_own hp, hgiven, Option.map_some]
  simp only [hread]

/-- Such a command line means its directory, its password and its command. -/
theorem ofWords_of_command (hdirectory : directory ≠ "") {name : CommandName} {word : String}
    (hname : CommandName.ofText? word = some name) {words : List String}
    (hinner : readCommand name environment words = .ok (own ++ sharedGiven environment password))
    (hown : ∀ given ∈ own, given.parameter ∉ Scope.shared) {command : Command}
    (hcommand : (allGiven environment directory password own).command name = .ok command) :
    Invocation.ofWords (optionWord .keystore directory :: word :: words) environment =
      .ok ⟨some (Path.ofText directory), some password, Config.defaultIterations, command⟩ := by
  have htexts : (allGiven environment directory password own).text? .keystore = _ ∧ _ := text?_shared hown
  obtain ⟨hkeystore, hpassword, hiterations⟩ := htexts
  rw [ofWords_eq hdirectory hname hinner]
  change (allGiven environment directory password own).invocation name = _
  unfold Arguments.invocation Arguments.valueOr
  rw [hkeystore, hpassword, hiterations, hcommand]
  rfl

end

/-- A command line that tells where the keyfiles of an account are and its password means what it says,
whatever the environment is. -/
theorem ofWords_exportKey {address : Address} (hdirectory : directory ≠ "")
    (haddress : Address.ofText? text = some address) (password : String)
    (henvironment : environment "MEOW_KEYSTORE" ≠ some "") :
    Invocation.ofWords [optionWord .keystore directory, "export", text, optionWord .password password]
        environment =
      .ok ⟨some (Path.ofText directory), some password, Config.defaultIterations, .exportKey address⟩ := by
  have hvalue : (allGiven environment directory password [⟨.address, text, .commandLine⟩]).value .address
      Address.ofText? = .ok address :=
    value_own (by decide) ⟨.address, text, .commandLine⟩ rfl haddress
  refine ofWords_of_command hdirectory rfl (readCommand_exportKey haddress henvironment)
    (by simp [Scope.shared]) ?_
  rw [Arguments.command, hvalue]
  rfl

/-- So does one that tells a message to sign besides, if the message is no option. -/
theorem ofWords_signMessage {address : Address} (hdirectory : directory ≠ "")
    (haddress : Address.ofText? text = some address) {message : String}
    (hmessage : Word.ofText message = .plain) (password : String)
    (henvironment : environment "MEOW_KEYSTORE" ≠ some "") :
    Invocation.ofWords [optionWord .keystore directory, "sign-message", text, message,
        optionWord .password password] environment =
      .ok ⟨some (Path.ofText directory), some password, Config.defaultIterations,
        .signMessage address message false⟩ := by
  have haddressValue : (allGiven environment directory password
      [⟨.address, text, .commandLine⟩, ⟨.message, message, .commandLine⟩]).value .address Address.ofText? =
        .ok address :=
    value_own (by decide) ⟨.address, text, .commandLine⟩ rfl haddress
  have hmessageValue : (allGiven environment directory password
      [⟨.address, text, .commandLine⟩, ⟨.message, message, .commandLine⟩]).value .message some = .ok message :=
    value_own (by decide) ⟨.message, message, .commandLine⟩ rfl rfl
  refine ofWords_of_command hdirectory rfl (readCommand_signMessage haddress hmessage henvironment)
    (by simp [Scope.shared]) ?_
  rw [Arguments.command, haddressValue, hmessageValue, text?_own (by decide)]
  rfl

end

end Keyring.Cli
