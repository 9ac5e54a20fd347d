import Keyring.Proofs.Cli.Entries
import Mathlib.Data.List.Nodup

/-!
# Lines of entries

A command line that tells parameters with their texts has entries before and after the name of the command,
in any order. If all texts are values it means what its entries tell, with the environment for the rest
(`Line.exists_arguments`), and with another text it is refused (`Line.check_of_ofWords`). It never asks for
help (`Line.ofWords_ne_help`).
-/

namespace Keyring.Cli

/-- A chain that succeeds goes through its first step. -/
theorem of_bind_eq_ok {α β : Type} {x : Except Usage α} {f : α → Except Usage β} {b : β}
    (h : x >>= f = .ok b) : ∃ a, x = .ok a ∧ f a = .ok b := by
  cases x with
  | error usage => cases h
  | ok a => exact ⟨a, rfl, h⟩

/-! ## The environment -/

namespace Scan

/-- What the environment gives of a parameter. -/
def fromEnvironment? (environment : Environment) (p : Parameter) : Option Given :=
  (p.fromVariable?.bind environment).map fun text => ⟨p, text, .environment⟩

section
variable {scope : Scope} {scan : Scan} {environment : Environment} {given : List Given} {p : Parameter}

/-- Only the directory of the keyfiles may not be empty. -/
theorem check_of_variable (henvironment : environment "MEOW_KEYSTORE" ≠ some "") (p : Parameter)
    (text : String) (h : p.fromVariable?.bind environment = some text) : p.check text = .ok () := by
  cases p with
  | keystore => exact check_variable henvironment text h
  | password | privateKey | newPassword => rfl
  | _ => cases h

/-- The environment gives what is not given yet. -/
theorem exists_addVariables (henvironment : environment "MEOW_KEYSTORE" ≠ some "")
    (parameters : List Parameter) (scan : Scan) :
    ∃ all, scan.addVariables environment parameters = .ok { scan with given := all } ∧
      ∀ p, found? all p =
        (found? scan.given p).or (if p ∈ parameters then fromEnvironment? environment p else none) := by
  induction parameters generalizing scan with
  | nil => exact ⟨scan.given, rfl, fun p => by simp⟩
  | cons q rest ih =>
    -- A variable is passed over if its parameter is given already, or it is not set.
    by_cases hskip : scan.has q = true ∨ q.fromVariable?.bind environment = none
    · obtain ⟨all, hall, hfound⟩ := ih scan
      refine ⟨all, by rw [addVariables_skip hskip, hall], fun p => ?_⟩
      rw [hfound]
      by_cases hp : p = q
      · subst hp
        rcases hskip with hhas | hnone
        · obtain ⟨g, hg⟩ := Option.isSome_iff_exists.1 ((isGiven_eq scan.given p).symm.trans hhas)
          rw [hg, Option.some_or, Option.some_or]
        · simp only [fromEnvironment?, hnone, Option.map_none, ite_self]
      · simp only [List.mem_cons, hp, false_or]
    · rw [not_or, Bool.not_eq_true] at hskip
      obtain ⟨hnew, hvariable⟩ := hskip
      obtain ⟨text, htext⟩ := Option.ne_none_iff_exists'.1 hvariable
      obtain ⟨all, hall, hfound⟩ := ih { scan with given := scan.given ++ [⟨q, text, .environment⟩] }
      refine ⟨all, ?_, fun p => ?_⟩
      · rw [addVariables_take hnew (check_of_variable henvironment q), htext]
        exact hall
      · rw [hfound, found?_concat]
        by_cases hp : q = p
        · subst hp
          have hnone : found? scan.given q = none :=
            Option.isNone_iff_eq_none.1 (by rw [← Option.not_isSome, ← isGiven_eq]; exact congrArg not hnew)
          simp [hnone, fromEnvironment?, htext]
        · simp [hp, Ne.symm hp]

/-- What is given in a scope is what is told and what the environment gives. -/
theorem exists_finish (henvironment : environment "MEOW_KEYSTORE" ≠ some "") (scope : Scope)
    (h : scan.told = .ok given) : ∃ all, scan.finish scope environment = .ok all ∧
      ∀ p, found? all p =
        (found? given p).or (if p ∈ scope.parameters then fromEnvironment? environment p else none) := by
  cases hsettle : scan.settle with
  | error usage => rw [told, hsettle] at h; cases h
  | ok settled =>
    rw [told, hsettle] at h
    cases h
    obtain ⟨all, hall, hfound⟩ := exists_addVariables henvironment scope.parameters settled
    refine ⟨all, ?_, hfound⟩
    unfold finish
    rw [hsettle]
    change (do let scan ← settled.addVariables environment scope.parameters; return scan.given) = _
    rw [hall]
    rfl

/-- A scan that is finished has told what was given. -/
theorem exists_told_of_finish {all : List Given} (h : scan.finish scope environment = .ok all) :
    ∃ given, scan.told = .ok given := by
  unfold finish at h
  rw [told]
  cases hsettle : scan.settle with
  | error usage => rw [hsettle] at h; cases h
  | ok settled => exact ⟨settled.given, rfl⟩

/-- Variables of the environment never ask for help. -/
theorem addVariables_ne_help (environment : Environment) (parameters : List Parameter) (scan : Scan) :
    scan.addVariables environment parameters ≠ .error .help := by
  induction parameters generalizing scan with
  | nil =>
    intro h
    cases h
  | cons q rest ih =>
    by_cases hskip : scan.has q = true ∨ q.fromVariable?.bind environment = none
    · rw [addVariables_skip hskip]
      exact ih scan
    · rw [not_or, Bool.not_eq_true] at hskip
      obtain ⟨text, htext⟩ := Option.ne_none_iff_exists'.1 hskip.2
      rw [addVariables, hskip.1, htext]
      refine bind_ne_help ?_ fun next _ => ih next
      rw [add_eq_lookAt]
      cases hlook : lookAt scan.given ⟨q, text, .environment⟩ with
      | error usage =>
        rintro ⟨⟩
        exact lookAt_ne_help _ _ hlook
      | ok all =>
        intro h
        cases h

/-- Nor does what is missing at the end. -/
theorem finish_ne_help (scope : Scope) (environment : Environment) (h : scan.told ≠ .error .help) :
    scan.finish scope environment ≠ .error .help := by
  unfold finish
  refine bind_ne_help ?_ fun settled _ => bind_ne_help (addVariables_ne_help _ _ settled) fun _ _ => nofun
  intro hsettle
  exact h (by rw [told, hsettle]; rfl)

end

end Scan

/-! ## The words before the name of a command -/

section
variable {scan : Scan} {entry : Entry} {entries : List Entry}

/-- A word that is no command is read as an option of the program. -/
theorem readProgramWords_of_not_command {word : String}
    (h : CommandName.ofText? word = none ∧ word ≠ "help") (rest : List String) (scan : Scan) :
    readProgramWords (word :: rest) scan = scan.read .program word >>= readProgramWords rest := by
  conv => lhs; unfold readProgramWords
  simp only [h.1, if_neg h.2]
  cases scan.atCommand <;> rfl

/-- So is any word where a command can no longer stand. -/
theorem readProgramWords_of_text (h : scan.atCommand = false) (word : String) (rest : List String) :
    readProgramWords (word :: rest) scan = scan.read .program word >>= readProgramWords rest := by
  conv => lhs; unfold readProgramWords
  simp only [h]

/-- No word of an entry is taken for the name of a command. -/
theorem readProgramWords_words (hfits : entry.Fits .program) (hescaped : scan.escaped = false)
    (rest : List String) : readProgramWords (entry.words ++ rest) scan =
      scan.readAll .program entry.words >>= readProgramWords rest := by
  obtain ⟨p, text, attached⟩ := entry
  obtain ⟨hmem, hvalue, -⟩ := hfits
  have hpositional := isPositional_of_shared p hmem
  simp only [Entry.words, hpositional, Bool.false_eq_true, if_false]
  cases attached with
  | true =>
    simp only [if_true, List.singleton_append]
    rw [readProgramWords_of_not_command (not_command_optionWord p text), Scan.readAll, List.foldlM_cons,
      bind_assoc]
    rfl
  | false =>
    simp only [Bool.false_eq_true, if_false, List.cons_append, List.nil_append]
    rw [readProgramWords_of_not_command (not_command_words p), Scan.readAll, List.foldlM_cons, bind_assoc,
      Scan.read_words hescaped (option?_words p hmem hpositional) hvalue]
    cases scan.settle with
    | error usage => rfl
    | ok settled =>
      have hwaits : ({ settled with pending := some (p, none) } : Scan).atCommand = false := by
        unfold Scan.atCommand
        exact Bool.and_false _
      change readProgramWords (text :: rest) { settled with pending := some (p, none) } =
        Scan.readAll .program [text] { settled with pending := some (p, none) } >>= readProgramWords rest
      rw [readProgramWords_of_text hwaits, Scan.readAll, List.foldlM_cons, bind_assoc]
      rfl

/-- No words of entries are. -/
theorem readProgramWords_entries (hfits : ∀ entry ∈ entries, entry.Fits .program)
    (hready : scan.Ready (entries.flatMap Entry.order)) (rest : List String) :
    readProgramWords (entries.flatMap Entry.words ++ rest) scan =
      scan.readAll .program (entries.flatMap Entry.words) >>= readProgramWords rest := by
  induction entries generalizing scan with
  | nil => rfl
  | cons entry entries ih =>
    rw [List.forall_mem_cons] at hfits
    have hentry := Scan.stands_words hfits.1 hready
    rw [Scan.readAll_cons, List.flatMap_cons, List.append_assoc, readProgramWords_words hfits.1 hready.escaped]
    cases hread : scan.readAll .program entry.words with
    | error usage => rfl
    | ok next =>
      rw [hread] at hentry
      exact ih hfits.2 hentry.1

/-- The name of a command is read back from its text. -/
theorem ofText?_text (name : CommandName) : CommandName.ofText? name.text = some name := by
  cases name <;> decide

/-- The name of a command is taken for it where an entry may start. -/
theorem readProgramWords_text {coming : List Parameter} (hready : scan.Ready coming) (name : CommandName)
    (rest : List String) : readProgramWords (name.text :: rest) scan = .ok (scan, some (name, rest)) := by
  obtain ⟨hescaped, hpending, -⟩ := hready
  have hat : scan.atCommand = true := by
    unfold Scan.atCommand
    rw [hescaped]
    simp only [Bool.not_false, Bool.true_and]
  unfold readProgramWords
  simp only [hat, ofText?_text]

end

/-! ## The words after it -/

/-- The words of a command are read one after the other. -/
theorem readCommandWords_eq_readAll (name : CommandName) (words : List String) (scan : Scan) :
    readCommandWords name words scan = scan.readAll (.command name) words := by
  induction words generalizing scan with
  | nil => rfl
  | cons word rest ih =>
    rw [readCommandWords, Scan.readAll, List.foldlM_cons]
    exact bind_congr ih

/-- So are those of a command and all that is checked behind them. -/
theorem readCommand_eq_readAll (name : CommandName) (environment : Environment) (words : List String) :
    readCommand name environment words = (do
      let scan ← (Scan.start (.command name)).readAll (.command name) words
      let given ← scan.finish (.command name) environment
      checkTogether name given
      return given) := by
  unfold readCommand
  simp only [readCommandWords_eq_readAll]

/-! ## What is read asks for no help -/

/-- Options that exclude each other never ask for help. -/
theorem checkTogether_ne_help (name : CommandName) (given : List Given) :
    checkTogether name given ≠ .error .help := by
  unfold checkTogether
  split <;> split <;> (try split) <;> exact nofun

namespace Arguments

variable {α : Type} (arguments : Arguments)

/-- Nor does a value that is wrong or missing. -/
theorem value_ne_help (p : Parameter) (read : String → Option α) :
    arguments.value p read ≠ .error .help := by
  unfold value
  split
  · exact nofun
  · split <;> exact nofun

/-- Nor one that has a usual value. -/
theorem valueOr_ne_help (p : Parameter) (read : String → Option α) (usual : α) :
    arguments.valueOr p read usual ≠ .error .help := by
  unfold valueOr
  split
  · exact nofun
  · exact value_ne_help arguments p read

/-- Nor the source of a key. -/
theorem keySource_ne_help : arguments.keySource ≠ .error .help := by
  unfold keySource
  split <;> exact nofun

/-- Nor what is told of a transaction. -/
theorem transaction_ne_help : arguments.transaction ≠ .error .help := by
  have hvalue {β : Type} (p : Parameter) (read : String → Option β) := value_ne_help arguments p read
  have hvalueOr {β : Type} (p : Parameter) (read : String → Option β) (usual : β) :=
    valueOr_ne_help arguments p read usual
  unfold transaction
  exact bind_ne_help (hvalueOr _ _ _) fun _ _ => bind_ne_help (hvalue _ _) fun _ _ =>
    bind_ne_help (hvalue _ _) fun _ _ => bind_ne_help (hvalueOr _ _ _) fun _ _ =>
    bind_ne_help (hvalue _ _) fun _ _ => bind_ne_help (hvalueOr _ _ _) fun _ _ =>
    bind_ne_help (hvalueOr _ _ _) fun _ _ => nofun

/-- Nor a command as a whole. -/
theorem command_ne_help (name : CommandName) : arguments.command name ≠ .error .help := by
  have hvalue {β : Type} (p : Parameter) (read : String → Option β) := value_ne_help arguments p read
  cases name with
  | new | list => exact nofun
  | importAccount => exact bind_ne_help (keySource_ne_help arguments) fun _ _ => nofun
  | exportKey | delete => exact bind_ne_help (hvalue _ _) fun _ _ => nofun
  | update | signMessage =>
    exact bind_ne_help (hvalue _ _) fun _ _ => bind_ne_help (hvalue _ _) fun _ _ => nofun
  | signTransaction =>
    exact bind_ne_help (hvalue _ _) fun _ _ => bind_ne_help (transaction_ne_help _) fun _ _ => nofun

/-- Nor what a command line means as a whole. -/
theorem invocation_ne_help (name : CommandName) : arguments.invocation name ≠ .error .help := by
  unfold invocation
  exact bind_ne_help (valueOr_ne_help arguments _ _ _) fun _ _ =>
    bind_ne_help (command_ne_help arguments name) fun _ _ => nofun

end Arguments

/-! ## Lines -/

/-- The entries before and after the name of a command. -/
structure Line where
  before : List Entry
  after : List Entry

namespace Line

/-- The words of a line. -/
def words (line : Line) (name : CommandName) : List String :=
  line.before.flatMap Entry.words ++ name.text :: line.after.flatMap Entry.words

/-- The text that is told of a parameter: the one after the name of the command, if there is one. -/
def told? (line : Line) (p : Parameter) : Option String :=
  ((line.after.find? fun entry => entry.parameter = p).or
    (line.before.find? fun entry => entry.parameter = p)).map (·.text)

/-- All entries can stand where they are. Those that are given by their order are in it. -/
structure Fits (line : Line) (name : CommandName) : Prop where
  before : ∀ entry ∈ line.before, entry.Fits .program
  after : ∀ entry ∈ line.after, entry.Fits (.command name)
  order : line.after.flatMap Entry.order <+: (Scope.command name).positionals

/-- No parameter is told twice in one place, and all texts are values. -/
structure Valued (line : Line) : Prop where
  before : (line.before.map (·.parameter)).Nodup
  after : (line.after.map (·.parameter)).Nodup
  check : ∀ entry ∈ line.before ++ line.after, entry.parameter.check entry.text = .ok ()

section
variable {line : Line} {name : CommandName} {environment : Environment}

/-- No entry before the name of a command is given by its order. -/
theorem Fits.order_before (hfits : line.Fits name) : line.before.flatMap Entry.order = [] := by
  rw [List.flatMap_eq_nil_iff]
  intro entry hentry
  rw [Entry.order, isPositional_of_shared _ (hfits.before entry hentry).mem]
  rfl

/-- The options of the program are read where they stand. -/
theorem Fits.ready_before (hfits : line.Fits name) :
    (Scan.start .program).Ready (line.before.flatMap Entry.order) := by
  rw [hfits.order_before]
  exact ⟨rfl, nofun, rfl⟩

/-- They stand in front of the command as they were given. -/
theorem Fits.stands_before (hfits : line.Fits name) :
    Scan.Stands [] ((line.before.map Entry.given).foldlM lookAt [])
      ((Scan.start .program).readAll .program (line.before.flatMap Entry.words)) :=
  Scan.stands_entries hfits.before (by rw [List.append_nil]; exact hfits.ready_before)

/-- Those behind the command stand for what was given there. -/
theorem Fits.exists_stands_after (hfits : line.Fits name) :
    ∃ coming, Scan.Stands coming ((line.after.map Entry.given).foldlM lookAt [])
      ((Scan.start (.command name)).readAll (.command name) (line.after.flatMap Entry.words)) := by
  obtain ⟨coming, hcoming⟩ := hfits.order
  exact ⟨coming, Scan.stands_entries hfits.after ⟨rfl, nofun, hcoming.symm⟩⟩

/-- The entries before the name of the command are read first, then all of the command, and then what the
environment gives before the command. -/
theorem ofWords_words (hfits : line.Fits name) :
    Invocation.ofWords (line.words name) environment = (do
      let scan ← (Scan.start .program).readAll .program (line.before.flatMap Entry.words)
      let inner ← readCommand name environment (line.after.flatMap Entry.words)
      let outer ← scan.finish .program environment
      Arguments.invocation ⟨outer, inner⟩ name) := by
  have hstands := hfits.stands_before
  unfold Invocation.ofWords words
  rw [readProgramWords_entries hfits.before hfits.ready_before]
  cases hread : (Scan.start .program).readAll .program (line.before.flatMap Entry.words) with
  | error usage => rfl
  | ok scan =>
    rw [hread] at hstands
    change (readProgramWords (name.text :: line.after.flatMap Entry.words) scan >>= _) = _
    rw [readProgramWords_text hstands.1]
    rfl

/-- The command line wins over the environment, and then the later place wins. -/
theorem text?_eq (arguments : Arguments)
    (houter : ∀ p, found? arguments.outer p = (found? (line.before.map Entry.given) p).or
      (if p ∈ Scope.shared then Scan.fromEnvironment? environment p else none))
    (hinner : ∀ p, found? arguments.inner p = (found? (line.after.map Entry.given) p).or
      (if p ∈ (Scope.command name).parameters then Scan.fromEnvironment? environment p else none))
    (p : Parameter) : arguments.text? p = (line.told? p).or
      (if p ∈ (Scope.command name).parameters then p.fromVariable?.bind environment else none) := by
  have hshared (h : p ∈ Scope.shared) : p ∈ (Scope.command name).parameters :=
    List.mem_append_right _ h
  have houter := houter p
  have hinner := hinner p
  rw [found?_map_given] at houter hinner
  unfold found? at houter hinner
  unfold Scan.fromEnvironment? at houter hinner
  unfold Arguments.text? told?
  simp only [houter, hinner]
  -- Four places may have a text: after the name, before it, and the environment for each of the two.
  generalize p.fromVariable?.bind environment = text
  by_cases hcommand : p ∈ (Scope.command name).parameters
  · by_cases hprogram : p ∈ Scope.shared <;>
    · simp only [hcommand, hprogram, if_true, if_false]
      cases line.after.find? fun entry => entry.parameter = p <;>
        cases line.before.find? fun entry => entry.parameter = p <;> cases text <;> rfl
  · have hprogram : p ∉ Scope.shared := fun h => hcommand (hshared h)
    simp only [hcommand, hprogram, if_false]
    cases line.after.find? fun entry => entry.parameter = p <;>
      cases line.before.find? fun entry => entry.parameter = p <;> rfl

/-- An entry that is found is one of the list, and of the parameter that was looked for. -/
theorem of_find? {entries : List Entry} {entry : Entry} {p : Parameter}
    (h : (entries.find? fun entry => entry.parameter = p) = some entry) :
    entry ∈ entries ∧ entry.parameter = p :=
  ⟨List.mem_of_find?_eq_some h, by simpa using List.find?_some h⟩

/-- What is told is the text of one of the entries. -/
theorem exists_of_told? {p : Parameter} {text : String} (h : line.told? p = some text) :
    ∃ entry ∈ line.before ++ line.after, entry.parameter = p ∧ entry.text = text := by
  obtain ⟨entry, hentry, htext⟩ := Option.map_eq_some_iff.1 h
  rcases Option.or_eq_some_iff.1 hentry with hafter | ⟨-, hbefore⟩
  · exact ⟨entry, List.mem_append_right _ (of_find? hafter).1, (of_find? hafter).2, htext⟩
  · exact ⟨entry, List.mem_append_left _ (of_find? hbefore).1, (of_find? hbefore).2, htext⟩

/-- What is told once after the name of the command is the text of its entry. -/
theorem told?_of_mem_after (hnodup : (line.after.map (·.parameter)).Nodup) {entry : Entry}
    (hentry : entry ∈ line.after) : line.told? entry.parameter = some entry.text := by
  have hsome : (line.after.find? fun other => other.parameter = entry.parameter).isSome = true :=
    List.find?_isSome.2 ⟨entry, hentry, decide_eq_true rfl⟩
  obtain ⟨found, hfound⟩ := Option.isSome_iff_exists.1 hsome
  obtain ⟨hmem, hsame⟩ := of_find? hfound
  have heq : found = entry := List.inj_on_of_nodup_map hnodup hmem hentry hsame
  rw [told?, hfound, heq]
  rfl

/-- Nothing is told of other parameters than those of the command. -/
theorem Fits.told?_eq_none (hfits : line.Fits name) {p : Parameter}
    (hp : p ∉ (Scope.command name).parameters) : line.told? p = none := by
  refine Option.eq_none_iff_forall_ne_some.2 fun text h => ?_
  obtain ⟨entry, hentry, rfl, -⟩ := exists_of_told? h
  rcases List.mem_append.1 hentry with hbefore | hafter
  · exact hp (List.mem_append_right _ (hfits.before entry hbefore).mem)
  · exact hp (hfits.after entry hafter).mem

/-- The entries are looked at without a failure. -/
theorem foldlM_given {entries : List Entry} (hnodup : (entries.map (·.parameter)).Nodup)
    (hcheck : ∀ entry ∈ entries, entry.parameter.check entry.text = .ok ()) :
    (entries.map Entry.given).foldlM lookAt [] = .ok (entries.map Entry.given) := by
  refine foldlM_lookAt_eq_ok_iff.2 ⟨fun _ _ => rfl, ?_, ?_, rfl⟩
  · rw [List.map_map]
    exact hnodup
  · rw [List.forall_mem_map]
    exact hcheck

/-- What a command has of its own is given after its name. -/
theorem Fits.isGiven_inner (hfits : line.Fits name) {arguments : Arguments} {p : Parameter}
    (hp : p ∉ Scope.shared)
    (houter : found? arguments.outer p = (found? (line.before.map Entry.given) p).or
      (if p ∈ Scope.shared then Scan.fromEnvironment? environment p else none)) :
    isGiven arguments.inner p = (arguments.text? p).isSome := by
  have hbefore : found? (line.before.map Entry.given) p = none := by
    rw [found?_map_given, Option.map_eq_none_iff, List.find?_eq_none]
    intro entry hentry heq
    exact hp (of_decide_eq_true heq ▸ (hfits.before entry hentry).mem)
  rw [hbefore, if_neg hp, Option.or_none] at houter
  rw [isGiven_eq]
  unfold found? at houter ⊢
  unfold Arguments.text?
  simp only [houter]
  cases arguments.inner.find? fun given => given.parameter = p <;> rfl

/-- A line whose texts are values means what it tells, with the environment for the rest. What the command has
of its own is given after its name. -/
theorem exists_arguments (hfits : line.Fits name) (hvalued : line.Valued)
    (henvironment : environment "MEOW_KEYSTORE" ≠ some "") :
    ∃ arguments : Arguments,
      (∀ p, arguments.text? p = (line.told? p).or
        (if p ∈ (Scope.command name).parameters then p.fromVariable?.bind environment else none)) ∧
      (∀ p ∉ Scope.shared, isGiven arguments.inner p = (arguments.text? p).isSome) ∧
      Invocation.ofWords (line.words name) environment = (do
        checkTogether name arguments.inner
        arguments.invocation name) := by
  have hbefore := hfits.stands_before
  obtain ⟨coming, hafter⟩ := hfits.exists_stands_after
  rw [foldlM_given hvalued.before fun entry hentry =>
    hvalued.check entry (List.mem_append_left _ hentry)] at hbefore
  rw [foldlM_given hvalued.after fun entry hentry =>
    hvalued.check entry (List.mem_append_right _ hentry)] at hafter
  obtain ⟨scan, hscan, htoldBefore⟩ := hbefore.exists_ok
  obtain ⟨met, hmet, htoldAfter⟩ := hafter.exists_ok
  obtain ⟨outer, houter, hfoundOuter⟩ := Scan.exists_finish henvironment .program htoldBefore
  obtain ⟨inner, hinner, hfoundInner⟩ := Scan.exists_finish henvironment (.command name) htoldAfter
  refine ⟨⟨outer, inner⟩, text?_eq ⟨outer, inner⟩ hfoundOuter hfoundInner,
    fun p hp => hfits.isGiven_inner hp (hfoundOuter p), ?_⟩
  have hcommand : readCommand name environment (line.after.flatMap Entry.words) = (do
      checkTogether name inner
      return inner) := by
    rw [readCommand_eq_readAll, hmet]
    change (do
      let given ← met.finish (.command name) environment
      checkTogether name given
      return given) = _
    rw [hinner]
    rfl
  rw [ofWords_words hfits, hscan, hcommand]
  change (do
    let inner ← (do
      checkTogether name inner
      return inner)
    let outer ← scan.finish .program environment
    Arguments.invocation ⟨outer, inner⟩ name) = _
  rw [houter]
  cases checkTogether name inner <;> rfl

/-- A line that means something has only texts that are values. -/
theorem check_of_ofWords (hfits : line.Fits name) {invocation : Invocation}
    (h : Invocation.ofWords (line.words name) environment = .ok invocation) :
    ∀ entry ∈ line.before ++ line.after, entry.parameter.check entry.text = .ok () := by
  have hbefore := hfits.stands_before
  obtain ⟨coming, hafter⟩ := hfits.exists_stands_after
  rw [ofWords_words hfits, readCommand_eq_readAll] at h
  obtain ⟨scan, hreadBefore, h⟩ := of_bind_eq_ok h
  obtain ⟨inner, hinner, h⟩ := of_bind_eq_ok h
  obtain ⟨met, hreadAfter, hinner⟩ := of_bind_eq_ok hinner
  obtain ⟨_, hfinishAfter, -⟩ := of_bind_eq_ok hinner
  obtain ⟨_, hfinishBefore, -⟩ := of_bind_eq_ok h
  rw [hreadBefore] at hbefore
  rw [hreadAfter] at hafter
  obtain ⟨outer, houter⟩ := Scan.exists_told_of_finish hfinishBefore
  obtain ⟨given, hgiven⟩ := Scan.exists_told_of_finish hfinishAfter
  obtain ⟨-, -, hcheckBefore, -⟩ := foldlM_lookAt_eq_ok_iff.1 (hbefore.2.symm.trans houter)
  obtain ⟨-, -, hcheckAfter, -⟩ := foldlM_lookAt_eq_ok_iff.1 (hafter.2.symm.trans hgiven)
  rw [List.forall_mem_map] at hcheckBefore hcheckAfter
  exact List.forall_mem_append.2 ⟨hcheckBefore, hcheckAfter⟩

/-- No line asks for help. -/
theorem ofWords_ne_help (hfits : line.Fits name) :
    Invocation.ofWords (line.words name) environment ≠ .error .help := by
  have hbefore := hfits.stands_before
  obtain ⟨coming, hafter⟩ := hfits.exists_stands_after
  have hlookBefore := foldlM_lookAt_ne_help [] (line.before.map Entry.given)
  have hlookAfter := foldlM_lookAt_ne_help [] (line.after.map Entry.given)
  rw [ofWords_words hfits, readCommand_eq_readAll]
  refine bind_ne_help (hbefore.ne_help hlookBefore) fun scan hscan => ?_
  rw [hscan] at hbefore
  refine bind_ne_help (bind_ne_help (hafter.ne_help hlookAfter) fun met hmet => ?_) fun inner _ => ?_
  · rw [hmet] at hafter
    refine bind_ne_help (Scan.finish_ne_help _ _ ?_) fun given _ => ?_
    · rw [hafter.2]
      exact hlookAfter
    · exact bind_ne_help (checkTogether_ne_help name given) fun _ _ => nofun
  · refine bind_ne_help (Scan.finish_ne_help _ _ ?_) fun outer _ =>
      Arguments.invocation_ne_help ⟨outer, inner⟩ name
    rw [hbefore.2]
    exact hlookBefore

end

end Line

end Keyring.Cli
