import Keyring.Cli.Program
import Keyring.Proofs.Storage.Opening

/-!
# The calls that commands stand for

A command stands for one call of a manager (`Command.call?`), unless the password that it needs is not
given, or its message is said to be hexadecimal and is not. Carrying it out makes this call and nothing
else: it fails exactly if the call does or answers that there is no such account, leaves what the call
leaves, and prints one thing more if it succeeds (`runCommand_of_call`). Without a call it fails and
leaves everything as it is (`runCommand_of_none`).
-/

namespace Keyring

/-- The answer of a call that did what it was meant to do. -/
def Answer.succeeds : Answer → Bool
  | .told done => done
  | .exported key => key.isSome
  | _ => true

namespace Cli

/-! ## Steps -/

namespace Step

variable {α : Type} {progress : Progress}

/-- What the step prints at the end if it succeeds, `before` which it prints something in any case, and the
session that it leaves. -/
structure Prints (step : Step Unit) (progress : Progress) (session : Session Disk) (before : List Output)
    (output : Option Output) : Prop where
  isOk_eq : (answer step progress).isOk = output.isSome
  leaves_eq : leaves step progress = ⟨session, progress.output ++ before ++ output.toList⟩

/-- A step of the manager answers what the manager does, and tells its errors as failures. -/
theorem answer_manage (action : SessionAction Disk α) (progress : Progress) :
    answer (manage action) progress = (answer action progress.session).mapError .ofAccountError := by
  unfold answer manage
  cases action progress.session <;> rfl

/-- A step of the manager prints nothing. -/
theorem leaves_manage (action : SessionAction Disk α) (progress : Progress) :
    leaves (manage action) progress = ⟨leaves action progress.session, progress.output⟩ := by
  unfold leaves manage
  cases action progress.session <;> rfl

/-- A failure that is told in other words answers the same value. -/
theorem answer_orElse (step : Step α) (message : String) (progress : Progress) :
    answer (step.orElse message) progress = (answer step progress).mapError (·.wrap message) := by
  unfold answer orElse
  cases step progress <;> rfl

/-- And leaves the same. -/
theorem leaves_orElse (step : Step α) (message : String) (progress : Progress) :
    leaves (step.orElse message) progress = leaves step progress := by
  unfold leaves orElse
  cases step progress <;> rfl

/-- The step makes a call of a manager, whose failures it may tell in other words. -/
structure Makes (step : Step α) (action : SessionAction Disk α) : Prop where
  toOption_eq : ∀ progress,
    (answer step progress).toOption = (answer action progress.session).toOption
  leaves_eq : ∀ progress, leaves step progress = ⟨leaves action progress.session, progress.output⟩

/-- Telling errors in other words keeps the value that there is. -/
theorem toOption_mapError {ε ε' : Type} (x : Except ε α) (f : ε → ε') :
    (x.mapError f).toOption = x.toOption := by
  cases x <;> rfl

/-- A step of the manager makes the call. -/
theorem makes_manage (action : SessionAction Disk α) : Makes (manage action) action where
  toOption_eq progress := by rw [answer_manage, toOption_mapError]
  leaves_eq := leaves_manage action

/-- So does one whose failures are told in other words. -/
theorem Makes.orElse {step : Step α} {action : SessionAction Disk α} (h : Makes step action)
    (message : String) : Makes (step.orElse message) action where
  toOption_eq progress := by rw [answer_orElse, toOption_mapError, h.toOption_eq]
  leaves_eq progress := by rw [leaves_orElse, h.leaves_eq]

/-- What a step prints depends on what it does from there only. -/
theorem Prints.congr {step : Step Unit} (step' : Step Unit) {session : Session Disk}
    {before : List Output} {output : Option Output} (hsame : step progress = step' progress)
    (h : Prints step' progress session before output) : Prints step progress session before output := by
  obtain ⟨hok, hleaves⟩ := h
  constructor
  · rw [answer, hsame]
    exact hok
  · rw [leaves, hsame]
    exact hleaves

/-- Printing prints one thing at the end. -/
theorem prints_print (output : Output) (progress : Progress) :
    Prints (print output) progress progress.session [] (some output) :=
  ⟨rfl, by rw [List.append_nil]; rfl⟩

/-- A failure prints nothing. -/
theorem prints_throw (failure : Failure) (progress : Progress) :
    Prints (throw failure) progress progress.session [] none :=
  ⟨rfl, by rw [List.append_nil, Option.toList_none, List.append_nil]; rfl⟩

/-- A call, and then something that is printed for its answer, or a failure. -/
theorem Makes.prints {step : Step α} {action : SessionAction Disk α} (h : Makes step action)
    {next : α → Step Unit} {output? : α → Option Output}
    (hnext : ∀ a progress, Prints (next a) progress progress.session [] (output? a)) (progress : Progress) :
    Prints (step >>= next) progress (leaves action progress.session) []
      ((answer action progress.session).toOption.bind output?) := by
  have htoOption := h.toOption_eq progress
  cases hstep : answer step progress with
  | error failure =>
    rw [hstep] at htoOption
    rw [← htoOption]
    refine ⟨by rw [answer_bind_error hstep]; rfl, ?_⟩
    rw [leaves_bind_error hstep, h.leaves_eq, List.append_nil]
    exact congrArg _ (List.append_nil _).symm
  | ok a =>
    rw [hstep] at htoOption
    rw [← htoOption]
    obtain ⟨hok, hleaves⟩ := hnext a (leaves step progress)
    refine ⟨by rw [answer_bind_ok hstep]; exact hok, ?_⟩
    rw [leaves_bind_ok hstep, hleaves, h.leaves_eq]
    rfl

/-- Something that is printed first stays printed. -/
theorem Prints.after_print {step : Step Unit} {session : Session Disk} {first : Output}
    {output : Option Output}
    (h : ∀ progress', progress'.session = progress.session → Prints step progress' session [] output) :
    Prints (print first >>= fun _ => step) progress session [first] output := by
  have hfirst : answer (print first) progress = .ok () := rfl
  obtain ⟨hok, hleaves⟩ := h ⟨progress.session, progress.output ++ [first]⟩ rfl
  refine ⟨by rw [answer_bind_ok hfirst]; exact hok, ?_⟩
  rw [leaves_bind_ok hfirst]
  exact hleaves.trans (by rw [List.append_nil])

end Step

/-! ## Commands and their calls -/

/-- The bytes of a message: those that the digits after `0x` stand for, or else those of the text. -/
def messageOf? (text : String) : Option Bytes :=
  if text.toList.take 2 = ['0', 'x'] then Hex.decode? (text.toList.drop 2) else some (Utf8.encode text)

/-- A message is read as the bytes that it stands for, or refused. -/
theorem toOption_readMessage (text : String) : (readMessage text).toOption = messageOf? text := by
  unfold readMessage messageOf?
  split
  · next digits htext =>
    have htake : text.toList.take 2 = ['0', 'x'] := by rw [htext]; rfl
    have hdrop : text.toList.drop 2 = digits := by rw [htext]; rfl
    rw [if_pos htake, hdrop, Hex.decode]
    cases Hex.decode? digits with
    | some bytes => rfl
    | none =>
      simp only
      split
      · next hodd => split at hodd <;> cases hodd
      · rfl
  · next hother =>
    rw [if_neg]
    · rfl
    · intro htake
      refine hother (text.toList.drop 2) ?_
      rw [← List.take_append_drop 2 text.toList, htake]
      simp

namespace Command

/-- The command needs a password, whatever there is. -/
def needsPassword : Command → Bool
  | new | importAccount .. | exportKey _ | update .. => true
  | _ => false

/-- The call that a command stands for. There is none if the password that it needs is not given or empty,
or if the message is no hexadecimal text though it starts as one. -/
def call? (random : Randomness) (disk : Disk) (password : Option String) : Command → Option Call
  | new => (password.filter (· ≠ "")).map fun given => .create random.key given random.fresh
  | list => some .list
  | importAccount (.file path) newPassword => (password.filter (· ≠ "")).map fun given =>
    .importFile disk path given (newPassword.getD given) random.fresh
  | importAccount (.secret secret) newPassword => (password.filter (· ≠ "")).map fun given =>
    .importSecret secret (newPassword.getD given) random.fresh
  | exportKey address => (password.filter (· ≠ "")).map fun given => .exportKey address given
  | update address newPassword => (password.filter (· ≠ "")).map fun given =>
    .update address given newPassword random.fresh
  | delete address => some (.delete address)
  | signMessage address text raw => (messageOf? text).map fun message =>
    .signMessage address password message !raw
  | signTransaction sender tx => some (.signTransaction sender password (.legacy tx))

/-- What a command prints before it makes its call. -/
def heading (directory : Path) : Command → List Output
  | list => [.keystore directory]
  | _ => []

/-- What a command prints for the answer of its call, if it takes that for a success. -/
def printed? : Command → Answer → Option Output
  | new, .created address => some (.created address)
  | list, .addresses addresses => some (if addresses.isEmpty then .noAccounts else .accounts addresses)
  | importAccount .., .imported (some address) => some (.imported address)
  | importAccount .., .imported none => some .alreadyManaged
  | exportKey address, .exported (some key) => some (.exported address key.secretText)
  | update address _, .told true => some (.updated address)
  | delete address, .told true => some (.deleted address)
  | signMessage .., .signedMessage text => some (.line text)
  | signTransaction .., .signedTransaction bytes => some (.line ("0x" ++ Hex.text bytes))
  | _, _ => none

end Command

section

open Step Command

variable {manager : Manager Disk} {random : Randomness} {password : Option String} {progress : Progress}

/-- A value that is there is the answer. -/
theorem eq_ok_of_toOption {ε α : Type} {x : Except ε α} {a : α} (h : x.toOption = some a) :
    x = .ok a := by
  cases x with
  | error e => cases h
  | ok b => cases h; rfl

/-- What a call answers, in the words of one of its operations. -/
theorem toOption_bind_map {α : Type} (operation : SessionAction Disk α) (session : Session Disk)
    (f : α → Answer) (output? : Answer → Option Output) :
    (answer (f <$> operation : SessionAction Disk Answer) session).toOption.bind output? =
      (answer operation session).toOption.bind fun a => output? (f a) := by
  rw [answer_map]
  cases answer operation session <;> rfl

/-- A command whose call is one operation of the manager, followed by what is printed for its answer. -/
theorem prints_perform {α : Type} {step : Step α} {operation : SessionAction Disk α}
    (hstep : Makes step operation) {call : Call} {f : α → Answer}
    (hcall : manager.perform 0 call = f <$> operation) {command : Command} {next : α → Step Unit}
    (hnext : ∀ a progress, Prints (next a) progress progress.session [] (command.printed? (f a)))
    (progress : Progress) :
    Prints (step >>= next) progress (leaves (manager.perform 0 call) progress.session) []
      ((answer (manager.perform 0 call) progress.session).toOption.bind command.printed?) := by
  rw [hcall, leaves_map, toOption_bind_map]
  exact hstep.prints hnext progress

/-- A command with a call makes it, and prints what belongs to its answer. -/
theorem runCommand_of_call {command : Command} {call : Call}
    (hcall : command.call? random progress.session.traced.files password = some call) :
    Prints (runCommand manager password random command) progress
      (leaves (manager.perform 0 call) progress.session) (command.heading manager.directory)
      ((answer (manager.perform 0 call) progress.session).toOption.bind command.printed?) := by
  cases command with
  | new =>
    obtain ⟨given, hgiven, rfl⟩ := Option.map_eq_some_iff.1 hcall
    unfold runCommand runNew requirePassword
    rw [hgiven]
    refine prints_perform ((makes_manage _).orElse _) rfl (fun address progress => ?_) progress
    exact prints_print _ progress
  | list =>
    cases hcall
    unfold runCommand runList
    refine Prints.after_print fun progress' hsession => ?_
    rw [← hsession]
    refine prints_perform ((makes_manage _).orElse _) rfl (fun addresses progress => ?_) progress'
    exact prints_print _ progress
  | importAccount source newPassword =>
    cases source with
    | file path =>
      obtain ⟨given, hgiven, rfl⟩ := Option.map_eq_some_iff.1 hcall
      unfold runCommand runImport requirePassword
      rw [hgiven]
      -- The file is looked for on the disk as it is then.
      refine Prints.congr ((manage (manager.importFile progress.session.traced.files path given
        (newPassword.getD given) random.fresh)).orElse _ >>= _) rfl ?_
      refine prints_perform ((makes_manage _).orElse _) rfl (fun imported progress => ?_) progress
      cases imported <;> exact prints_print _ progress
    | secret secret =>
      obtain ⟨given, hgiven, rfl⟩ := Option.map_eq_some_iff.1 hcall
      unfold runCommand runImport requirePassword
      rw [hgiven]
      refine prints_perform ((makes_manage _).orElse _) rfl (fun imported progress => ?_) progress
      cases imported <;> exact prints_print _ progress
  | exportKey address =>
    obtain ⟨given, hgiven, rfl⟩ := Option.map_eq_some_iff.1 hcall
    unfold runCommand runExport requirePassword
    rw [hgiven]
    refine prints_perform ((makes_manage _).orElse _) rfl (fun key progress => ?_) progress
    cases key with
    | some key => exact prints_print _ progress
    | none => exact prints_throw _ progress
  | update address newPassword =>
    obtain ⟨given, hgiven, rfl⟩ := Option.map_eq_some_iff.1 hcall
    unfold runCommand runUpdate requirePassword
    rw [hgiven]
    refine prints_perform (makes_manage _) rfl (fun told progress => ?_) progress
    cases told with
    | true => exact prints_print _ progress
    | false => exact prints_throw _ progress
  | delete address =>
    cases hcall
    unfold runCommand runDelete
    refine prints_perform (makes_manage _) rfl (fun told progress => ?_) progress
    cases told with
    | true => exact prints_print _ progress
    | false => exact prints_throw _ progress
  | signMessage address text raw =>
    obtain ⟨message, hmessage, rfl⟩ := Option.map_eq_some_iff.1 hcall
    rw [runCommand, runSignMessage, eq_ok_of_toOption ((toOption_readMessage text).trans hmessage)]
    refine prints_perform ((makes_manage _).orElse _) rfl (fun sig progress => ?_) progress
    exact prints_print _ progress
  | signTransaction sender tx =>
    cases hcall
    unfold runCommand runSignTransaction
    refine prints_perform ((makes_manage _).orElse _) rfl (fun bytes progress => ?_) progress
    exact prints_print _ progress

/-- A command without a call fails before it does anything. -/
theorem runCommand_of_none {command : Command}
    (hcall : command.call? random progress.session.traced.files password = none) :
    Prints (runCommand manager password random command) progress progress.session [] none := by
  -- A password is required before anything else is done.
  have hrequired {next : String → Step Unit} (hgiven : password.filter (· ≠ "") = none) :
      Prints (requirePassword password >>= next) progress progress.session [] none := by
    unfold requirePassword
    rw [hgiven]
    exact Prints.congr _ rfl (prints_throw _ progress)
  cases command with
  | new => exact hrequired (Option.map_eq_none_iff.1 hcall)
  | importAccount source newPassword =>
    cases source <;> exact hrequired (Option.map_eq_none_iff.1 hcall)
  | exportKey address => exact hrequired (Option.map_eq_none_iff.1 hcall)
  | update address newPassword => exact hrequired (Option.map_eq_none_iff.1 hcall)
  | list | delete | signTransaction => cases hcall
  | signMessage address text raw =>
    have hmessage := (toOption_readMessage text).trans (Option.map_eq_none_iff.1 hcall)
    rw [runCommand, runSignMessage]
    cases hread : readMessage text with
    | error failure => exact prints_throw failure progress
    | ok message => rw [hread] at hmessage; cases hmessage

end

end Cli

end Keyring
