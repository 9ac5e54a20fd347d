import Keyring.Proofs.Cli.Words

/-!
# Entries of a command line

An entry is a parameter with its text. The value of an entry is looked at when the next thing is met, so
reading is late by one entry. What is told once it catches up (`Scan.told`) is what looking at the entries one
after the other tells, whatever form they have: `Scan.stands_words` for one of them, and
`Scan.stands_entries` for all. They are looked at without a failure exactly if each parameter is given once
and each text is a value (`foldlM_lookAt_eq_ok_iff`), and none asks for help.
-/

namespace Keyring.Cli

/-! ## Looking at what is given -/

/-- What is given of a parameter. -/
def found? (given : List Given) (p : Parameter) : Option Given :=
  given.find? fun g => g.parameter = p

/-- What is given after one more is looked at. -/
def lookAt (given : List Given) (next : Given) : Except Usage (List Given) :=
  if isGiven given next.parameter then .error (.conflict next.parameter)
  else (next.parameter.check next.text).map fun _ => given ++ [next]

section
variable {given all nexts : List Given} {next : Given} {p : Parameter}

/-- A parameter is given exactly if an entry for it is found. -/
theorem isGiven_eq (given : List Given) (p : Parameter) : isGiven given p = (found? given p).isSome := by
  rw [found?, List.isSome_find?]
  rfl

/-- One more entry gives its own parameter besides. -/
theorem isGiven_concat (given : List Given) (next : Given) (p : Parameter) :
    isGiven (given ++ [next]) p = (isGiven given p || decide (next.parameter = p)) := by
  simp [isGiven]

/-- An entry for a parameter is the first one that was given. -/
theorem found?_concat (given : List Given) (next : Given) (p : Parameter) :
    found? (given ++ [next]) p = (found? given p).or (if next.parameter = p then some next else none) := by
  simp only [found?, List.find?_append, List.find?_singleton, decide_eq_true_eq]

/-- An entry is taken exactly if its parameter is new and its text is accepted. -/
theorem lookAt_eq_ok_iff : lookAt given next = .ok all ↔
    isGiven given next.parameter = false ∧ next.parameter.check next.text = .ok () ∧
      all = given ++ [next] := by
  unfold lookAt
  cases isGiven given next.parameter with
  | true => simp
  | false =>
    cases next.parameter.check next.text with
    | error usage => simp [Except.map]
    | ok =>
      simp only [Except.map, Except.ok.injEq, Bool.false_eq_true, if_false, true_and]
      exact eq_comm

/-- All that is looked at is given once, with a text that is a value. -/
theorem foldlM_lookAt_eq_ok_iff : nexts.foldlM lookAt given = .ok all ↔
    (∀ next ∈ nexts, isGiven given next.parameter = false) ∧ (nexts.map (·.parameter)).Nodup ∧
      (∀ next ∈ nexts, next.parameter.check next.text = .ok ()) ∧ all = given ++ nexts := by
  induction nexts generalizing given with
  | nil =>
    simp only [List.foldlM_nil, pure, Except.pure, Except.ok.injEq, List.not_mem_nil, false_implies,
      implies_true, List.map_nil, List.nodup_nil, true_and, List.append_nil]
    exact eq_comm
  | cons next nexts ih =>
    have hstep : (next :: nexts).foldlM lookAt given = .ok all ↔
        ∃ met, lookAt given next = .ok met ∧ nexts.foldlM lookAt met = .ok all := by
      rw [List.foldlM_cons]
      cases lookAt given next with
      | error usage => exact ⟨nofun, nofun⟩
      | ok met => simp [bind, Except.bind]
    simp only [hstep, lookAt_eq_ok_iff, ih]
    constructor
    · rintro ⟨met, ⟨hnew, hcheck, rfl⟩, hmet, hnodup, hchecks, rfl⟩
      simp only [isGiven_concat, Bool.or_eq_false_iff, decide_eq_false_iff_not] at hmet
      refine ⟨?_, ?_, ?_, List.append_assoc given [next] nexts⟩
      · exact List.forall_mem_cons.2 ⟨hnew, fun other hother => (hmet other hother).1⟩
      · rw [List.map_cons, List.nodup_cons, List.mem_map]
        exact ⟨fun ⟨other, hother, heq⟩ => (hmet other hother).2 heq.symm, hnodup⟩
      · exact List.forall_mem_cons.2 ⟨hcheck, hchecks⟩
    · rintro ⟨hnew, hnodup, hchecks, rfl⟩
      rw [List.map_cons, List.nodup_cons, List.mem_map] at hnodup
      rw [List.forall_mem_cons] at hnew hchecks
      refine ⟨given ++ [next], ⟨hnew.1, hchecks.1, rfl⟩, fun other hother => ?_, hnodup.2, hchecks.2,
        (List.append_assoc given [next] nexts).symm⟩
      rw [isGiven_concat, hnew.2 other hother, Bool.false_or, decide_eq_false_iff_not]
      exact fun heq => hnodup.1 ⟨other, hother, heq.symm⟩

end

/-! ## Help is not asked for -/

section
variable {α β : Type}

/-- A chain asks for help only if one of its steps does. -/
theorem bind_ne_help {x : Except Usage α} {f : α → Except Usage β} (hx : x ≠ .error .help)
    (hf : ∀ a, x = .ok a → f a ≠ .error .help) : x >>= f ≠ .error .help := by
  cases x with
  | error usage => exact fun h => hx (by cases h; rfl)
  | ok a => exact hf a rfl

/-- No text of a value asks for help. -/
theorem check_ne_help (p : Parameter) (text : String) : p.check text ≠ .error .help := by
  have hrequire (isValue : Bool) :
      (if isValue then .ok () else .error (.badValue p) : Except Usage Unit) ≠ .error .help := by
    cases isValue <;> exact nofun
  cases p with
  | keystore | keyfile =>
    change (if text = "" then _ else _ : Except Usage Unit) ≠ _
    split <;> exact nofun
  | password | message | raw | privateKey | newPassword => exact nofun
  | kdfIterations | address | recipient | nonce | gasLimit | chainId | gasPrice | value | data =>
    exact hrequire _

/-- Looking at an entry never asks for help. -/
theorem lookAt_ne_help (given : List Given) (next : Given) : lookAt given next ≠ .error .help := by
  unfold lookAt
  split
  · exact nofun
  · cases hcheck : next.parameter.check next.text with
    | error usage => exact fun h => check_ne_help _ _ (hcheck.trans (by cases h; rfl))
    | ok => exact nofun

/-- Nor does looking at all of them. -/
theorem foldlM_lookAt_ne_help (given nexts : List Given) : nexts.foldlM lookAt given ≠ .error .help := by
  induction nexts generalizing given with
  | nil => exact nofun
  | cons next nexts ih =>
    rw [List.foldlM_cons]
    exact bind_ne_help (lookAt_ne_help given next) fun met _ => ih met

end

/-! ## Entries -/

/-- A parameter on the command line, and its text. -/
structure Entry where
  parameter : Parameter
  text : String
  /-- The text of an option stands after an equals sign, and not in the next word. -/
  attached : Bool

namespace Entry

/-- The words of an entry. -/
def words (entry : Entry) : List String :=
  if entry.parameter.isPositional then [entry.text]
  else if entry.attached then [optionWord entry.parameter entry.text]
  else ["--" ++ entry.parameter.words, entry.text]

/-- What an entry gives. -/
def given (entry : Entry) : Given :=
  ⟨entry.parameter, entry.text, .commandLine⟩

/-- The parameter, if it is given by its order. -/
def order (entry : Entry) : List Parameter :=
  if entry.parameter.isPositional then [entry.parameter] else []

/-- The entry can stand in the scope. A text in a word of its own does not look like an option. -/
structure Fits (scope : Scope) (entry : Entry) : Prop where
  mem : entry.parameter ∈ scope.parameters
  takesValue : entry.parameter.takesValue = true
  plain : entry.parameter.isPositional = true ∨ entry.attached = false → Word.ofText entry.text = .plain

end Entry

/-- What is found among entries is what is found among what they give. -/
theorem found?_map_given (entries : List Entry) (p : Parameter) :
    found? (entries.map Entry.given) p =
      (entries.find? fun entry => entry.parameter = p).map Entry.given := by
  rw [found?, List.find?_map]
  rfl

/-- An option is found by its words wherever it may stand. -/
theorem option?_words {scope : Scope} : ∀ p ∈ scope.parameters, p.isPositional = false →
    scope.option? p.words = some p := by
  cases scope with
  | program => decide
  | command name => cases name <;> decide

/-- The parameters of the program are options. -/
theorem isPositional_of_shared : ∀ p ∈ Scope.shared, p.isPositional = false := by
  decide

/-- Two dashes and the name of an option, whose text is not there. -/
theorem ofText_words (p : Parameter) : Word.ofText ("--" ++ p.words) = .long p.words none := by
  cases p <;> rfl

/-- The word of an option is the name of no command. -/
theorem not_command_words (p : Parameter) :
    CommandName.ofText? ("--" ++ p.words) = none ∧ "--" ++ p.words ≠ "help" := by
  cases p <;> decide

/-! ## Reading entries -/

namespace Scan

/-- Reads words one after the other. -/
def readAll (scope : Scope) (words : List String) (scan : Scan) : Except Usage Scan :=
  words.foldlM (read scope) scan

/-- What is given once all that was met is looked at. -/
def told (scan : Scan) : Except Usage (List Given) :=
  scan.settle.map (·.given)

/-- The next word starts an entry, and the parameters by order are still to come. -/
structure Ready (scan : Scan) (coming : List Parameter) : Prop where
  escaped : scan.escaped = false
  pending : ∀ p, scan.pending ≠ some (p, none)
  positionals : scan.positionals = coming

/-- Reading fails as what should be told does, or it gets ready with what should be told. -/
def Stands (coming : List Parameter) (told : Except Usage (List Given)) : Except Usage Scan → Prop
  | .error usage => told = .error usage
  | .ok scan => scan.Ready coming ∧ scan.told = told

/-- What stands for a scan asks for help only if what is told does. -/
theorem Stands.ne_help {coming : List Parameter} {told : Except Usage (List Given)}
    {result : Except Usage Scan} (h : Stands coming told result) (htold : told ≠ .error .help) :
    result ≠ .error .help := by
  rintro rfl
  exact htold h

/-- What is told without a failure is read without one. -/
theorem Stands.exists_ok {coming : List Parameter} {given : List Given} {result : Except Usage Scan}
    (h : Stands coming (.ok given) result) : ∃ scan, result = .ok scan ∧ scan.told = .ok given := by
  cases result with
  | error usage => cases h
  | ok scan => exact ⟨scan, rfl, h.2⟩

section
variable {scope : Scope} {scan settled : Scan} {coming : List Parameter} {entry : Entry}
  {entries : List Entry}

/-- Adding an entry to a scan is looking at it. -/
theorem add_eq_lookAt (scan : Scan) (p : Parameter) (text : String) (source : Source) :
    scan.add p text source =
      (lookAt scan.given ⟨p, text, source⟩).map fun given => { scan with given := given } := by
  unfold add lookAt
  change (if isGiven scan.given p = true then _ else _ : Except Usage Scan) = _
  cases isGiven scan.given p with
  | true => rfl
  | false => cases p.check text <;> rfl

/-- Only what is given and what is met changes. -/
theorem of_settle (h : scan.settle = .ok settled) :
    settled.pending = none ∧ settled.escaped = scan.escaped ∧ settled.positionals = scan.positionals := by
  obtain ⟨given, pending, positionals, escaped⟩ := scan
  cases pending with
  | none => cases h; exact ⟨rfl, rfl, rfl⟩
  | some met =>
    obtain ⟨p, text⟩ := met
    cases text with
    | none => cases h
    | some text =>
      unfold settle at h
      simp only [add_eq_lookAt] at h
      cases hlook : lookAt given ⟨p, text, .commandLine⟩ with
      | error usage => rw [hlook] at h; cases h
      | ok all => rw [hlook] at h; cases h; exact ⟨rfl, rfl, rfl⟩

/-- What was met last is looked at. -/
theorem told_pending (given : List Given) (p : Parameter) (text : String) (coming : List Parameter)
    (escaped : Bool) : (⟨given, some (p, some text), coming, escaped⟩ : Scan).told =
      lookAt given ⟨p, text, .commandLine⟩ := by
  unfold told settle
  simp only [add_eq_lookAt]
  cases lookAt given ⟨p, text, .commandLine⟩ <;> rfl

/-- An option whose text is still to come. -/
theorem read_words {p : Parameter} (hescaped : scan.escaped = false)
    (hscope : scope.option? p.words = some p) (hvalue : p.takesValue = true) :
    scan.read scope ("--" ++ p.words) =
      scan.settle.map fun scan => { scan with pending := some (p, none) } := by
  unfold read readOption
  simp only [hescaped, ofText_words, hscope, hvalue, Bool.false_eq_true, if_false]
  cases scan.settle <;> rfl

/-- The text of an option in a word of its own. -/
theorem read_text {p : Parameter} {text : String} (hescaped : scan.escaped = false)
    (hpending : scan.pending = some (p, none)) (hplain : Word.ofText text = .plain) :
    scan.read scope text = .ok { scan with pending := some (p, some text) } := by
  unfold read
  simp only [hescaped, hplain, hpending, Bool.false_eq_true, if_false]

/-- A plain word that is the next parameter by order. -/
theorem read_order {p : Parameter} {text : String} (hready : scan.Ready (p :: coming))
    (hplain : Word.ofText text = .plain) : scan.read scope text =
      scan.settle.map fun scan => { scan with pending := some (p, some text), positionals := coming } := by
  obtain ⟨hescaped, hpending, hpositionals⟩ := hready
  have hread : scan.read scope text = scan.readPositional scope text := by
    unfold read
    simp only [hescaped, hplain, Bool.false_eq_true, if_false]
  rw [hread, readPositional, hpositionals]
  simp only
  cases scan.settle <;> rfl

/-- The words of an entry look at it. -/
theorem stands_words (hfits : entry.Fits scope) (hready : scan.Ready (entry.order ++ coming)) :
    Stands coming (scan.told >>= (lookAt · entry.given)) (scan.readAll scope entry.words) := by
  obtain ⟨p, text, attached⟩ := entry
  obtain ⟨hmem, hvalue, hplain⟩ := hfits
  have hescaped := hready.escaped
  simp only at hmem hvalue hplain
  unfold told
  cases hpositional : p.isPositional with
  | true =>
    simp only [Entry.order, Entry.words, hpositional, if_true, List.singleton_append] at hready ⊢
    rw [readAll, List.foldlM_cons, read_order hready (hplain (.inl hpositional))]
    cases hsettle : scan.settle with
    | error usage => exact rfl
    | ok settled =>
      obtain ⟨-, hsame, -⟩ := of_settle hsettle
      exact ⟨⟨hsame.trans hescaped, nofun, rfl⟩, told_pending ..⟩
  | false =>
    simp only [Entry.order, Entry.words, hpositional, Bool.false_eq_true, if_false, List.nil_append]
      at hready ⊢
    have hscope := option?_words p hmem hpositional
    cases attached with
    | true =>
      -- The word has the text in it, so the entry is looked at now and nothing stays pending.
      simp only [if_true]
      rw [readAll, List.foldlM_cons, read_optionWord hescaped hscope hvalue]
      cases hsettle : scan.settle with
      | error usage => exact rfl
      | ok settled =>
        obtain ⟨hnone, hsame, hcoming⟩ := of_settle hsettle
        simp only [Except.bind, add_eq_lookAt]
        change Stands coming (lookAt settled.given ⟨p, text, .commandLine⟩) _
        cases lookAt settled.given ⟨p, text, .commandLine⟩ with
        | error usage => exact rfl
        | ok given =>
          refine ⟨⟨hsame.trans hescaped, ?_, hcoming.trans hready.positionals⟩, ?_⟩
          · exact fun q hq => by rw [hnone] at hq; cases hq
          · rw [told, settle]
            simp only [hnone]
            rfl
    | false =>
      -- The second word only puts the text beside the option: the entry is looked at by `told`.
      simp only [Bool.false_eq_true, if_false]
      rw [readAll, List.foldlM_cons, read_words hescaped hscope hvalue]
      cases hsettle : scan.settle with
      | error usage => exact rfl
      | ok settled =>
        obtain ⟨-, hsame, hcoming⟩ := of_settle hsettle
        have htext : ({ settled with pending := some (p, none) } : Scan).read scope text =
            .ok { settled with pending := some (p, some text) } :=
          read_text (hsame.trans hescaped) rfl (hplain (.inr rfl))
        change Stands coming _ (readAll scope [text] { settled with pending := some (p, none) })
        rw [readAll, List.foldlM_cons, htext]
        exact ⟨⟨hsame.trans hescaped, nofun, hcoming.trans hready.positionals⟩, told_pending ..⟩

/-- The words of the first entry are read first. -/
theorem readAll_cons (scope : Scope) (entry : Entry) (entries : List Entry) (scan : Scan) :
    scan.readAll scope ((entry :: entries).flatMap Entry.words) =
      scan.readAll scope entry.words >>= readAll scope (entries.flatMap Entry.words) := by
  rw [List.flatMap_cons]
  exact List.foldlM_append

/-- The words of entries look at them one after the other. -/
theorem stands_entries (hfits : ∀ entry ∈ entries, entry.Fits scope)
    (hready : scan.Ready (entries.flatMap Entry.order ++ coming)) :
    Stands coming (scan.told >>= (entries.map Entry.given).foldlM lookAt)
      (scan.readAll scope (entries.flatMap Entry.words)) := by
  induction entries generalizing scan with
  | nil => exact ⟨hready, (bind_pure scan.told).symm⟩
  | cons entry entries ih =>
    rw [List.forall_mem_cons] at hfits
    rw [List.flatMap_cons, List.append_assoc] at hready
    have hentry := stands_words hfits.1 hready
    have htold : scan.told >>= ((entry :: entries).map Entry.given).foldlM lookAt =
        (scan.told >>= (lookAt · entry.given)) >>= (entries.map Entry.given).foldlM lookAt := by
      rw [bind_assoc]
      rfl
    rw [readAll_cons, htold]
    cases hread : scan.readAll scope entry.words with
    | error usage =>
      rw [hread] at hentry
      rw [show scan.told >>= (lookAt · entry.given) = .error usage from hentry]
      exact rfl
    | ok next =>
      rw [hread] at hentry
      obtain ⟨hnext, htold⟩ := hentry
      rw [← htold]
      exact ih hfits.2 hnext

end

end Scan

end Keyring.Cli
