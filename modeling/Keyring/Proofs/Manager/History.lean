import Keyring.Manager
import Keyring.Proofs.Storage.Effects

/-!
# Runs of a manager

A run takes one call after the other. Before each call others may change the files (`Turn.outside`),
and the clock tells the instant. Each call is recorded with what it found, its answer and what it left
(`Entry`), so that what is true of a run is said about the list of its entries.
-/

namespace Keyring

/-! ## Calls and answers -/

/-- A call of a manager's operation. -/
inductive Call where
  | create (key : KeyPair) (password : String) (fresh : Seal)
  | list
  | isManaged (address : Address)
  | delete (address : Address)
  | update (address : Address) (password newPassword : String) (fresh : Seal)
  | exportKey (address : Address) (password : String)
  | importKeyfile (content : Bytes) (password newPassword : String) (fresh : Seal)
  | importFile (disk : Disk) (path : Path) (password newPassword : String) (fresh : Seal)
  | importSecret (secret password : String) (fresh : Seal)
  | unlock (address : Address) (password : String) (timeout : Option Duration)
  | lock (address : Address)
  | isUnlocked (address : Address)
  | unlockedAccounts
  | purgeExpired
  | resolveKey (address : Address) (password : Option String)
  | signMessage (address : Address) (password : Option String) (message : Bytes) (hashFirst : Bool)
  | signTransaction (address : Address) (password : Option String) (tx : Transaction)

/-- The call may change files. -/
def Call.changesFiles : Call → Bool
  | create .. | delete .. | update .. | importKeyfile .. | importFile .. | importSecret .. => true
  | _ => false

/-- What a call answers. -/
inductive Answer where
  | created (address : Address)
  | addresses (addresses : List Address)
  | told (holds : Bool)
  | exported (key : Option KeyPair)
  | imported (address : Option Address)
  | counted (count : Nat)
  | resolved (key : KeyPair)
  | signedMessage (text : String)
  | signedTransaction (bytes : Bytes)

/-- Carries out a call at an instant. -/
def Manager.perform {σ : Type} (manager : Manager σ) (now : Instant) : Call → SessionAction σ Answer
  | .create key password fresh => .created <$> manager.create key password fresh
  | .list => .addresses <$> manager.list
  | .isManaged address => .told <$> manager.isManaged address
  | .delete address => .told <$> manager.delete now address
  | .update address password newPassword fresh =>
    .told <$> manager.update address password newPassword fresh
  | .exportKey address password => .exported <$> manager.exportKey address password
  | .importKeyfile content password newPassword fresh =>
    .imported <$> manager.importKeyfile content password newPassword fresh
  | .importFile disk path password newPassword fresh =>
    .imported <$> manager.importFile disk path password newPassword fresh
  | .importSecret secret password fresh => .imported <$> manager.importSecret secret password fresh
  | .unlock address password timeout => .told <$> manager.unlock now address password timeout
  | .lock address => .told <$> Manager.lock now address
  | .isUnlocked address => .told <$> Manager.isUnlocked now address
  | .unlockedAccounts => .addresses <$> Manager.unlockedAccounts now
  | .purgeExpired => .counted <$> Manager.purgeExpired now
  | .resolveKey address password => .resolved <$> manager.resolveKey now address password
  | .signMessage address password message hashFirst =>
    .signedMessage <$> manager.signMessage now address password message hashFirst
  | .signTransaction address password tx =>
    .signedTransaction <$> manager.signTransaction now address password tx

/-! ## Histories -/

/-- The session with the files changed by others. -/
def Session.outside {σ : Type} (session : Session σ) (change : σ → σ) : Session σ :=
  ⟨⟨change session.traced.files, session.traced.events⟩, session.unlocked⟩

/-- A session of a manager that has just been opened: no account is unlocked. -/
def Session.opened {σ : Type} (traced : Traced σ) : Session σ :=
  ⟨traced, .empty⟩

/-- A call that is to come: what others change before it, and when it is made. -/
structure Turn (σ : Type) where
  outside : σ → σ
  now : Instant
  call : Call

/-- A call that was made: what it found, what it answered and what it left. -/
structure Entry (σ : Type) where
  now : Instant
  call : Call
  before : Session σ
  reply : Except AccountError Answer
  after : Session σ

namespace Manager

variable {σ : Type} (manager : Manager σ)

/-- Makes a call. -/
def take (session : Session σ) (turn : Turn σ) : Entry σ where
  now := turn.now
  call := turn.call
  before := session.outside turn.outside
  reply := answer (manager.perform turn.now turn.call) (session.outside turn.outside)
  after := leaves (manager.perform turn.now turn.call) (session.outside turn.outside)

/-- The calls that are made from a session on, first one first. -/
def history : Session σ → List (Turn σ) → List (Entry σ)
  | _, [] => []
  | session, turn :: turns =>
    manager.take session turn :: history (manager.take session turn).after turns

/-- The session after the calls. -/
def final : Session σ → List (Turn σ) → Session σ
  | session, [] => session
  | session, turn :: turns => final (manager.take session turn).after turns

variable {manager}

/-- A call before which nobody changes the files. -/
theorem take_undisturbed (session : Session σ) (now : Instant) (call : Call) :
    manager.take session ⟨id, now, call⟩ = ⟨now, call, session,
      answer (manager.perform now call) session, leaves (manager.perform now call) session⟩ := rfl

/-- An entry tells what its call answers and leaves. -/
theorem of_eq_take {session : Session σ} {turn : Turn σ} {e : Entry σ}
    (h : e = manager.take session turn) :
    e.reply = answer (manager.perform e.now e.call) e.before ∧
      e.after = leaves (manager.perform e.now e.call) e.before := by
  subst h
  exact ⟨rfl, rfl⟩

/-- The history of more turns is recorded behind that of the turns before. -/
theorem history_append (session : Session σ) (turns more : List (Turn σ)) :
    manager.history session (turns ++ more) =
      manager.history session turns ++ manager.history (manager.final session turns) more := by
  induction turns generalizing session with
  | nil => rfl
  | cons turn turns ih =>
    rw [List.cons_append, history, ih, history, final, List.cons_append]

/-- More turns go on from the session that the turns before end in. -/
theorem final_append (session : Session σ) (turns more : List (Turn σ)) :
    manager.final session (turns ++ more) = manager.final (manager.final session turns) more := by
  induction turns generalizing session with
  | nil => rfl
  | cons turn turns ih => rw [List.cons_append, final, ih, final]

/-- One more call is recorded last. -/
theorem history_concat (session : Session σ) (turns : List (Turn σ)) (turn : Turn σ) :
    manager.history session (turns ++ [turn]) =
      manager.history session turns ++ [manager.take (manager.final session turns) turn] := by
  rw [history_append]
  rfl

/-- One more turn ends in what its call leaves. -/
theorem final_concat (session : Session σ) (turns : List (Turn σ)) (turn : Turn σ) :
    manager.final session (turns ++ [turn]) =
      (manager.take (manager.final session turns) turn).after := by
  rw [final_append]
  rfl

/-- An entry of a history is that of a turn, taken from the session that the turns before it end in. -/
theorem of_history_eq_append {session : Session σ} {turns : List (Turn σ)}
    {earlier later : List (Entry σ)} {e : Entry σ}
    (h : manager.history session turns = earlier ++ e :: later) :
    ∃ past turn future, turns = past ++ turn :: future ∧ earlier = manager.history session past ∧
      e = manager.take (manager.final session past) turn := by
  induction earlier generalizing session turns with
  | nil =>
    cases turns with
    | nil => cases h
    | cons turn turns =>
      rw [history, List.nil_append] at h
      injection h with h
      exact ⟨[], turn, turns, rfl, rfl, h.symm⟩
  | cons first earlier ih =>
    cases turns with
    | nil => cases h
    | cons turn turns =>
      rw [history, List.cons_append] at h
      injection h with hfirst h
      obtain ⟨past, next, future, rfl, rfl, rfl⟩ := ih h
      exact ⟨turn :: past, next, future, rfl, by rw [history, hfirst], rfl⟩

/-- The last entries of a run matter: an entry of one kind is followed by entries of another kind alone
after one more entry if that entry is of the first kind, or is of the second and they were before. -/
theorem exists_last_concat_iff {α : Type} {kind rest : α → Prop} {entries : List α} {e : α} :
    (∃ earlier last later, entries ++ [e] = earlier ++ last :: later ∧ kind last ∧
        ∀ other ∈ later, rest other) ↔
      kind e ∨ (∃ earlier last later, entries = earlier ++ last :: later ∧ kind last ∧
        ∀ other ∈ later, rest other) ∧ rest e := by
  constructor
  · rintro ⟨earlier, last, later, hsplit, hkind, hlater⟩
    rcases List.eq_nil_or_concat later with rfl | ⟨later, next, rfl⟩
    · obtain ⟨-, heq⟩ := List.append_inj' hsplit rfl
      injection heq with heq
      subst heq
      exact .inl hkind
    · rw [List.concat_eq_append] at hsplit hlater
      rw [← List.cons_append, ← List.append_assoc] at hsplit
      obtain ⟨hinit, heq⟩ := List.append_inj' hsplit rfl
      injection heq with heq
      subst heq
      refine .inr ⟨⟨earlier, last, later, hinit, hkind, fun other hother => ?_⟩, ?_⟩
      · exact hlater other (List.mem_append_left _ hother)
      · exact hlater e (List.mem_append_right _ List.mem_cons_self)
  · rintro (hkind | ⟨⟨earlier, last, later, rfl, hkind, hlater⟩, hrest⟩)
    · exact ⟨entries, e, [], rfl, hkind, fun other hother => absurd hother List.not_mem_nil⟩
    · refine ⟨earlier, last, later ++ [e], by simp, hkind, fun other hother => ?_⟩
      rcases List.mem_append.1 hother with hother | hother
      · exact hlater other hother
      · rw [List.mem_singleton.1 hother]
        exact hrest

end Manager

/-! ## Operations on one part of a session -/

section
variable {ε s α β : Type}

/-- What is worked out from an answer is the answer worked out. -/
theorem answer_map (f : α → β) (x : EStateM ε s α) (state : s) :
    answer (f <$> x) state = (answer x state).map f := by
  change answer (EStateM.map f x) state = _
  unfold answer EStateM.map
  cases x state <;> rfl

/-- What is handed on is what the operation answers. -/
theorem of_answer_map {f : α → β} {x : EStateM ε s α} {state : s} {b : β}
    (h : answer (f <$> x) state = .ok b) : ∃ a, answer x state = .ok a ∧ f a = b := by
  rw [answer_map] at h
  exact map_eq_ok_iff.1 h

/-- Working something out from an answer leaves what the operation leaves. -/
theorem leaves_map (f : α → β) (x : EStateM ε s α) (state : s) :
    leaves (f <$> x) state = leaves x state := by
  change leaves (EStateM.map f x) state = _
  unfold leaves EStateM.map
  cases x state <;> rfl

end

namespace SessionAction

variable {σ α : Type}

/-- An operation on the files answers the same in a session. -/
@[simp] theorem answer_onFiles (action : Action σ α) (session : Session σ) :
    answer (onFiles action) session = answer action session.traced := by
  unfold answer onFiles
  cases action session.traced <;> rfl

/-- And it keeps the unlocked accounts there. -/
@[simp] theorem leaves_onFiles (action : Action σ α) (session : Session σ) :
    leaves (onFiles action) session = ⟨leaves action session.traced, session.unlocked⟩ := by
  unfold leaves onFiles
  cases action session.traced <;> rfl

@[simp] theorem answer_onUnlocked (step : UnlockRegistry → α × UnlockRegistry) (session : Session σ) :
    answer (onUnlocked step) session = .ok (step session.unlocked).1 := rfl

@[simp] theorem leaves_onUnlocked (step : UnlockRegistry → α × UnlockRegistry) (session : Session σ) :
    leaves (onUnlocked step) session = ⟨session.traced, (step session.unlocked).2⟩ := rfl

end SessionAction

end Keyring
