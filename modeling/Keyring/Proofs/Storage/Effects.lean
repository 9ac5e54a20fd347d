import Keyring.Storage.Basic

/-!
# What an operation does to the files

An operation is told by its answer and by the files that it leaves (`Yields`). What was noted before
makes no difference to either, so that events are left out from here on. There is one rule for each way
to put operations together, and an operation on stored keyfiles is worked out by a chain of them.
-/

namespace Keyring

section
variable {ε s α β : Type}

/-- The answer of an operation, or why it fails. -/
def answer (action : EStateM ε s α) (state : s) : Except ε α :=
  match action state with
  | .ok a _ => .ok a
  | .error e _ => .error e

/-- What an operation leaves, whether it fails or not. -/
def leaves (action : EStateM ε s α) (state : s) : s :=
  match action state with
  | .ok _ state => state
  | .error _ state => state

variable {x : EStateM ε s α} {f : α → EStateM ε s β} {state : s}

/-- What answers a value succeeds with it. -/
theorem eq_ok_of_answer {a : α} (h : answer x state = .ok a) : x state = .ok a (leaves x state) := by
  unfold answer at h
  unfold leaves
  cases hx : x state with
  | ok b after => rw [hx] at h; cases h; rfl
  | error e after => rw [hx] at h; cases h

/-- What answers an error fails with it. -/
theorem eq_error_of_answer {e : ε} (h : answer x state = .error e) :
    x state = .error e (leaves x state) := by
  unfold answer at h
  unfold leaves
  cases hx : x state with
  | ok b after => rw [hx] at h; cases h
  | error d after => rw [hx] at h; cases h; rfl

/-- What succeeds answers its value. -/
theorem answer_of_ok {a : α} {after : s} (h : x state = .ok a after) : answer x state = .ok a := by
  rw [answer, h]

/-- What succeeds leaves the state that it ends in. -/
theorem leaves_of_ok {a : α} {after : s} (h : x state = .ok a after) : leaves x state = after := by
  rw [leaves, h]

/-- What fails answers its error. -/
theorem answer_of_error {e : ε} {after : s} (h : x state = .error e after) :
    answer x state = .error e := by
  rw [answer, h]

/-- What fails leaves the state that it ends in. -/
theorem leaves_of_error {e : ε} {after : s} (h : x state = .error e after) :
    leaves x state = after := by
  rw [leaves, h]

/-- A chain goes on with the answer of its first step. -/
theorem bind_of_ok {a : α} (h : answer x state = .ok a) :
    (x >>= f) state = f a (leaves x state) := by
  change EStateM.bind x f state = _
  rw [EStateM.bind, eq_ok_of_answer h]

/-- A chain ends where its first step fails. -/
theorem bind_of_error {e : ε} (h : answer x state = .error e) :
    (x >>= f) state = .error e (leaves x state) := by
  change EStateM.bind x f state = _
  rw [EStateM.bind, eq_error_of_answer h]

/-- A chain answers what its second step answers. -/
theorem answer_bind_ok {a : α} (h : answer x state = .ok a) :
    answer (x >>= f) state = answer (f a) (leaves x state) := by
  rw [answer, bind_of_ok h, answer]

/-- A chain leaves what its second step leaves. -/
theorem leaves_bind_ok {a : α} (h : answer x state = .ok a) :
    leaves (x >>= f) state = leaves (f a) (leaves x state) := by
  have hbind := bind_of_ok (f := f) h
  generalize leaves x state = between at hbind ⊢
  unfold leaves
  rw [hbind]

/-- A chain whose first step fails answers that error. -/
theorem answer_bind_error {e : ε} (h : answer x state = .error e) :
    answer (x >>= f) state = .error e :=
  answer_of_error (bind_of_error h)

/-- A chain whose first step fails leaves what that step leaves. -/
theorem leaves_bind_error {e : ε} (h : answer x state = .error e) :
    leaves (x >>= f) state = leaves x state :=
  leaves_of_error (bind_of_error h)

/-- A chain that succeeds goes through its first step. -/
theorem of_answer_bind {b : β} (h : answer (x >>= f) state = .ok b) :
    ∃ a, answer x state = .ok a ∧ answer (f a) (leaves x state) = .ok b := by
  cases hx : answer x state with
  | error e => rw [answer_bind_error hx] at h; cases h
  | ok a =>
    rw [answer_bind_ok hx] at h
    exact ⟨a, rfl, h⟩

/-- What succeeds is not handled. -/
theorem tryCatch_of_ok {a : α} (handle : ε → EStateM ε s α) (h : answer x state = .ok a) :
    (tryCatch x handle) state = .ok a (leaves x state) := by
  change EStateM.tryCatch x handle state = _
  delta EStateM.tryCatch
  rw [eq_ok_of_answer h]

/-- What fails is handled from where it failed. -/
theorem tryCatch_of_error {e : ε} (handle : ε → EStateM ε s α) (h : answer x state = .error e) :
    (tryCatch x handle) state = handle e (leaves x state) := by
  change EStateM.tryCatch x handle state = _
  delta EStateM.tryCatch
  rw [eq_error_of_answer h]
  rfl

/-- A value that was worked out from another one is there exactly if that one is. -/
theorem map_eq_ok_iff {x : Except ε α} {f : α → β} {b : β} :
    x.map f = .ok b ↔ ∃ a, x = .ok a ∧ f a = b := by
  cases x with
  | error e => exact ⟨nofun, nofun⟩
  | ok a => simp [Except.map]

theorem mapError_ok {ε' : Type} (a : α) (f : ε → ε') :
    (Except.ok a : Except ε α).mapError f = .ok a := rfl

/-- Telling errors in other words keeps the values. -/
theorem mapError_eq_ok_iff {ε' : Type} {x : Except ε α} {f : ε → ε'} {a : α} :
    x.mapError f = .ok a ↔ x = .ok a := by
  cases x with
  | error e => exact ⟨nofun, nofun⟩
  | ok b =>
    rw [mapError_ok, Except.ok.injEq, Except.ok.injEq]

end

namespace Action

variable {σ α β : Type} {x : Action σ α} {f : α → Action σ β} {files files' files'' : σ}

/-- On the files, whatever was noted before, the operation gives the answer and leaves the other
files. -/
def Yields (x : Action σ α) (files : σ) (result : Except AccountError α) (files' : σ) : Prop :=
  ∀ events, answer x ⟨files, events⟩ = result ∧ (leaves x ⟨files, events⟩).files = files'

/-- Giving a value changes nothing. -/
theorem yields_pure (a : α) (files : σ) : Yields (pure a) files (.ok a) files :=
  fun _ => ⟨rfl, rfl⟩

/-- Failing changes nothing. -/
theorem yields_throw (e : AccountError) (files : σ) :
    Yields (throw e : Action σ α) files (.error e) files :=
  fun _ => ⟨rfl, rfl⟩

/-- Noting something changes no file. -/
theorem yields_note (event : Event) (files : σ) : Yields (note event) files (.ok ()) files :=
  fun _ => ⟨rfl, rfl⟩

/-- One operation, and then another one that goes on from it. -/
theorem Yields.bind {a : α} {result : Except AccountError β} (hx : Yields x files (.ok a) files')
    (hf : Yields (f a) files' result files'') : Yields (x >>= f) files result files'' := by
  intro events
  obtain ⟨hanswer, hfiles⟩ := hx events
  rw [answer_bind_ok hanswer, leaves_bind_ok hanswer]
  have heq : leaves x ⟨files, events⟩ = ⟨files', (leaves x ⟨files, events⟩).events⟩ := by
    rw [← hfiles]
  rw [heq]
  exact hf _

/-- A failure is passed on. -/
theorem Yields.bind_error {e : AccountError} (hx : Yields x files (.error e) files') :
    Yields (x >>= f) files (.error e) files' := by
  intro events
  obtain ⟨hanswer, hfiles⟩ := hx events
  exact ⟨answer_bind_error hanswer, by rw [leaves_bind_error hanswer, hfiles]⟩

/-- There is nothing to catch. -/
theorem Yields.tryCatch_ok {a : α} {handle : AccountError → Action σ α}
    (hx : Yields x files (.ok a) files') : Yields (tryCatch x handle) files (.ok a) files' := by
  intro events
  obtain ⟨hanswer, hfiles⟩ := hx events
  have hcatch := tryCatch_of_ok handle hanswer
  exact ⟨answer_of_ok hcatch, by rw [leaves_of_ok hcatch, hfiles]⟩

/-- A failure is caught. -/
theorem Yields.tryCatch_error {e : AccountError} {handle : AccountError → Action σ α}
    {result : Except AccountError α} (hx : Yields x files (.error e) files')
    (hhandle : Yields (handle e) files' result files'') :
    Yields (tryCatch x handle) files result files'' := by
  intro events
  obtain ⟨hanswer, hfiles⟩ := hx events
  have hcatch := tryCatch_of_error handle hanswer
  have heq : leaves x ⟨files, events⟩ = ⟨files', (leaves x ⟨files, events⟩).events⟩ := by
    rw [← hfiles]
  rw [heq] at hcatch
  unfold answer leaves
  rw [hcatch]
  exact hhandle _

/-- Looking changes nothing. -/
theorem yields_query {path : Path} (look : σ → Except IoError α) {a : α} (h : look files = .ok a) :
    Yields (Action.query path look) files (.ok a) files := by
  intro events
  have hrun : Action.query path look ⟨files, events⟩ = .ok a ⟨files, events⟩ := by
    unfold Action.query
    rw [bind_of_ok (a := ⟨files, events⟩) rfl]
    dsimp only
    rw [h]
    rfl
  exact ⟨answer_of_ok hrun, by rw [leaves_of_ok hrun]⟩

/-- What is not to be seen is told with the path. -/
theorem yields_query_error {path : Path} (look : σ → Except IoError α) {e : IoError}
    (h : look files = .error e) :
    Yields (Action.query path look) files (.error (.io path e)) files := by
  intro events
  have hrun : Action.query path look ⟨files, events⟩ = .error (.io path e) ⟨files, events⟩ := by
    unfold Action.query
    rw [bind_of_ok (a := ⟨files, events⟩) rfl]
    dsimp only
    rw [h]
    rfl
  exact ⟨answer_of_error hrun, by rw [leaves_of_error hrun]⟩

/-- A change that succeeds is made. -/
theorem yields_change {path : Path} (step : σ → Except IoError σ) (h : step files = .ok files') :
    Yields (Action.change path step) files (.ok ()) files' := by
  intro events
  have hrun : Action.change path step ⟨files, events⟩ = .ok () ⟨files', events⟩ := by
    unfold Action.change
    rw [bind_of_ok (a := ⟨files, events⟩) rfl]
    dsimp only
    rw [h]
    rfl
  exact ⟨answer_of_ok hrun, by rw [leaves_of_ok hrun]⟩

/-- A change that fails is not made. -/
theorem yields_change_error {path : Path} (step : σ → Except IoError σ) {e : IoError}
    (h : step files = .error e) :
    Yields (Action.change path step) files (.error (.io path e)) files := by
  intro events
  have hrun : Action.change path step ⟨files, events⟩ = .error (.io path e) ⟨files, events⟩ := by
    unfold Action.change
    rw [bind_of_ok (a := ⟨files, events⟩) rfl]
    dsimp only
    rw [h]
    rfl
  exact ⟨answer_of_error hrun, by rw [leaves_of_error hrun]⟩

end Action

end Keyring
