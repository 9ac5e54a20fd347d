import Keyring.Proofs.Storage.Directory

/-!
# What an operation notes

An operation that succeeds is told in full by its answer, the files that it leaves and the events that it
notes, which come after those that were there (`Action.Traces`). The events tell which way an operation went
where its answer does not. There is one rule for each way to put operations together, as for what is left
alone (`Action.Yields`).
-/

namespace Keyring

namespace Action

variable {σ α β : Type} {x : Action σ α} {f : α → Action σ β} {files files' files'' : σ}
  {noted more : List Event} {a : α}

/-- On the files, whatever was noted before, the operation succeeds with the answer, leaves the other files
and notes the events. -/
def Traces (x : Action σ α) (files : σ) (a : α) (files' : σ) (noted : List Event) : Prop :=
  ∀ events, x ⟨files, events⟩ = .ok a ⟨files', events ++ noted⟩

/-- What an operation answers does not depend on what was noted before. -/
theorem Traces.answer_eq (h : Traces x files a files' noted) (events : List Event) :
    answer x ⟨files, events⟩ = .ok a :=
  answer_of_ok (h events)

/-- What it notes comes behind what was noted before. -/
theorem Traces.leaves_eq (h : Traces x files a files' noted) (events : List Event) :
    leaves x ⟨files, events⟩ = ⟨files', events ++ noted⟩ :=
  leaves_of_ok (h events)

/-- Giving a value notes nothing. -/
theorem traces_pure (a : α) (files : σ) : Traces (pure a) files a files [] := by
  intro events
  rw [List.append_nil]
  rfl

/-- Noting an event notes it. -/
theorem traces_note (event : Event) (files : σ) : Traces (note event) files () files [event] :=
  fun _ => rfl

/-- What is noted by one operation comes before what is noted by the one that goes on from it. -/
theorem Traces.bind {b : β} (hx : Traces x files a files' noted)
    (hf : Traces (f a) files' b files'' more) :
    Traces (x >>= f) files b files'' (noted ++ more) := by
  intro events
  rw [bind_of_ok (hx.answer_eq events), hx.leaves_eq events, hf, List.append_assoc]

/-- There is nothing to catch. -/
theorem Traces.tryCatch {handle : AccountError → Action σ α} (hx : Traces x files a files' noted) :
    Traces (tryCatch x handle) files a files' noted := by
  intro events
  rw [tryCatch_of_ok handle (hx.answer_eq events), hx.leaves_eq events]

/-- Looking notes nothing. -/
theorem traces_query {path : Path} (look : σ → Except IoError α) (h : look files = .ok a) :
    Traces (query path look) files a files [] := by
  intro events
  unfold query
  rw [List.append_nil, bind_of_ok (a := ⟨files, events⟩) rfl]
  dsimp only
  rw [h]
  rfl

/-- Changing notes nothing. -/
theorem traces_change {path : Path} (step : σ → Except IoError σ) (h : step files = .ok files') :
    Traces (change path step) files () files' [] := by
  intro events
  unfold change
  rw [List.append_nil, bind_of_ok (a := ⟨files, events⟩) rfl]
  dsimp only
  rw [h]
  rfl

end Action

namespace Directory

open Keyring.Action (Traces)
open Keyfile (addressIn?)

variable {directory : Directory} {disk : Disk} {place : Place}

/-- What is noted of the names in a directory that tell no account. -/
def foreignFiles (disk : Disk) (place : Place) : List Event :=
  ((disk.names place).filter fun name => (addressIn? name).isNone).map .foreignFile

/-- Noting the foreign files notes each once, in the order of the listing. -/
theorem traces_forM_note (names : List Name) (disk : Disk) :
    Traces (names.forM fun name => Action.note (.foreignFile name)) disk () disk
      (names.map .foreignFile) := by
  induction names with
  | nil => exact Action.traces_pure _ _
  | cons name names ih => exact (Action.traces_note _ _).bind ih

/-- A look at the keyfiles notes the other names. -/
theorem traces_entries (h : disk.LeadsTo directory.path place) :
    Traces directory.entries disk ((disk.names place).filterMap directory.stored?) disk
      (foreignFiles disk place) := by
  have hlist : Traces (Action.query directory.path fun disk => disk.list directory.path) disk
      (disk.names place) disk [] := Action.traces_query _ (Disk.list_eq h)
  have hforeign : foreignFiles disk place =
      ((disk.names place).filter fun name => (directory.stored? name).isNone).map .foreignFile := by
    unfold foreignFiles
    simp only [stored?_eq, Option.isNone_map]
  have htrace : Traces directory.entries disk ((disk.names place).filterMap directory.stored?) disk
      ([] ++ (foreignFiles disk place ++ [])) := by
    rw [hforeign]
    exact hlist.bind ((traces_forM_note _ disk).bind (Action.traces_pure _ _))
  rwa [List.nil_append, List.append_nil] at htrace

/-- Finding an account's keyfiles notes the foreign files that are met. -/
theorem traces_find (h : disk.LeadsTo directory.path place) (address : Address) :
    Traces (directory.storage.find address) disk
      ((keyfiles disk place address).map (directory.keyfile address)) disk
      (foreignFiles disk place) := by
  have htrace : Traces (directory.storage.find address) disk
      (((disk.names place).filterMap directory.stored?).filter fun entry => entry.address = address) disk
      (foreignFiles disk place ++ []) := (traces_entries h).bind (Action.traces_pure _ _)
  rwa [filter_filterMap_stored?, List.append_nil] at htrace

end Directory

end Keyring
