import Keyring.Proofs.Manager.Files

/-!
# What opening a directory changes

A directory that is missing is made, with those on the way to it, and gets its mode. No file is made,
removed or changed by that (`Manager.of_ofConfig_ok`). Where there is a directory already, nothing is changed
at all (`Manager.ofConfig_of_leadsTo`).
-/

namespace Keyring

/-! ## Disks with the same files -/

namespace Disk

/-- The same files are at the same places. Directories may differ. -/
def SameFiles (disk disk' : Disk) : Prop :=
  ∀ place mode content, disk'.get? place = some (.file mode content) ↔
    disk.get? place = some (.file mode content)

variable {disk disk' disk'' : Disk} {p : Path} {mode : Nat}

/-- A disk has the same files as itself. -/
theorem SameFiles.refl (disk : Disk) : SameFiles disk disk :=
  fun _ _ _ => Iff.rfl

/-- The same files as those that are the same are the same. -/
theorem SameFiles.trans (h : SameFiles disk disk') (h' : SameFiles disk' disk'') :
    SameFiles disk disk'' :=
  fun place mode content => (h' place mode content).trans (h place mode content)

/-- The root is always there, so that nothing is put in its place. -/
theorem get?_put_root (disk : Disk) (other : Place) (node : Node) :
    (disk.put [] node).get? other = disk.get? other := by
  unfold get? put
  by_cases h : other = []
  · rw [if_pos h, if_pos h]
  · rw [if_neg h, if_neg h, find?_putNode, if_neg h]

/-- A directory is put where no file is. -/
theorem sameFiles_put {place : Place} (mode : Nat)
    (h : ∀ mode content, disk.get? place ≠ some (.file mode content)) :
    SameFiles disk (disk.put place (.directory mode)) := by
  intro other mode' content
  by_cases hplace : place = []
  · rw [hplace, get?_put_root]
  · rw [get?_put _ _ _ _ hplace]
    split
    · next heq =>
      rw [heq]
      exact ⟨nofun, fun hfile => absurd hfile (h mode' content)⟩
    · exact Iff.rfl

/-- What a path tells is what is at the place that it leads to. -/
theorem get?_of_locate {target : Target} (h : disk.locate p = .ok target) {place : Place}
    (hplace : target.place = .ok place) : disk.get? place = target.node := by
  obtain ⟨-, -, hfollow⟩ := locate_ok h
  have hnode := follow_node hfollow
  unfold Target.place at hplace
  split at hplace
  · next hremoved =>
    cases hplace
    rw [hnode, nodeAt, if_pos hremoved]
  · cases hplace

/-- A new directory is put where the path leads and nothing is. -/
theorem of_makeOne_ok (h : disk.makeOne p = .ok disk') : ∃ target place, disk.locate p = .ok target ∧
    target.node = none ∧ target.place = .ok place ∧ disk' = disk.put place (.directory directoryMode) := by
  unfold makeOne make at h
  cases hlocate : disk.locate p with
  | error e => rw [hlocate] at h; cases h
  | ok target =>
    rw [hlocate] at h
    simp only [bind, Except.bind] at h
    split at h
    · cases h
    · next hnone =>
      cases hplace : target.place with
      | error e => rw [hplace] at h; cases h
      | ok place =>
        rw [hplace] at h
        cases h
        exact ⟨target, place, rfl, hnone, hplace, rfl⟩

/-- Another mode is set for what is where the path leads. -/
theorem of_setMode_ok (h : disk.setMode p mode = .ok disk') : ∃ target place node,
    disk.locate p = .ok target ∧ target.node = some node ∧ target.place = .ok place ∧
      disk' = disk.put place (node.withMode mode) := by
  unfold setMode at h
  cases hlocate : disk.locate p with
  | error e => rw [hlocate] at h; cases h
  | ok target =>
    rw [hlocate] at h
    simp only [bind, Except.bind] at h
    split at h
    · next node hnode =>
      cases hplace : target.place with
      | error e => rw [hplace] at h; cases h
      | ok place =>
        rw [hplace] at h
        cases h
        exact ⟨target, place, node, rfl, hnode, hplace, rfl⟩
    · cases h

/-- Making a directory keeps all files. -/
theorem sameFiles_makeOne (h : disk.makeOne p = .ok disk') : SameFiles disk disk' := by
  obtain ⟨target, place, hlocate, hnone, hplace, rfl⟩ := of_makeOne_ok h
  refine sameFiles_put directoryMode fun mode content => ?_
  rw [get?_of_locate hlocate hplace, hnone]
  exact nofun

/-- The mode of a directory is that of no file. -/
theorem sameFiles_setMode (hdirectory : disk.isDirectory p = true) (h : disk.setMode p mode = .ok disk') :
    SameFiles disk disk' := by
  obtain ⟨target, place, node, hlocate, hnode, hplace, rfl⟩ := of_setMode_ok h
  have hget := get?_of_locate hlocate hplace
  unfold isDirectory at hdirectory
  rw [hlocate] at hdirectory
  split at hdirectory
  · next hok =>
    cases hok
    cases hnode
    refine sameFiles_put mode fun mode content => ?_
    rw [hget]
    exact nofun
  · cases hdirectory

/-! ## Making directories -/

/-- Slashes lead from a directory to itself. -/
theorem follow_slashes {s : Standpoint} (hs : disk.nodeAt s = some (.directory mode)) {parts : List Bytes}
    (h : parts.all (· = []) = true) : disk.follow s parts = .ok ⟨s, some (.directory mode)⟩ := by
  induction parts with
  | nil => rw [follow, hs]
  | cons part parts ih =>
    rw [List.all_cons, Bool.and_eq_true, decide_eq_true_eq] at h
    rw [follow, hs, h.1]
    exact ih h.2

/-- Directories stay where another one is put at a free place. -/
theorem nodeAt_put {place : Place} (hne : place ≠ []) (hnone : disk.get? place = none) (node : Node)
    {s : Standpoint} (h : disk.nodeAt s = some (.directory mode)) :
    (disk.put place node).nodeAt s = some (.directory mode) := by
  unfold nodeAt at h ⊢
  split at h
  · next hremoved =>
    rw [if_pos hremoved, get?_put _ _ _ _ hne, if_neg, h]
    rintro rfl
    rw [hnone] at h
    cases h
  · next hremoved => rw [if_neg hremoved, h]

/-- Parts that lead to a place where nothing is lead to the directory that is put there. -/
theorem follow_put {s : Standpoint} {place : Place} {parts : List Bytes}
    (h : disk.follow s parts = .ok ⟨⟨place, 0⟩, none⟩) (mode : Nat) :
    (disk.put place (.directory mode)).follow s parts =
      .ok ⟨⟨place, 0⟩, some (.directory mode)⟩ := by
  have hnone : disk.get? place = none := by
    have hnode := follow_node h
    rw [nodeAt, if_pos rfl] at hnode
    exact hnode.symm
  have hne : place ≠ [] := by
    rintro rfl
    cases hnone
  have hput : (disk.put place (.directory mode)).nodeAt ⟨place, 0⟩ = some (.directory mode) := by
    rw [nodeAt, if_pos rfl, get?_put _ _ _ _ hne, if_pos rfl]
  induction parts generalizing s with
  | nil =>
    rw [follow] at h ⊢
    injection h with h
    injection h with hs
    rw [hs, hput]
  | cons part parts ih =>
    rw [follow] at h
    split at h
    · next hnode =>
      rw [follow, nodeAt_put hne hnone _ hnode]
      simp only
      split at h
      · exact ih h
      · cases h
    · cases h
    · split at h
      · next hempty =>
        cases h
        exact follow_slashes hput hempty
      · cases h

/-- A directory that was made is one. -/
theorem isDirectory_of_makeOne (h : disk.makeOne p = .ok disk') : disk'.isDirectory p = true := by
  obtain ⟨⟨⟨place, removed⟩, node⟩, _, hlocate, hnone, hplace, rfl⟩ := of_makeOne_ok h
  obtain ⟨hcheck, hp, hfollow⟩ := locate_ok hlocate
  cases hnone
  unfold Target.place at hplace
  split at hplace
  · next hremoved =>
    cases hplace
    have hremoved : removed = 0 := hremoved
    subst hremoved
    have hput : (disk.put place (.directory directoryMode)).locate p = _ := locate_eq hcheck hp
    have hnode : (disk.put place (.directory directoryMode)).follow
        (if p.isAbsolute then ⟨[], 0⟩ else disk.work) (Path.split p.bytes) = _ :=
      follow_put hfollow directoryMode
    unfold isDirectory
    rw [hput.trans hnode]
  · cases hplace

/-- Ensuring one directory makes it, unless it is one already. -/
theorem ensureOne_eq (p : Path) (disk : Disk) : ensureOne p disk =
    match disk.makeOne p with
    | .ok disk' => .ok () disk'
    | .error e => if disk.isDirectory p then .ok () disk else .error e disk := by
  unfold ensureOne
  rw [bind_of_ok (a := disk) rfl]
  change (match disk.makeOne p with | .ok disk => _ | .error e => _ : EStateM IoError Disk Unit) disk = _
  cases disk.makeOne p with
  | ok disk' => rfl
  | error e =>
    simp only
    cases disk.isDirectory p <;> rfl

/-- Ensuring one directory keeps all files, also where it fails. -/
theorem sameFiles_ensureOne (p : Path) (disk : Disk) : SameFiles disk (leaves (ensureOne p) disk) := by
  rw [leaves, ensureOne_eq]
  cases hmake : disk.makeOne p with
  | ok disk' => exact sameFiles_makeOne hmake
  | error e =>
    simp only
    cases disk.isDirectory p <;> exact .refl disk

/-- What was ensured is a directory. -/
theorem isDirectory_of_ensureOne (h : ensureOne p disk = .ok () disk') : disk'.isDirectory p = true := by
  rw [ensureOne_eq] at h
  cases hmake : disk.makeOne p with
  | ok made =>
    rw [hmake] at h
    cases h
    exact isDirectory_of_makeOne hmake
  | error e =>
    rw [hmake] at h
    simp only at h
    split at h
    · next hdirectory => cases h; exact hdirectory
    · cases h

/-- Directories that are missing above are made first, and then the last one. -/
theorem ensureBelow_cases (above : List Path.Component) (p : Path) (disk : Disk) :
    (∃ between, SameFiles disk between ∧ ensureBelow above p disk = ensureOne p between) ∨
      ∃ e between, SameFiles disk between ∧ ensureBelow above p disk = .error e between := by
  induction above generalizing p disk with
  | nil => exact .inl ⟨disk, .refl disk, rfl⟩
  | cons c above ih =>
    unfold ensureBelow
    rw [bind_of_ok (a := disk) rfl]
    change (∃ between, _ ∧ (if disk.lacksParent p then _ else _ : EStateM IoError Disk Unit) disk = _) ∨
      ∃ e between, _ ∧ (if disk.lacksParent p then _ else _ : EStateM IoError Disk Unit) disk = _
    split
    · have hparent : SameFiles disk (leaves (ensureBelow above (.ofComponents (c :: above).reverse)) disk) := by
        unfold leaves
        rcases ih (.ofComponents (c :: above).reverse) disk with
          ⟨between, hfiles, heq⟩ | ⟨e, between, hfiles, heq⟩
        · rw [heq]
          exact hfiles.trans (sameFiles_ensureOne _ between)
        · rw [heq]
          exact hfiles
      cases hanswer : answer (ensureBelow above (.ofComponents (c :: above).reverse)) disk with
      | error e => exact .inr ⟨e, _, hparent, bind_of_error hanswer⟩
      | ok => exact .inl ⟨_, hparent, bind_of_ok hanswer⟩
    · exact .inl ⟨disk, .refl disk, rfl⟩

/-- Making the directory of a path touches no file, and if it succeeds there is one. -/
theorem of_ensureDirectory_ok (hp : p.bytes ≠ []) (h : ensureDirectory p disk = .ok () disk') :
    SameFiles disk disk' ∧ disk'.isDirectory p = true := by
  unfold ensureDirectory at h
  rw [if_neg hp] at h
  rcases ensureBelow_cases p.components.reverse.tail p disk with
    ⟨between, hfiles, heq⟩ | ⟨e, between, -, heq⟩
  · have hlast := heq.symm.trans h
    exact ⟨hfiles.trans (leaves_of_ok hlast ▸ sameFiles_ensureOne p between),
      isDirectory_of_ensureOne hlast⟩
  · rw [heq] at h
    cases h

end Disk

/-! ## Opening -/

namespace Action

variable {traced traced' : Traced Disk} {path : Path}

/-- A step that succeeds under a path is the step on the files. -/
theorem of_perform_ok {step : EStateM IoError Disk Unit}
    (h : perform path step traced = .ok () traced') : step traced.files = .ok () traced'.files := by
  unfold perform at h
  cases hstep : step traced.files with
  | ok a files => rw [hstep] at h; cases h; rfl
  | error e files => rw [hstep] at h; cases h

/-- A change that succeeds under a path is the change of the files. -/
theorem of_change_ok {step : Disk → Except IoError Disk}
    (h : change path step traced = .ok () traced') : step traced.files = .ok traced'.files := by
  obtain ⟨disk, events⟩ := traced
  cases hstep : step disk with
  | ok disk' =>
    have hyields : Yields (change path step) disk _ _ := yields_change step hstep
    obtain ⟨-, hfiles⟩ := hyields events
    rw [leaves_of_ok h] at hfiles
    rw [hfiles]
  | error e =>
    have hyields : Yields (change path step) disk _ _ := yields_change_error step hstep
    obtain ⟨hanswer, -⟩ := hyields events
    rw [answer_of_ok h] at hanswer
    cases hanswer

end Action

namespace Directory

variable {traced opened : Traced Disk} {directory : Directory} {p : Path}

/-- Nothing is made where there is something. -/
theorem ofPath_of_contains (h : traced.files.contains p.normalize = true) :
    ofPath p traced = .ok ⟨p.normalize⟩ traced := by
  unfold ofPath
  rw [bind_of_ok (a := traced) rfl]
  simp only [h, if_true]
  rfl

/-- The directory of a path is opened in normal form, and no file is changed. -/
theorem of_ofPath_ok (h : ofPath p traced = .ok directory opened) :
    directory = ⟨p.normalize⟩ ∧ Disk.SameFiles traced.files opened.files := by
  by_cases hthere : traced.files.contains p.normalize = true
  · rw [ofPath_of_contains hthere] at h
    cases h
    exact ⟨rfl, .refl _⟩
  · have hanswer := answer_of_ok h
    have hleaves := leaves_of_ok h
    unfold ofPath at hanswer hleaves
    rw [answer_bind_ok (a := traced) rfl] at hanswer
    rw [leaves_bind_ok (a := traced) rfl] at hleaves
    simp only [hthere, Bool.false_eq_true, if_false] at hanswer hleaves
    obtain ⟨⟨⟩, hmade, hanswer⟩ := of_answer_bind hanswer
    obtain ⟨⟨⟩, hmode, hanswer⟩ := of_answer_bind hanswer
    rw [leaves_bind_ok hmade, leaves_bind_ok hmode] at hleaves
    cases hanswer
    have hset := Action.of_change_ok (eq_ok_of_answer hmode)
    obtain ⟨target, -, -, hlocate, -⟩ := Disk.of_setMode_ok hset
    obtain ⟨-, hp, -⟩ := Disk.locate_ok hlocate
    obtain ⟨hensured, hdirectory⟩ :=
      Disk.of_ensureDirectory_ok hp (Action.of_perform_ok (eq_ok_of_answer hmade))
    refine ⟨rfl, ?_⟩
    rw [← hleaves]
    exact hensured.trans (Disk.sameFiles_setMode hdirectory hset)

end Directory

/-- The directory of the keyfiles that settings tell. -/
def Config.opens (config : Config) : Directory :=
  ⟨config.keystoreDir.normalize⟩

namespace Manager

variable {traced opened : Traced Disk} {manager : Manager Disk} {config : Config}

/-- What is opened is the manager of the directory, and no file is changed. -/
theorem of_ofConfig_ok (h : ofConfig config traced = .ok manager opened) :
    manager = config.opens.manager config.kdfIterations .ecdsa ∧
      Disk.SameFiles traced.files opened.files := by
  have hanswer := answer_of_ok h
  have hleaves := leaves_of_ok h
  unfold ofConfig Keystore.ofPath at hanswer hleaves
  obtain ⟨keystore, hkeystore, hmanager⟩ := of_answer_bind hanswer
  rw [leaves_bind_ok hkeystore] at hleaves
  obtain ⟨directory, hdirectory, hopened⟩ := of_answer_bind hkeystore
  rw [leaves_bind_ok hdirectory] at hleaves
  cases hmanager
  cases hopened
  obtain ⟨rfl, hfiles⟩ := Directory.of_ofPath_ok (eq_ok_of_answer hdirectory)
  rw [← hleaves]
  exact ⟨rfl, hfiles⟩

/-- Opening changes nothing where there is a directory. -/
theorem ofConfig_of_leadsTo {disk : Disk} {place : Place} (h : disk.LeadsTo config.opens.path place)
    (events : List Event) : ofConfig config ⟨disk, events⟩ =
      .ok (config.opens.manager config.kdfIterations .ecdsa) ⟨disk, events⟩ := by
  have hcontains : disk.contains config.opens.path = true := by
    obtain ⟨mode, hlocate⟩ := h
    unfold Disk.contains
    rw [hlocate]
    rfl
  have hdirectory : Directory.ofPath config.keystoreDir ⟨disk, events⟩ = .ok config.opens ⟨disk, events⟩ :=
    Directory.ofPath_of_contains hcontains
  have hkeystore : Keystore.ofPath config.keystoreDir config.kdfIterations ⟨disk, events⟩ =
      .ok (config.opens.keystore config.kdfIterations) ⟨disk, events⟩ := by
    unfold Keystore.ofPath
    rw [bind_of_ok (answer_of_ok hdirectory), leaves_of_ok hdirectory]
    rfl
  unfold ofConfig
  rw [bind_of_ok (answer_of_ok hkeystore), leaves_of_ok hkeystore]
  rfl

end Manager

end Keyring
