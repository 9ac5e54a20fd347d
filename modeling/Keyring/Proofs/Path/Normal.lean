import Keyring.Proofs.Disk.Lookup

/-!
# Normal forms of paths

The components that are folded are kept as a stack, last one first: names on the root, or names on any
number of `..` (`Path.Stack`). Every component keeps the stack one of these, so that a `..` is left only in
front of a relative path, and what is written for a stack has just its components (`Path.Stack.writes`).
Taking a name back and not adding it lead to the same place from anywhere (`Path.foldl_step_pushNormal`);
therefore a path and its normal form lead to the same place from every base (`Path.normalize_canonical`).
-/

namespace Keyring.Path

/-! ## Parts and names -/

/-- A part that is the name of an entry, and neither empty nor dots. -/
structure IsName (part : Bytes) : Prop where
  ne_nil : part ≠ []
  ne_dot : part ≠ [0x2e]
  ne_dots : part ≠ [0x2e, 0x2e]
  no_slash : slash ∉ part

/-- The parts between slashes have none. -/
theorem not_mem_of_mem_split {bytes part : Bytes} (h : part ∈ split bytes) : slash ∉ part := by
  induction bytes generalizing part with
  | nil =>
    rw [split, List.mem_singleton] at h
    rw [h]
    exact List.not_mem_nil
  | cons b bytes ih =>
    rw [split] at h
    split at h
    · rcases List.mem_cons.1 h with rfl | h
      · exact List.not_mem_nil
      · exact ih h
    · next hb =>
      cases hsplit : split bytes with
      | nil => exact absurd hsplit (split_ne_nil bytes)
      | cons first parts =>
        rw [hsplit] at h ih
        rcases List.mem_cons.1 h with rfl | h
        · rw [List.mem_cons, not_or]
          exact ⟨Ne.symm hb, ih List.mem_cons_self⟩
        · exact ih (List.mem_cons_of_mem _ h)

/-- What a component is where there is no root before it: a dot, a `..` or a name. -/
def Component.IsInner : Component → Prop
  | .root => False
  | .normal name => IsName name
  | _ => True

/-- A part that counts is a name or goes up, and is written as it was. -/
theorem isInner_of_component? {part : Bytes} (hslash : slash ∉ part) {c : Component}
    (h : component? part = some c) : c.IsInner ∧ c ≠ .current ∧ c.bytes = part := by
  unfold component? at h
  split at h
  · cases h
  · next hsome =>
    rw [not_or] at hsome
    split at h
    · next hdots =>
      cases h
      exact ⟨trivial, nofun, hdots.symm⟩
    · next hdots =>
      cases h
      exact ⟨⟨hsome.1, hsome.2, hdots, hslash⟩, nofun, rfl⟩

/-- A name counts as itself. -/
theorem IsName.component?_eq {name : Bytes} (h : IsName name) : component? name = some (.normal name) := by
  unfold component?
  rw [if_neg (not_or.2 ⟨h.ne_nil, h.ne_dot⟩), if_neg h.ne_dots]

/-- The components behind the first place, wherever there is one. -/
theorem isInner_of_mem_filterMap {bytes : Bytes} {parts : List Bytes}
    (hparts : ∀ part ∈ parts, part ∈ split bytes) {c : Component} (h : c ∈ parts.filterMap component?) :
    c.IsInner ∧ c ≠ .current := by
  obtain ⟨part, hpart, hc⟩ := List.mem_filterMap.1 h
  obtain ⟨hinner, hne, -⟩ := isInner_of_component? (not_mem_of_mem_split (hparts part hpart)) hc
  exact ⟨hinner, hne⟩

/-- A path's components are the root and inner ones if it is absolute, and inner ones alone if not. -/
theorem exists_components (p : Path) : ∃ inner : List Component, (∀ c ∈ inner, c.IsInner) ∧
    p.components = if p.isAbsolute then .root :: inner else inner := by
  unfold components
  cases hsplit : split p.bytes with
  | nil => exact absurd hsplit (split_ne_nil p.bytes)
  | cons part parts =>
    have hparts : ∀ other ∈ parts, other ∈ split p.bytes := fun other h => by
      rw [hsplit]
      exact List.mem_cons_of_mem _ h
    have hrest : ∀ c ∈ parts.filterMap component?, c.IsInner :=
      fun c h => (isInner_of_mem_filterMap hparts h).1
    unfold firstComponent isAbsolute
    by_cases habsolute : p.bytes.head? = some slash
    · exact ⟨parts.filterMap component?, hrest, by simp [habsolute]⟩
    · simp only [habsolute, if_false, decide_false, Bool.false_eq_true]
      refine ⟨_, fun c hc => ?_, rfl⟩
      rcases List.mem_append.1 hc with hc | hc
      · split at hc
        · rw [List.mem_singleton.1 hc]
          trivial
        · rw [Option.mem_toList] at hc
          have hpart : part ∈ split p.bytes := by
            rw [hsplit]
            exact List.mem_cons_self
          have hslash := not_mem_of_mem_split hpart
          exact (isInner_of_component? hslash hc).1
      · exact hrest c hc

/-! ## Joined paths -/

/-- Dots may be left out behind the first place. -/
theorem filter_components {q : Path} (hq : q.isAbsolute = false) :
    q.components.filter (· ≠ .current) = (split q.bytes).filterMap component? := by
  have hhead : ¬ q.bytes.head? = some slash := of_decide_eq_false hq
  unfold components
  cases hsplit : split q.bytes with
  | nil => exact absurd hsplit (split_ne_nil q.bytes)
  | cons part parts =>
    have hkept {found : List Component} (h : ∀ c ∈ found, c ≠ .current) :
        found.filter (· ≠ .current) = found :=
      List.filter_eq_self.2 fun c hc => decide_eq_true (h c hc)
    have hparts : ∀ other ∈ parts, other ∈ split q.bytes := fun other h => by
      rw [hsplit]
      exact List.mem_cons_of_mem _ h
    rw [List.filter_append, hkept fun c hc => (isInner_of_mem_filterMap hparts hc).2]
    unfold firstComponent
    rw [if_neg hhead, List.filterMap_cons]
    split
    · next hdot =>
      subst hdot
      rfl
    · have hpart : part ∈ split q.bytes := by
        rw [hsplit]
        exact List.mem_cons_self
      have hslash := not_mem_of_mem_split hpart
      cases hc : component? part with
      | none => rfl
      | some c =>
        have hne := (isInner_of_component? hslash hc).2.1
        rw [hkept fun other hother => by rwa [← Option.some.inj (Option.mem_toList.1 hother)]]
        rfl

/-- The parts of a joined path are those of the two, perhaps without an empty last one of the first. -/
theorem split_join {p q : Path} (hp : p.bytes ≠ []) (hq : q.isAbsolute = false) :
    ∃ parts, parts ≠ [] ∧ (split p.bytes = parts ∨ split p.bytes = parts ++ [[]]) ∧
      split (p.join q).bytes = parts ++ split q.bytes := by
  unfold join
  simp only [hq, Bool.false_eq_true, if_false, hp, false_or]
  split
  · next hlast =>
    obtain ⟨before, hbefore⟩ := List.getLast?_eq_some_iff.1 hlast
    refine ⟨split before, split_ne_nil before, .inr ?_, ?_⟩
    · rw [hbefore, split_append]
      rfl
    · rw [hbefore, List.append_assoc, List.singleton_append, split_append]
  · exact ⟨split p.bytes, split_ne_nil _, .inl rfl, split_append _ _⟩

/-- A path that is joined to another one starts as that one does, unless it is absolute. -/
theorem head?_join {p q : Path} (hp : p.bytes ≠ []) (hq : q.isAbsolute = false) :
    (p.join q).bytes.head? = p.bytes.head? := by
  unfold join
  simp only [hq, Bool.false_eq_true, if_false]
  cases hbytes : p.bytes with
  | nil => exact absurd hbytes hp
  | cons b bytes => split <;> rfl

/-- A relative path goes on behind the components of another one. -/
theorem components_join {p q : Path} (hp : p.bytes ≠ []) (hq : q.isAbsolute = false) :
    (p.join q).components = p.components ++ (split q.bytes).filterMap component? := by
  obtain ⟨parts, hne, hparts, hsplit⟩ := split_join hp hq
  have hhead := head?_join hp hq
  unfold components
  rw [hsplit]
  cases parts with
  | nil => exact absurd rfl hne
  | cons part parts =>
    have hfirst : firstComponent (p.join q).bytes part = firstComponent p.bytes part := by
      rw [firstComponent, firstComponent, hhead]
    rw [List.cons_append]
    simp only [hfirst, List.filterMap_append]
    rcases hparts with hparts | hparts
    · rw [hparts, List.append_assoc]
    · rw [hparts, List.cons_append]
      simp [component?]

/-- An absolute path that is joined to another one replaces it. -/
theorem join_of_isAbsolute (p : Path) {q : Path} (hq : q.isAbsolute = true) : p.join q = q :=
  if_pos hq

/-- An absolute path is not empty, because it starts with a slash. -/
theorem bytes_ne_nil_of_isAbsolute {p : Path} (hp : p.isAbsolute = true) : p.bytes ≠ [] := by
  intro hnil
  rw [isAbsolute, hnil] at hp
  cases hp

/-! ## Stacks -/

/-- What is left of folded components, last one first: names on the root, or names on any number of `..`. -/
inductive Stack : (absolute : Bool) → List Component → Prop
  | root : Stack true [.root]
  | parents (count : Nat) : Stack false (List.replicate count .parent)
  | name {absolute : Bool} {name : Name} {below : List Component} (hname : IsName name)
      (hbelow : Stack absolute below) : Stack absolute (.normal name :: below)

namespace Stack
variable {absolute : Bool} {stack : List Component}

/-- One more component leaves a stack. -/
theorem push (h : Stack absolute stack) {c : Component} (hc : c.IsInner) :
    Stack absolute (pushNormal stack c) := by
  cases c with
  | root => exact hc.elim
  | current => exact h
  | normal name => exact .name hc h
  | parent =>
    cases h with
    | root => exact .root
    | parents count =>
      cases count with
      | zero => exact .parents 1
      | succ count => exact .parents (count + 2)
    | name _ hbelow => exact hbelow

/-- A stack stays one, whatever inner components are pushed. -/
theorem foldl (h : Stack absolute stack) {inner : List Component} (hinner : ∀ c ∈ inner, c.IsInner) :
    Stack absolute (inner.foldl pushNormal stack) := by
  induction inner generalizing stack with
  | nil => exact h
  | cons c inner ih =>
    exact ih (h.push (hinner c List.mem_cons_self)) fun d hd => hinner d (List.mem_cons_of_mem _ hd)

/-- What is left of a path's components is a stack. -/
theorem ofPath (p : Path) : Stack p.isAbsolute (p.components.foldl pushNormal []) := by
  obtain ⟨inner, hinner, hcomponents⟩ := exists_components p
  rw [hcomponents]
  cases p.isAbsolute with
  | true => exact Stack.root.foldl hinner
  | false => exact (Stack.parents 0).foldl hinner

/-- Folding a stack again, from its first component on, leaves it as it is. -/
theorem foldl_reverse (h : Stack absolute stack) : stack.reverse.foldl pushNormal [] = stack := by
  induction h with
  | root => rfl
  | parents count =>
    rw [List.reverse_replicate]
    induction count with
    | zero => rfl
    | succ count ih =>
      have hpush : (List.replicate (count + 1) Component.parent).foldl pushNormal [] =
          pushNormal (List.replicate count .parent) .parent := by
        rw [List.replicate_succ', List.foldl_append, ih]
        rfl
      rw [hpush]
      cases count <;> rfl
  | name _ _ ih =>
    rw [List.reverse_cons, List.foldl_append, ih]
    rfl

/-- The components of a stack are normal already. -/
theorem normalComponents_eq (h : Stack absolute stack) :
    normalComponents stack.reverse = stack.reverse := by
  rw [normalComponents, h.foldl_reverse]

/-- A stack is the root or any number of `..`, and names. -/
theorem exists_names (h : Stack absolute stack) : ∃ names : List Name, (∀ name ∈ names, IsName name) ∧
    ((absolute = true ∧ stack.reverse = .root :: names.map .normal) ∨
      (absolute = false ∧ ∃ ups, stack.reverse = List.replicate ups .parent ++ names.map .normal)) := by
  induction h with
  | root => exact ⟨[], nofun, .inl ⟨rfl, rfl⟩⟩
  | parents count => exact ⟨[], nofun, .inr ⟨rfl, count, by simp⟩⟩
  | @name absolute name below hname _ ih =>
    obtain ⟨names, hnames, hbelow⟩ := ih
    refine ⟨names ++ [name], ?_, ?_⟩
    · intro other hother
      rcases List.mem_append.1 hother with hother | hother
      · exact hnames other hother
      · rw [List.mem_singleton.1 hother]
        exact hname
    · rw [List.reverse_cons]
      rcases hbelow with ⟨habsolute, hbelow⟩ | ⟨habsolute, ups, hbelow⟩
      · exact .inl ⟨habsolute, by simp [hbelow]⟩
      · exact .inr ⟨habsolute, ups, by simp [hbelow]⟩

end Stack

/-! ## Written components -/

/-- A path of components is made by joining one after the other. -/
theorem ofComponents_append (components : List Component) (c : Component) :
    ofComponents (components ++ [c]) = (ofComponents components).join ⟨c.bytes⟩ := by
  rw [ofComponents, List.foldl_append]
  rfl

/-- The path is made of just these components: it has no others, and no part of it is a dot. -/
structure Writes (p : Path) (components : List Component) : Prop where
  components_eq : p.components = components
  no_dot : [0x2e] ∉ split p.bytes

/-- A path that is written for some components is written for one more by a part behind a slash. -/
theorem Writes.join {p : Path} {components : List Component} (h : Writes p components) {c : Component}
    (hc : component? c.bytes = some c) (hslash : slash ∉ c.bytes) :
    Writes (p.join ⟨c.bytes⟩) (components ++ [c]) := by
  have hdot : c.bytes ≠ [0x2e] := fun hdot => by rw [hdot] at hc; cases hc
  have hsplit : split c.bytes = [c.bytes] := split_of_not_mem hslash
  have hrelative : (⟨c.bytes⟩ : Path).isAbsolute = false := by
    cases hbytes : c.bytes with
    | nil => rfl
    | cons b bytes =>
      have hb : b ≠ slash := fun hb => hslash (by rw [hbytes, hb]; exact List.mem_cons_self)
      simp [isAbsolute, hb]
  by_cases hp : p.bytes = []
  · have hp : p = ⟨[]⟩ := by cases p; congr
    subst hp
    have hjoin : (⟨[]⟩ : Path).join ⟨c.bytes⟩ = ⟨c.bytes⟩ := by
      simp [Path.join, hrelative]
    have hcomponents : components = [] := h.components_eq.symm
    have hhead : ¬ c.bytes.head? = some slash := of_decide_eq_false hrelative
    rw [hjoin, hcomponents]
    refine ⟨?_, ?_⟩
    · simp [Path.components, hsplit, firstComponent, hhead, hdot, hc]
    · rw [hsplit, List.mem_singleton]
      exact Ne.symm hdot
  · obtain ⟨parts, -, hparts, hjoin⟩ := split_join hp hrelative
    refine ⟨?_, ?_⟩
    · rw [components_join hp hrelative, h.components_eq, hsplit]
      simp [hc]
    · rw [hjoin, hsplit, List.mem_append, List.mem_singleton, not_or]
      refine ⟨fun hmem => h.no_dot ?_, Ne.symm hdot⟩
      rcases hparts with hparts | hparts
      · rwa [hparts]
      · rw [hparts]
        exact List.mem_append_left _ hmem

/-- The path that is written for a stack has its components, and no dots. -/
theorem Stack.writes {absolute : Bool} {stack : List Component} (h : Stack absolute stack) :
    Writes (ofComponents stack.reverse) stack.reverse := by
  induction h with
  | root => exact ⟨rfl, by decide⟩
  | parents count =>
    rw [List.reverse_replicate]
    induction count with
    | zero => exact ⟨rfl, by decide⟩
    | succ count ih =>
      rw [List.replicate_succ', ofComponents_append]
      exact ih.join rfl (by decide)
  | name hname _ ih =>
    rw [List.reverse_cons, ofComponents_append]
    exact ih.join hname.component?_eq hname.no_slash

/-! ## Normal forms -/

/-- A path in normal form: no part is a dot, and the components are names below the root, or names behind
any number of `..`. -/
structure IsNormal (p : Path) : Prop where
  no_dot : [0x2e] ∉ split p.bytes
  exists_names : ∃ names : List Name, (∀ name ∈ names, IsName name) ∧
    ((p.isAbsolute = true ∧ p.components = .root :: names.map .normal) ∨
      (p.isAbsolute = false ∧ ∃ ups, p.components = List.replicate ups .parent ++ names.map .normal))

/-- The root is the first component of absolute paths and no component of the others. -/
theorem isAbsolute_iff {p : Path} : p.isAbsolute = true ↔ p.components.head? = some .root := by
  obtain ⟨inner, hinner, hcomponents⟩ := exists_components p
  rw [hcomponents]
  cases p.isAbsolute with
  | true => simp
  | false =>
    refine ⟨nofun, fun hhead => ?_⟩
    exact (hinner .root (List.mem_of_mem_head? hhead)).elim

/-- A path that goes nowhere is written as the point. -/
theorem normalize_eq_of_nil {p : Path} (h : normalComponents p.components = []) :
    p.normalize = ⟨[0x2e]⟩ := by
  rw [normalize, h]

/-- A path that goes somewhere is written by its normal components. -/
theorem normalize_eq_of_ne_nil {p : Path} (h : normalComponents p.components ≠ []) :
    p.normalize = ofComponents (normalComponents p.components) := by
  rw [normalize]
  split
  · next hnil => exact absurd hnil h
  · rfl

/-- And these are what is read of it. -/
theorem writes_normalize {p : Path} (h : normalComponents p.components ≠ []) :
    Writes p.normalize (normalComponents p.components) := by
  rw [normalize_eq_of_ne_nil h]
  exact (Stack.ofPath p).writes

/-- A path and its normal form both start at the root, or neither does. -/
theorem isAbsolute_normalize (p : Path) : p.normalize.isAbsolute = p.isAbsolute := by
  obtain ⟨names, -, hnames⟩ := (Stack.ofPath p).exists_names
  by_cases hnil : normalComponents p.components = []
  · rw [normalize_eq_of_nil hnil]
    rcases hnames with ⟨-, hstack⟩ | ⟨habsolute, -⟩
    · exact absurd (hstack.symm.trans hnil) (List.cons_ne_nil _ _)
    · rw [habsolute]
      rfl
  · rw [Bool.eq_iff_iff, isAbsolute_iff, (writes_normalize hnil).components_eq, normalComponents]
    rcases hnames with ⟨habsolute, hstack⟩ | ⟨habsolute, ups, hstack⟩
    · rw [hstack, habsolute]
      simp
    · rw [hstack, habsolute]
      refine ⟨fun hhead => ?_, nofun⟩
      have hroot := List.mem_of_mem_head? hhead
      simp at hroot

/-- What is written so is in normal form. -/
theorem isNormal_normalize {p : Path} (h : normalComponents p.components ≠ []) : p.normalize.IsNormal := by
  have hwrites := writes_normalize h
  obtain ⟨names, hnames, hstack⟩ := (Stack.ofPath p).exists_names
  refine ⟨hwrites.no_dot, names, hnames, ?_⟩
  rw [isAbsolute_normalize, hwrites.components_eq]
  exact hstack

/-- What is in normal form is normal already. -/
theorem normalize_normalize (p : Path) : p.normalize.normalize = p.normalize := by
  by_cases hnil : normalComponents p.components = []
  · rw [normalize_eq_of_nil hnil]
    rfl
  · have hcomponents : normalComponents p.normalize.components = normalComponents p.components := by
      rw [(writes_normalize hnil).components_eq]
      exact (Stack.ofPath p).normalComponents_eq
    rw [normalize_eq_of_ne_nil (hcomponents ▸ hnil), hcomponents, ← normalize_eq_of_ne_nil hnil]

/-! ## Places -/

/-- To push a component onto others leads where it leads from where they lead: what is taken back leads
back, and the root has nothing above it. -/
theorem foldl_step_pushNormal (stack : List Component) (c : Component) (place : List Name) :
    (pushNormal stack c).reverse.foldl step place = step (stack.reverse.foldl step place) c := by
  have hadded (d : Component) : (d :: stack).reverse.foldl step place =
      step (stack.reverse.foldl step place) d := by
    rw [List.reverse_cons, List.foldl_append]
    rfl
  cases c with
  | root => exact hadded .root
  | current => rfl
  | normal name => exact hadded (.normal name)
  | parent =>
    cases stack with
    | nil => rfl
    | cons top below =>
      cases top with
      | current | parent => exact hadded .parent
      | root | normal => simp [pushNormal, step]

/-- Components lead where their normal form leads, from every place. -/
theorem foldl_step_normalComponents (components : List Component) (place : List Name) :
    (normalComponents components).foldl step place = components.foldl step place := by
  have hfold (stack : List Component) : (components.foldl pushNormal stack).reverse.foldl step place =
      components.foldl step (stack.reverse.foldl step place) := by
    induction components generalizing stack with
    | nil => rfl
    | cons c components ih => rw [List.foldl_cons, ih, foldl_step_pushNormal, List.foldl_cons]
  exact hfold []

/-- A normal form leads where its path leads. -/
theorem foldl_step_normalize (p : Path) (place : List Name) :
    p.normalize.components.foldl step place = p.components.foldl step place := by
  rw [← foldl_step_normalComponents p.components]
  by_cases hnil : normalComponents p.components = []
  · rw [hnil, normalize_eq_of_nil hnil]
    rfl
  · rw [(writes_normalize hnil).components_eq]

/-- Dots lead nowhere. -/
theorem foldl_step_filter (components : List Component) (place : List Name) :
    (components.filter (· ≠ .current)).foldl step place = components.foldl step place := by
  induction components generalizing place with
  | nil => rfl
  | cons c components ih =>
    by_cases hc : c = .current
    · subst hc
      exact ih place
    · rw [List.filter_cons_of_pos (by simpa using hc), List.foldl_cons, List.foldl_cons, ih]

/-- A relative path leads on from where its base leads. -/
theorem resolve_join {base q : Path} (hbase : base.bytes ≠ []) (hq : q.isAbsolute = false) :
    resolve (base.join q).components = q.components.foldl step (resolve base.components) := by
  rw [resolve, components_join hbase hq, List.foldl_append, ← filter_components hq, foldl_step_filter]
  rfl

/-- The normal form of a path is a dot alone or has no dots, and has `..` only in front and only if it is
relative. It is its own normal form, it is absolute if the path is, and from every absolute base it leads to
the same place. -/
theorem normalize_canonical (p : Path) :
    (p.normalize = ⟨[0x2e]⟩ ∨ p.normalize.IsNormal) ∧ p.normalize.normalize = p.normalize ∧
    p.normalize.isAbsolute = p.isAbsolute ∧
    ∀ base : Path, base.isAbsolute = true →
      resolve (base.join p.normalize).components = resolve (base.join p).components := by
  refine ⟨?_, normalize_normalize p, isAbsolute_normalize p, fun base hbase => ?_⟩
  · by_cases hnil : normalComponents p.components = []
    · exact .inl (normalize_eq_of_nil hnil)
    · exact .inr (isNormal_normalize hnil)
  · have hsame := isAbsolute_normalize p
    cases habsolute : p.isAbsolute with
    | true =>
      rw [habsolute] at hsame
      rw [join_of_isAbsolute base hsame, join_of_isAbsolute base habsolute]
      exact foldl_step_normalize p []
    | false =>
      rw [habsolute] at hsame
      have hne := bytes_ne_nil_of_isAbsolute hbase
      rw [resolve_join hne hsame, resolve_join hne habsolute, foldl_step_normalize]

/-- From a base that is left by more `..` than it has names, the path and its normal form `../../b` lead to
the same place. -/
theorem normalize_canonical_above :
    let p := ofText "./a/..//../../a/.././b/"
    p.normalize = ofText "../../b" ∧ (ofText "/x").isAbsolute = true ∧
      resolve ((ofText "/x").join p.normalize).components = resolve ((ofText "/x").join p).components ∧
      resolve ((ofText "/x").join p).components = [Utf8.encode "b"] := by
  intro p
  obtain ⟨-, -, -, hplace⟩ := normalize_canonical p
  exact ⟨by decide +kernel, rfl, hplace (ofText "/x") rfl, by decide +kernel⟩

end Keyring.Path
