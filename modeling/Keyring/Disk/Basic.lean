import Keyring.Path

/-!
# A disk

A disk holds files and directories at places below its root. A place is the list of names that leads
to it, last one first, so that an entry of a directory is a name put before the directory's place. The
names in a directory are listed in no particular order, which may be another one after each change. One
directory is worked in: it stays the same one when it is moved, and even when it is removed, though
there is no place for it any more.
-/

namespace Keyring

/-- A place below the root, by its names, last one first. -/
abbrev Place := List Name

/-- What is at a place. -/
inductive Node where
  | file (mode : Nat) (content : Bytes)
  | directory (mode : Nat)
deriving DecidableEq

/-- The node with another mode. -/
def Node.withMode (mode : Nat) : Node → Node
  | .file _ content => .file mode content
  | .directory _ => .directory mode

/-- A directory that something is looked up from: the one at a place, or a removed one that was below
it. -/
structure Standpoint where
  place : Place
  /-- How many removed directories lead to it from the place. -/
  removed : Nat
deriving DecidableEq

/-- An order in which the names in a directory are listed. It may be any, as long as it tells every name. -/
structure ListingOrder where
  arrange : List Name → List Name
  perm : ∀ names, (arrange names).Perm names

/-- The order in which the names came. -/
def ListingOrder.byAge : ListingOrder := ⟨id, List.Perm.refl⟩

/-- The files and directories below the root, and the directory that is worked in. The root itself is
always a directory. -/
structure Disk where
  nodes : List (Place × Node)
  distinct : (nodes.map (·.1)).Nodup
  /-- Where relative paths start. -/
  work : Standpoint
  /-- The order in which a directory is listed now, and after each change to come. So a new name may be listed
  anywhere, and the others anew. -/
  orders : Nat → ListingOrder

namespace Disk

/-- The empty disk, worked on in a directory that is still to come. -/
def empty (work : Place) : Disk := ⟨[], List.nodup_nil, ⟨work, 0⟩, fun _ => .byAge⟩

/-- The mode of the root, and of directories that are made on the way to another. -/
def directoryMode : Nat := 0o755

/-- The node of a place among nodes. -/
def find? (place : Place) : List (Place × Node) → Option Node
  | [] => none
  | (other, node) :: rest => if place = other then some node else find? place rest

/-- What is at a place. -/
def get? (disk : Disk) (place : Place) : Option Node :=
  if place = [] then some (.directory directoryMode) else find? place disk.nodes

/-- Nodes with a node at a place. -/
def putNode (place : Place) (node : Node) : List (Place × Node) → List (Place × Node)
  | [] => [(place, node)]
  | (other, old) :: rest =>
    if place = other then (place, node) :: rest else (other, old) :: putNode place node rest

/-- Putting a node adds its place, unless it is there already. -/
theorem places_putNode (place : Place) (node : Node) (nodes : List (Place × Node)) :
    (putNode place node nodes).map (·.1) =
      if place ∈ nodes.map (·.1) then nodes.map (·.1) else nodes.map (·.1) ++ [place] := by
  induction nodes with
  | nil => simp [putNode]
  | cons head rest ih =>
    obtain ⟨other, old⟩ := head
    by_cases h : place = other
    · simp [putNode, h]
    · simp only [putNode, h, if_false, List.map_cons, ih, List.mem_cons, false_or]
      split <;> simp

/-- So no place is there twice. -/
theorem distinct_putNode (place : Place) (node : Node) {nodes : List (Place × Node)}
    (h : (nodes.map (·.1)).Nodup) : ((putNode place node nodes).map (·.1)).Nodup := by
  rw [places_putNode]
  split
  · exact h
  · next hmem =>
    refine List.nodup_append.2 ⟨h, by simp, fun a ha b hb => ?_⟩
    rintro rfl
    exact hmem (List.mem_singleton.1 hb ▸ ha)

/-- The orders of listings after a change. -/
def nextOrders (disk : Disk) : Nat → ListingOrder :=
  fun changes => disk.orders (changes + 1)

/-- Puts a node at a place, instead of what is there. -/
def put (disk : Disk) (place : Place) (node : Node) : Disk :=
  ⟨putNode place node disk.nodes, distinct_putNode place node disk.distinct, disk.work, disk.nextOrders⟩

/-- The disk with the nodes at places that pass. -/
def filter (disk : Disk) (keep : Place → Bool) : Disk :=
  ⟨disk.nodes.filter fun entry => keep entry.1, disk.distinct.sublist (List.filter_sublist.map _),
    disk.work, disk.nextOrders⟩

/-- Takes away what is at a place. -/
def erase (disk : Disk) (place : Place) : Disk :=
  disk.filter fun other => other ≠ place

/-- What is found after a node was put is that node, or what was found before. -/
theorem find?_putNode (place other : Place) (node : Node) (nodes : List (Place × Node)) :
    find? other (putNode place node nodes) =
      if other = place then some node else find? other nodes := by
  induction nodes with
  | nil => simp [putNode, find?]
  | cons head rest ih =>
    obtain ⟨here, old⟩ := head
    by_cases h : place = here
    · subst h
      by_cases ho : other = place <;> simp [putNode, find?, ho]
    · by_cases ho : other = here
      · subst ho
        simp [putNode, find?, h, Ne.symm h]
      · simp [putNode, find?, h, ho, ih]

/-- After something was put at a place, it is there, and all else is as before. -/
theorem get?_put (disk : Disk) (place other : Place) (node : Node) (h : place ≠ []) :
    (disk.put place node).get? other = if other = place then some node else disk.get? other := by
  unfold get? put
  by_cases ho : other = []
  · subst ho
    simp [Ne.symm h]
  · simp [ho, find?_putNode]

/-- What was put under a name is found there. -/
@[simp] theorem get?_put_self {disk : Disk} {name : Name} {place : Place} {node : Node} :
    (disk.put (name :: place) node).get? (name :: place) = some node := by
  rw [get?_put _ _ _ _ (List.cons_ne_nil _ _), if_pos rfl]

/-- Elsewhere nothing is changed by it. -/
theorem get?_put_of_ne {disk : Disk} {name : Name} {place other : Place} {node : Node}
    (h : other ≠ name :: place) : (disk.put (name :: place) node).get? other = disk.get? other := by
  rw [get?_put _ _ _ _ (List.cons_ne_nil _ _), if_neg h]

/-- What is found among the nodes that are kept is what was found, if its place is kept. -/
theorem find?_filter (keep : Place → Bool) (place : Place) (nodes : List (Place × Node)) :
    find? place (nodes.filter fun entry => keep entry.1) =
      if keep place then find? place nodes else none := by
  induction nodes with
  | nil => simp [find?]
  | cons head rest ih =>
    obtain ⟨other, node⟩ := head
    by_cases h : place = other
    · subst h
      by_cases hk : keep place = true <;> simp_all [List.filter, find?]
    · by_cases hk : keep other = true <;> simp_all [List.filter, find?]

/-- After a place was cleared, there is nothing in it, and all else is as before. -/
theorem get?_erase (disk : Disk) (place other : Place) (h : place ≠ []) :
    (disk.erase place).get? other = if other = place then none else disk.get? other := by
  unfold get? erase filter
  by_cases ho : other = []
  · subst ho
    simp [Ne.symm h]
  · have hfind := find?_filter (fun here => decide (here ≠ place)) other disk.nodes
    by_cases hp : other = place <;> simp_all

/-- Nothing is found under a name that was taken away. -/
@[simp] theorem get?_erase_self {disk : Disk} {name : Name} {place : Place} :
    (disk.erase (name :: place)).get? (name :: place) = none := by
  rw [get?_erase _ _ _ (List.cons_ne_nil _ _), if_pos rfl]

/-- Elsewhere nothing is changed by it. -/
theorem get?_erase_of_ne {disk : Disk} {name : Name} {place other : Place} (h : other ≠ name :: place) :
    (disk.erase (name :: place)).get? other = disk.get? other := by
  rw [get?_erase _ _ _ (List.cons_ne_nil _ _), if_neg h]

/-- The name that a place has in a directory. -/
def nameIn? (place : Place) : Place → Option Name
  | name :: parent => if parent = place then some name else none
  | [] => none

/-- The names of the entries of the directory at a place, in the order in which they are listed. -/
def names (disk : Disk) (place : Place) : List Name :=
  (disk.orders 0).arrange (disk.nodes.filterMap fun entry => nameIn? place entry.1)

end Disk

end Keyring
