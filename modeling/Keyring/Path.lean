import Keyring.Text.Utf8

/-!
# Paths

A path is a byte string in which slashes separate the parts. Its components are the root if it starts
with a slash, and the parts that are neither empty nor a dot; a dot counts only as the first part of a
relative path. `normalize` folds each `..` with the part before it, without looking at any disk, and
`resolve` tells the place that a path leads to in the same lexical sense.
-/

namespace Keyring

/-- The name of a directory entry. -/
abbrev Name := Bytes

/-- A path as it is written. -/
structure Path where
  bytes : Bytes
deriving DecidableEq

namespace Path

/-- What a path is made of. -/
inductive Component where
  | root
  | current
  | parent
  | normal (name : Name)
deriving DecidableEq

/-- The separator. -/
def slash : UInt8 := 0x2f

/-- The path of a text. -/
def ofText (s : String) : Path :=
  ⟨Utf8.encode s⟩

/-- The text that shows a path. -/
def display (p : Path) : String :=
  Utf8.decodeLossy p.bytes

/-- The path starts at the root. -/
def isAbsolute (p : Path) : Bool :=
  p.bytes.head? = some slash

/-- The parts between the separators. -/
def split : Bytes → List Bytes
  | [] => [[]]
  | b :: rest =>
    if b = slash then [] :: split rest
    else
      match split rest with
      | part :: parts => (b :: part) :: parts
      | [] => [[b]]

/-- What a part stands for after the first place; empty parts and dots stand for nothing. -/
def component? (part : Bytes) : Option Component :=
  if part = [] ∨ part = [0x2e] then none
  else if part = [0x2e, 0x2e] then some .parent
  else some (.normal part)

/-- What a path starts with, by its first part: the root, a dot, or any other part. -/
def firstComponent (bytes : Bytes) (part : Bytes) : List Component :=
  if bytes.head? = some slash then [.root]
  else if part = [0x2e] then [.current]
  else (component? part).toList

/-- The components of a path. -/
def components (p : Path) : List Component :=
  match split p.bytes with
  | part :: parts => firstComponent p.bytes part ++ parts.filterMap component?
  | [] => []

/-- The paths are made of the same components, however they are written. -/
def isSame (p q : Path) : Bool :=
  p.components = q.components

/-- The path that goes on from `p` by `q`; an absolute `q` starts anew. -/
def join (p q : Path) : Path :=
  if q.isAbsolute then q
  else if p.bytes = [] ∨ p.bytes.getLast? = some slash then ⟨p.bytes ++ q.bytes⟩
  else ⟨p.bytes ++ slash :: q.bytes⟩

/-- The path that goes on from `p` to an entry. -/
def joinName (p : Path) (name : Name) : Path :=
  p.join ⟨name⟩

/-- How a component is written. -/
def Component.bytes : Component → Bytes
  | root => [slash]
  | current => [0x2e]
  | parent => [0x2e, 0x2e]
  | normal name => name

/-- The path of the components. -/
def ofComponents (components : List Component) : Path :=
  components.foldl (fun p c => p.join ⟨c.bytes⟩) ⟨[]⟩

/-- Adds a component to normal ones, which are given last one first: a dot adds nothing, `..` takes
away a name, adds nothing to the root, and is kept otherwise. -/
def pushNormal (normal : List Component) : Component → List Component
  | .current => normal
  | .parent =>
    match normal with
    | .normal _ :: rest => rest
    | .root :: _ => normal
    | _ => .parent :: normal
  | c => c :: normal

/-- The normal form of components. -/
def normalComponents (components : List Component) : List Component :=
  (components.foldl pushNormal []).reverse

/-- The path without dots and with each `..` folded with the name before it; a dot alone if nothing else is
left. Reference: `normalize`. -/
def normalize (p : Path) : Path :=
  match normalComponents p.components with
  | [] => ⟨[0x2e]⟩
  | components => ofComponents components

/-- Goes one component on from a place, which is given by its names below the root, last one first. -/
def step (place : List Name) : Component → List Name
  | .root => []
  | .current => place
  | .parent => place.tail
  | .normal name => name :: place

/-- The place that components lead to from the root, by its names, last one first. -/
def resolve (components : List Component) : List Name :=
  components.foldl step []

end Path

end Keyring
