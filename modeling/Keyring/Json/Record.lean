import Keyring.Json.Reader
import Keyring.Json.Skip

/-!
# Reading records

A record type has named members. It is read from an object, whose members may come in any order and
among others that are skipped, or from a list of the members' values in the order of the type. What
has been read so far is held in a value of a second type `ρ`, in which every member may be missing.
-/

namespace Keyring.Json

variable {ρ α : Type}

/-- A member of a record type. -/
structure Member (ρ : Type) where
  /-- The name. -/
  name : String
  /-- Another spelling of the name. -/
  otherName : Option String
  /-- It has been read. -/
  isSet : ρ → Bool
  /-- Reads its value, in which at most the given number of containers stand inside each other. -/
  read : (depth : Nat) → ρ → Reader ρ

/-- A record type. -/
structure Record (ρ α : Type) where
  /-- What a value of the type is called. -/
  title : String
  /-- The members in order. -/
  members : List (Member ρ)
  /-- Nothing read yet. -/
  empty : ρ
  /-- The record, or the name of the first member that is missing. -/
  build : ρ → Except String α

/-- The member, or the complaint that there is none of this name. -/
def require {β : Type} (name : String) : Option β → Except String β
  | some b => .ok b
  | none => .error name

namespace Record

/-- The member that a name in an object stands for. -/
def find? (record : Record ρ α) (name : String) : Option (Member ρ) :=
  record.members.find? fun m => m.name = name || m.otherName = some name

/-- What a list of the members' values is called. -/
def listTitle (record : Record ρ α) : String :=
  let count := record.members.length
  record.title ++ " with " ++ toString count ++ (if count = 1 then " element" else " elements")

open Reader

/-- The record of what was read from an object. -/
def ofMembers (record : Record ρ α) (parts : ρ) : Reader α :=
  match record.build parts with
  | .ok a => pure a
  | .error name => refuse (.missingMember name)

/-- The record of what was read from a list. -/
def ofItems (record : Record ρ α) (parts : ρ) : Reader α :=
  match record.build parts with
  | .ok a => pure a
  | .error name =>
    refuse (.wrongLength (record.members.findIdx fun m => m.name = name) record.listTitle)

/-- The further members of an object. Each takes a byte or more, so that as many steps as there are
bytes are enough. -/
def readMembers (record : Record ρ α) (depth : Nat) :
    (steps : Nat) → (isFirst : Bool) → (parts : ρ) → Reader α
  | 0, _, _ => fail .endInObject
  | steps + 1, isFirst, parts => do
    match ← nextName isFirst with
    | none => record.ofMembers parts
    | some name =>
      match record.find? name with
      | none =>
        colon
        skipValue
        readMembers record depth steps false parts
      | some m =>
        if m.isSet parts then refuse (.repeatedMember m.name)
        else
          colon
          let parts ← m.read depth parts
          readMembers record depth steps false parts

/-- The values of the given members, as far as the list goes. -/
def readItems (depth : Nat) : (members : List (Member ρ)) → (isFirst : Bool) → (parts : ρ) → Reader ρ
  | [], _, parts => pure parts
  | m :: members, isFirst, parts => do
    if ← nextItem isFirst then
      let parts ← m.read depth parts
      readItems depth members false parts
    else pure parts

/-- A record in which at most `depth` containers stand inside each other, itself among them. -/
def read (record : Record ρ α) (depth : Nat) : Reader α := do
  match ← peekSolid with
  | none => failAhead .endInValue
  | some first =>
    if first = 0x5b then
      match depth with
      | 0 => failAhead .tooDeep
      | depth + 1 =>
        skip
        blame <| closing
          (do let parts ← readItems depth record.members true record.empty
              record.ofItems parts)
          listEnd
    else if first = 0x7b then
      match depth with
      | 0 => failAhead .tooDeep
      | depth + 1 =>
        skip
        blame <| closing
          (fun rest => record.readMembers depth (rest.length + 1) true record.empty rest)
          objectEnd
    else wrongType first record.title

/-- A text that holds a record and nothing else, in which at most 127 containers stand inside each
other. -/
def readText (record : Record ρ α) (text : Bytes) : Except Fault α :=
  let reader : Reader α := do
    let a ← record.read 127
    textEnd
    pure a
  match reader text with
  | .ok a _ => .ok a
  | .error p _ => .error (p.fault text)

end Record

end Keyring.Json
