import Keyring.Json.Reader

/-!
# Reading any value

A value of any type is read whole. Containers may stand inside each other as deep as the reader is told; a
container that goes deeper is refused at its bracket.
-/

namespace Keyring.Json.Reader

variable {α : Type}

/-- The further items of a list, each read by `item`, after those in `read`, last one first. Each
takes a byte or more, so that as many steps as there are bytes are enough. -/
def items (item : Reader α) : (steps : Nat) → (isFirst : Bool) → (read : List α) → Reader (List α)
  | 0, _, _ => fail .endInList
  | steps + 1, isFirst, read => do
    if ← nextItem isFirst then
      let a ← item
      items item steps false (a :: read)
    else pure read.reverse

/-- The further members of an object, like the items of a list. -/
def members (value : Reader α) :
    (steps : Nat) → (isFirst : Bool) → (read : List (String × α)) → Reader (List (String × α))
  | 0, _, _ => fail .endInObject
  | steps + 1, isFirst, read => do
    match ← nextName isFirst with
    | some name =>
      colon
      let a ← value
      members value steps false ((name, a) :: read)
    | none => pure read.reverse

/-- A value whose items or members are read by `inner`; without it a container is refused. -/
def valueOver (inner : Option (Reader Json)) : Reader Json := do
  match ← peekSolid with
  | none => failAhead .endInValue
  | some first =>
    if first = 0x6e then skip; word [0x75, 0x6c, 0x6c]; pure .null
    else if first = 0x74 then skip; word [0x72, 0x75, 0x65]; pure (.bool true)
    else if first = 0x66 then skip; word [0x61, 0x6c, 0x73, 0x65]; pure (.bool false)
    else if first = 0x2d || isDigit first then Json.number <$> number first
    else if first = 0x22 then skip; Json.string <$> stringRest
    else if first = 0x5b then
      match inner with
      | none => failAhead .tooDeep
      | some inner =>
        skip
        Json.array <$> closing (fun rest => items inner (rest.length + 1) true [] rest) listEnd
    else if first = 0x7b then
      match inner with
      | none => failAhead .tooDeep
      | some inner =>
        skip
        Json.object <$> closing (fun rest => members inner (rest.length + 1) true [] rest) objectEnd
    else failAhead .noValue

/-- A value in which at most `depth` containers stand inside each other. -/
def value : (depth : Nat) → Reader Json
  | 0 => valueOver none
  | depth + 1 => valueOver (some (value depth))

end Keyring.Json.Reader
