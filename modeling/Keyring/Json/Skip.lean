import Keyring.Json.Reader

/-!
# Skipping a value

The value of a member that nobody asks for is read past. Its brackets, words, numbers and strings have
to be well formed, but no number is too large, no string has to be valid UTF-8, and containers may be
nested to any depth: the open ones are kept in a list.
-/

namespace Keyring.Json.Reader

/-- A kind of container. -/
inductive Container where
  | list
  | object
deriving DecidableEq

/-- Reads past the rest of a string whose opening quote has been read. -/
def skipStringBytes : Bytes → EStateM.Result Problem Bytes Unit
  | [] => fail .endInString []
  | b :: rest =>
    if b = 0x22 then .ok () rest
    else if b < 0x20 then fail .controlCharacter (b :: rest)
    else if b ≠ 0x5c then skipStringBytes rest
    else
      match rest with
      | [] => fail .endInString []
      | letter :: rest =>
        if (shortEscape? letter).isSome then skipStringBytes rest
        else if letter ≠ 0x75 then fail .badEscape rest
        else
          match rest with
          | d0 :: d1 :: d2 :: d3 :: rest =>
            if (hexValue4? d0 d1 d2 d3).isSome then skipStringBytes rest else fail .badEscape rest
          | _ => fail .endInString []

/-- Reads past an exponent, whose letter is next. -/
def skipExponent : Reader Unit := do
  skip
  let sign ← peek
  if sign = some 0x2b || sign = some 0x2d then skip
  match ← next with
  | some b =>
    if isDigit b then
      let _ ← skipDigits
    else fail .badNumber
  | none => fail .badNumber

/-- Reads past what follows the first part of a number. -/
def skipFraction : Reader Unit := do
  match ← peek with
  | some 0x2e =>
    skip
    let count ← skipDigits
    if count = 0 then failAhead .badNumber
    else
      match ← peek with
      | some 0x65 | some 0x45 => skipExponent
      | _ => pure ()
  | some 0x65 | some 0x45 => skipExponent
  | _ => pure ()

/-- Reads past a number whose sign has been read. -/
def skipNumber : Reader Unit := do
  match ← next with
  | some b =>
    if !isDigit b then fail .badNumber
    else if b = 0x30 then
      match ← peek with
      | some d => if isDigit d then failAhead .badNumber else skipFraction
      | none => skipFraction
    else
      let _ ← skipDigits
      skipFraction
  | none => fail .badNumber

/-- Reads past a member's name and the colon after it. -/
def skipName : Reader Unit := do
  match ← peekSolid with
  | some 0x22 =>
    skip
    skipStringBytes
    colon
  | some _ => failAhead .keyNotString
  | none => failAhead .endInObject

/-- Goes on after a value inside the `containers` that are open, innermost first: past the ends of
some, and past a comma and a name to the next value, unless all have ended. -/
def skipEnds : (containers : List Container) → Reader (Option (List Container))
  | [] => pure none
  | .list :: outer => do
    match ← peekSolid with
    | some 0x2c => skip; pure (some (.list :: outer))
    | some 0x5d => skip; skipEnds outer
    | some _ => failAhead .noListComma
    | none => failAhead .endInList
  | .object :: outer => do
    match ← peekSolid with
    | some 0x2c => skip; skipName; pure (some (.object :: outer))
    | some 0x7d => skip; skipEnds outer
    | some _ => failAhead .noObjectComma
    | none => failAhead .endInObject

/-- Reads past a value without items, or past the beginning of a container up to the first value in
it; in the second case the containers that are then open are told. -/
def skipStart (first : UInt8) (containers : List Container) : Reader (Option (List Container)) := do
  if first = 0x5b then
    skip
    match ← peekSolid with
    | some 0x5d => skip; skipEnds containers
    | some _ => pure (some (.list :: containers))
    | none => failAhead .endInList
  else if first = 0x7b then
    skip
    match ← peekSolid with
    | some 0x7d => skip; skipEnds containers
    | some _ => skipName; pure (some (.object :: containers))
    | none => failAhead .endInObject
  else
    if first = 0x6e then skip; word [0x75, 0x6c, 0x6c]
    else if first = 0x74 then skip; word [0x72, 0x75, 0x65]
    else if first = 0x66 then skip; word [0x61, 0x6c, 0x73, 0x65]
    else if first = 0x2d then skip; skipNumber
    else if isDigit first then skipNumber
    else if first = 0x22 then skip; skipStringBytes
    else failAhead .noValue
    skipEnds containers

/-- Reads past values until no container is open. Each value takes a byte or more, so that as many
steps as there are bytes are enough. -/
def skipValues : (steps : Nat) → (containers : List Container) → Reader Unit
  | 0, _ => fail .endInValue
  | steps + 1, containers => do
    match ← peekSolid with
    | none => failAhead .endInValue
    | some first =>
      match ← skipStart first containers with
      | none => pure ()
      | some containers => skipValues steps containers

/-- Reads past a value. -/
def skipValue : Reader Unit := fun rest =>
  skipValues (rest.length + 1) [] rest

end Keyring.Json.Reader
