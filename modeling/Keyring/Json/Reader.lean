import Keyring.Json.Problem

/-!
# Reading JSON: the parts of a text

A reader takes bytes off the front of what is left of a text. What is left is kept when it fails too,
because a value that is refused for what it says is blamed on the place that reading has reached
(`blame`). This module reads blanks, words, strings and numbers, and the ends of containers.
-/

namespace Keyring.Json

/-- An action on what is left of a text. -/
abbrev Reader := EStateM Problem Bytes

namespace Reader

variable {α : Type}

/-! ## Failing -/

/-- Fails here. -/
def fail (cause : Cause) : Reader α := fun rest =>
  .error ⟨cause, some rest.length⟩ rest

/-- Fails at the next byte, if there is one. -/
def failAhead (cause : Cause) : Reader α := fun rest =>
  .error ⟨cause, some (rest.length - 1)⟩ rest

/-- Refuses what was read; the place is left open. -/
def refuse (cause : Cause) : Reader α := fun rest =>
  .error ⟨cause, none⟩ rest

/-- Gives a problem without a place the place where the reader has stopped. -/
def blame (reader : Reader α) : Reader α := fun rest =>
  match reader rest with
  | .ok a rest => .ok a rest
  | .error ⟨cause, none⟩ rest => .error ⟨cause, some rest.length⟩ rest
  | .error p rest => .error p rest

/-- Reads what ends a container also after a failure in it, whose problem then stays. -/
def closing (body : Reader α) (ending : Reader Unit) : Reader α := fun rest =>
  match body rest with
  | .ok a rest =>
    match ending rest with
    | .ok _ rest => .ok a rest
    | .error p rest => .error p rest
  | .error p rest =>
    match ending rest with
    | .ok _ rest => .error p rest
    | .error _ rest => .error p rest

/-! ## Bytes -/

/-- The byte is space, tab, line feed or carriage return. -/
def isBlank (b : UInt8) : Bool :=
  b = 0x20 || b = 0x09 || b = 0x0a || b = 0x0d

/-- The byte is a decimal digit. -/
def isDigit (b : UInt8) : Bool :=
  0x30 ≤ b && b ≤ 0x39

/-- The next byte, which stays unread. -/
def peek : Reader (Option UInt8) := fun rest =>
  .ok rest.head? rest

/-- The next byte that is not blank, which stays unread. -/
def peekSolid : Reader (Option UInt8) := fun rest =>
  let rest := rest.dropWhile isBlank
  .ok rest.head? rest

/-- Drops a byte. -/
def skip : Reader Unit := fun rest =>
  .ok () rest.tail

/-- Takes a byte. -/
def next : Reader (Option UInt8) := fun rest =>
  .ok rest.head? rest.tail

/-- Takes the given bytes. -/
def word : List UInt8 → Reader Unit
  | [] => pure ()
  | expected :: more => do
    match ← next with
    | none => fail .endInValue
    | some b => if b = expected then word more else fail .badWord

/-! ## Strings -/

/-- The value of a hexadecimal digit. -/
def hexValue? (b : UInt8) : Option Nat :=
  if isDigit b then some (b.toNat - 0x30)
  else if 0x61 ≤ b && b ≤ 0x66 then some (b.toNat - 0x57)
  else if 0x41 ≤ b && b ≤ 0x46 then some (b.toNat - 0x37)
  else none

/-- The value of four hexadecimal digits. -/
def hexValue4? (b0 b1 b2 b3 : UInt8) : Option Nat :=
  match hexValue? b0, hexValue? b1, hexValue? b2, hexValue? b3 with
  | some n0, some n1, some n2, some n3 => some (((n0 * 16 + n1) * 16 + n2) * 16 + n3)
  | _, _, _, _ => none

/-- What the letter after a backslash stands for, unless it starts a number. -/
def shortEscape? (b : UInt8) : Option UInt8 :=
  if b = 0x22 then some 0x22
  else if b = 0x5c then some 0x5c
  else if b = 0x2f then some 0x2f
  else if b = 0x62 then some 0x08
  else if b = 0x66 then some 0x0c
  else if b = 0x6e then some 0x0a
  else if b = 0x72 then some 0x0d
  else if b = 0x74 then some 0x09
  else none

/-- The number is the first of a surrogate pair. -/
def isHighSurrogate (n : Nat) : Bool :=
  0xd800 ≤ n && n ≤ 0xdbff

/-- The number is the second of a surrogate pair. -/
def isLowSurrogate (n : Nat) : Bool :=
  0xdc00 ≤ n && n ≤ 0xdfff

/-- The bytes of the character with the given number, last one first, before those already read. -/
def pushChar (read : Bytes) (n : Nat) : Bytes :=
  (Utf8.encodeChar (Char.ofNat n)).reverse ++ read

/-- The number of the character that a surrogate pair stands for. -/
def joinSurrogates (high low : Nat) : Nat :=
  0x10000 + (high - 0xd800) * 0x400 + (low - 0xdc00)

/-- The bytes up to the closing quote with the escapes resolved; `read` holds those before, last one
first. -/
def stringBytes (read : Bytes) : Bytes → EStateM.Result Problem Bytes Bytes
  | [] => fail .endInString []
  | b :: rest =>
    if b = 0x22 then .ok read.reverse rest
    else if b < 0x20 then fail .controlCharacter rest
    else if b ≠ 0x5c then stringBytes (b :: read) rest
    else
      match rest with
      | [] => fail .endInString []
      | letter :: rest =>
        match shortEscape? letter with
        | some c => stringBytes (c :: read) rest
        | none =>
          if letter ≠ 0x75 then fail .badEscape rest
          else
            match rest with
            | d0 :: d1 :: d2 :: d3 :: rest =>
              match hexValue4? d0 d1 d2 d3 with
              | none => fail .badEscape rest
              | some n =>
                if isLowSurrogate n then fail .loneSurrogate rest
                else if !isHighSurrogate n then stringBytes (pushChar read n) rest
                else
                  match rest with
                  | [] => fail .endInString []
                  | backslash :: rest =>
                    if backslash ≠ 0x5c then fail .unpairedSurrogate rest
                    else
                      match rest with
                      | [] => fail .endInString []
                      | letter :: rest =>
                        if letter ≠ 0x75 then fail .unpairedSurrogate rest
                        else
                          match rest with
                          | e0 :: e1 :: e2 :: e3 :: rest =>
                            match hexValue4? e0 e1 e2 e3 with
                            | none => fail .badEscape rest
                            | some low =>
                              if !isLowSurrogate low then fail .loneSurrogate rest
                              else stringBytes (pushChar read (joinSurrogates n low)) rest
                          | _ => fail .endInString []
            | _ => fail .endInString []

/-- A string whose opening quote has been read. -/
def stringRest : Reader String := fun rest =>
  match stringBytes [] rest with
  | .error p rest => .error p rest
  | .ok bytes rest =>
    match Utf8.decode? bytes with
    | some s => .ok s rest
    | none => fail .notUtf8 rest

/-! ## Numbers -/

/-- Digits that were read. -/
structure Digits where
  /-- The number that they and the digits before them make up. -/
  value : Nat
  /-- How many there are. -/
  count : Nat
  /-- A further digit would make the number too large. -/
  full : Bool

/-- The digits at the front, as long as the number stays at most `limit`. -/
def digitsOnto (limit value count : Nat) : Bytes → Digits × Bytes
  | [] => (⟨value, count, false⟩, [])
  | b :: rest =>
    if !isDigit b then (⟨value, count, false⟩, b :: rest)
    else
      let larger := 10 * value + (b.toNat - 0x30)
      if larger > limit then (⟨value, count, true⟩, b :: rest)
      else digitsOnto limit larger (count + 1) rest

/-- Takes digits that continue the number `value`, as long as it stays at most `limit`. -/
def digits (limit value : Nat) : Reader Digits := fun rest =>
  let (digits, rest) := digitsOnto limit value 0 rest
  .ok digits rest

/-- Takes all digits at the front and tells their number. -/
def skipDigits : Reader Nat := fun rest =>
  .ok (rest.takeWhile isDigit).length (rest.dropWhile isDigit)

/-- The largest integer that is kept as one. -/
def maxInteger : Nat := 2 ^ 64 - 1

/-- The largest exponent that is read. -/
def maxExponent : Nat := 2 ^ 31 - 1

/-- The number of double precision of the given digits and exponent. -/
def real (isNegative : Bool) (value : Nat) (exponent : Int) : Reader Number :=
  match Binary64.ofDecimal value exponent with
  | some magnitude => pure (.real isNegative magnitude)
  | none => fail .numberOutOfRange

/-- What follows the letter of the exponent. -/
def exponentPart (isNegative : Bool) (value : Nat) (exponent : Int) : Reader Number := do
  skip
  let sign ← peek
  if sign = some 0x2b || sign = some 0x2d then skip
  let isDown := sign = some 0x2d
  match ← next with
  | none => fail .endInValue
  | some b =>
    if !isDigit b then fail .badNumber
    else
      let size ← digits maxExponent (b.toNat - 0x30)
      if size.full then
        skip
        if value ≠ 0 ∧ !isDown then fail .numberOutOfRange
        else
          let _ ← skipDigits
          pure (.real isNegative .zero)
      else if isDown then real isNegative value (exponent - size.value)
      else real isNegative value (exponent + size.value)

/-- An exponent, if there is one. -/
def exponentOption (isNegative : Bool) (value : Nat) (exponent : Int) : Reader Number := do
  match ← peek with
  | some 0x65 | some 0x45 => exponentPart isNegative value exponent
  | _ => real isNegative value exponent

/-- What follows the point: digits, as many as there is room for, and an exponent. -/
def fractionPart (isNegative : Bool) (value : Nat) (exponent : Int) : Reader Number := do
  skip
  let fraction ← digits maxInteger value
  if fraction.full then
    let _ ← skipDigits
    exponentOption isNegative fraction.value (exponent - fraction.count)
  else if fraction.count = 0 then
    match ← peek with
    | some _ => failAhead .badNumber
    | none => failAhead .endInValue
  else exponentOption isNegative fraction.value (exponent - fraction.count)

/-- The integer of the given size, which is not an integer if it is too small or minus zero. -/
def integer (isNegative : Bool) (value : Nat) : Number :=
  if !isNegative then .natural value
  else if value = 0 ∨ value > 2 ^ 63 then
    .real true ((Binary64.round value 1).getD .zero)
  else .negative value

/-- A number whose sign has been read. -/
def numberRest (isNegative : Bool) : Reader Number := do
  match ← next with
  | none => fail .endInValue
  | some b =>
    if !isDigit b then fail .badNumber
    else if b = 0x30 then
      match ← peek with
      | some d => if isDigit d then failAhead .badNumber else afterInteger 0 0
      | none => afterInteger 0 0
    else
      let whole ← digits maxInteger (b.toNat - 0x30)
      if whole.full then
        let more ← skipDigits
        afterLongInteger whole.value more
      else afterInteger whole.value 0
where
  /-- What follows an integer that is kept whole. -/
  afterInteger (value : Nat) (exponent : Int) : Reader Number := do
    match ← peek with
    | some 0x2e => fractionPart isNegative value exponent
    | some 0x65 | some 0x45 => exponentPart isNegative value exponent
    | _ => pure (integer isNegative value)
  /-- What follows an integer whose last digits were dropped. -/
  afterLongInteger (value : Nat) (exponent : Int) : Reader Number := do
    match ← peek with
    | some 0x2e => fractionPart isNegative value exponent
    | some 0x65 | some 0x45 => exponentPart isNegative value exponent
    | _ => real isNegative value exponent

/-- A number that starts with the given byte, a digit or a minus, which is still unread. -/
def number (first : UInt8) : Reader Number :=
  if first = 0x2d then do skip; numberRest true else numberRest false

/-! ## Containers -/

/-- The end of a list. -/
def listEnd : Reader Unit := do
  match ← peekSolid with
  | some 0x5d => skip
  | some 0x2c => do
    skip
    match ← peekSolid with
    | some 0x5d => failAhead .trailingComma
    | _ => failAhead .trailingCharacters
  | some _ => failAhead .trailingCharacters
  | none => failAhead .endInList

/-- The end of an object. -/
def objectEnd : Reader Unit := do
  match ← peekSolid with
  | some 0x7d => skip
  | some 0x2c => failAhead .trailingComma
  | some _ => failAhead .trailingCharacters
  | none => failAhead .endInObject

/-- Goes to the next item of a list, and tells whether there is one. -/
def nextItem (isFirst : Bool) : Reader Bool := do
  match ← peekSolid with
  | none => failAhead .endInList
  | some 0x5d => pure false
  | some b =>
    if isFirst then pure true
    else if b = 0x2c then
      skip
      match ← peekSolid with
      | some 0x5d => failAhead .trailingComma
      | some _ => pure true
      | none => failAhead .endInValue
    else failAhead .noListComma

/-- Goes to the next member of an object, and tells its name if there is one. -/
def nextName (isFirst : Bool) : Reader (Option String) := do
  match ← peekSolid with
  | none => failAhead .endInObject
  | some 0x7d => pure none
  | some b =>
    if isFirst then
      if b = 0x22 then quoted else failAhead .keyNotString
    else if b = 0x2c then
      skip
      match ← peekSolid with
      | some 0x22 => quoted
      | some 0x7d => failAhead .trailingComma
      | some _ => failAhead .keyNotString
      | none => failAhead .endInValue
    else failAhead .noObjectComma
where
  /-- The name whose opening quote is next. -/
  quoted : Reader (Option String) := do
    skip
    some <$> stringRest

/-- The colon after a name. -/
def colon : Reader Unit := do
  match ← peekSolid with
  | some 0x3a => skip
  | some _ => failAhead .noColon
  | none => failAhead .endInObject

/-- The end of a text. -/
def textEnd : Reader Unit := do
  match ← peekSolid with
  | some _ => failAhead .trailingCharacters
  | none => pure ()

/-! ## Values that are refused -/

/-- Refuses the value that is next, which starts with `first`, because `expected` was expected. A word,
a number or a string is read first, and what is wrong with it comes before its type. -/
def wrongType (first : UInt8) (expected : String) : Reader α :=
  blame <|
    if first = 0x6e then do
      skip; word [0x75, 0x6c, 0x6c]; refuse (.wrongType .null expected)
    else if first = 0x74 then do
      skip; word [0x72, 0x75, 0x65]; refuse (.wrongType (.bool true) expected)
    else if first = 0x66 then do
      skip; word [0x61, 0x6c, 0x73, 0x65]; refuse (.wrongType (.bool false) expected)
    else if first = 0x2d || isDigit first then do
      let n ← number first; refuse (.wrongType (.number n) expected)
    else if first = 0x22 then do
      skip; let s ← stringRest; refuse (.wrongType (.string s) expected)
    else if first = 0x5b then refuse (.wrongType .sequence expected)
    else if first = 0x7b then refuse (.wrongType .map expected)
    else failAhead .noValue

/-! ## Values of one type -/

/-- A natural number below `2 ^ 32`. -/
def word32 : Reader UInt32 := do
  match ← peekSolid with
  | none => failAhead .endInValue
  | some first =>
    if first = 0x2d || isDigit first then
      blame do
        match ← number first with
        | .natural n =>
          if n < 2 ^ 32 then pure (UInt32.ofNat n)
          else refuse (.wrongValue (.number (.natural n)) "u32")
        | .negative n => refuse (.wrongValue (.number (.negative n)) "u32")
        | n => refuse (.wrongType (.number n) "u32")
    else wrongType first "u32"

/-- A string. -/
def string : Reader String := do
  match ← peekSolid with
  | none => failAhead .endInValue
  | some 0x22 => skip; stringRest
  | some first => wrongType first "a string"

/-- A string, or the word for no value. -/
def stringOrNull : Reader (Option String) := do
  match ← peekSolid with
  | some 0x6e => skip; word [0x75, 0x6c, 0x6c]; pure none
  | _ => some <$> string

end Reader

end Keyring.Json
