import Keyring.Json.Printer
import Keyring.Json.Reader
import Mathlib.Data.List.Forall2

/-!
# JSON texts with their layout

A JSON text is told by a tree that keeps everything that its bytes tell: the blanks between tokens, how
each character of a string is spelled, and the digits of each number (`Written`). A tree is a text by
what it is made of, so that every tree has bytes, and every text of the grammar has a tree. What a text
means is told apart from how it is laid out: the characters of a string (`chars?`), the number of a
numeral (`Numeral.number?`), and the names and values of an object's members (`Members.entries`).
-/

namespace Keyring.Json

/-! ## Blanks -/

/-- What may stand between tokens. -/
inductive Blank where
  | space
  | tab
  | lineFeed
  | carriageReturn
deriving DecidableEq

/-- The byte of a blank. -/
def Blank.byte : Blank → UInt8
  | space => 0x20
  | tab => 0x09
  | lineFeed => 0x0a
  | carriageReturn => 0x0d

/-- The bytes of blanks. -/
def blankBytes (blanks : List Blank) : Bytes :=
  blanks.map Blank.byte

/-! ## Strings -/

/-- A hexadecimal digit of either case. -/
structure HexDigit where
  value : Fin 16
  isCapital : Bool
deriving DecidableEq

/-- The byte of a hexadecimal digit. -/
def HexDigit.byte (d : HexDigit) : UInt8 :=
  UInt8.ofNat (d.value + if d.value.val < 10 then 0x30 else if d.isCapital then 0x37 else 0x57)

/-- A number of sixteen bits as four hexadecimal digits. -/
structure CodeUnit where
  d0 : HexDigit
  d1 : HexDigit
  d2 : HexDigit
  d3 : HexDigit
deriving DecidableEq

namespace CodeUnit

/-- The number. -/
def value (u : CodeUnit) : Nat :=
  u.d0.value * 4096 + u.d1.value * 256 + u.d2.value * 16 + u.d3.value

/-- The character that a high surrogate and a low one stand for. -/
def joined (u v : CodeUnit) : Char :=
  Char.ofNat (0x10000 + (u.value - 0xd800) * 0x400 + (v.value - 0xdc00))

/-- The backslash, the letter and the digits. -/
def bytes (u : CodeUnit) : Bytes :=
  [0x5c, 0x75, u.d0.byte, u.d1.byte, u.d2.byte, u.d3.byte]

end CodeUnit

/-- A character that is written by a backslash and a letter. -/
inductive Escape where
  | quote
  | backslash
  | slash
  | backspace
  | formFeed
  | lineFeed
  | carriageReturn
  | tab
deriving DecidableEq

namespace Escape

/-- The letter after the backslash. -/
def letter : Escape → Char
  | quote => '"'
  | backslash => '\\'
  | slash => '/'
  | backspace => 'b'
  | formFeed => 'f'
  | lineFeed => 'n'
  | carriageReturn => 'r'
  | tab => 't'

/-- The character that is meant. -/
def char : Escape → Char
  | quote => '"'
  | backslash => '\\'
  | slash => '/'
  | backspace => '\x08'
  | formFeed => '\x0c'
  | lineFeed => '\n'
  | carriageReturn => '\r'
  | tab => '\t'

end Escape

/-- The character may stand for itself in a string. -/
def IsRaw (c : Char) : Prop :=
  c ≠ '"' ∧ c ≠ '\\' ∧ 0x20 ≤ c.toNat

instance (c : Char) : Decidable (IsRaw c) :=
  inferInstanceAs (Decidable (_ ∧ _ ∧ _))

/-- A part of a string between its quotes. -/
inductive Piece where
  | raw (c : Char) (isRaw : IsRaw c)
  | short (e : Escape)
  | unit (u : CodeUnit)

/-- The bytes of a part of a string. -/
def Piece.bytes : Piece → Bytes
  | raw c _ => Utf8.encodeChar c
  | short e => [0x5c, UInt8.ofNat e.letter.toNat]
  | unit u => u.bytes

/-- The bytes between the quotes of a string. -/
def pieceBytes (pieces : List Piece) : Bytes :=
  pieces.flatMap Piece.bytes

/-- The characters of a string. A number of sixteen bits is that of its character; characters beyond
are two numbers, a high surrogate and a low one, and no surrogate stands alone. -/
def chars? : List Piece → Option (List Char)
  | [] => some []
  | .raw c _ :: pieces => (chars? pieces).map (c :: ·)
  | .short e :: pieces => (chars? pieces).map (e.char :: ·)
  | .unit u :: pieces =>
    if u.value < 0xd800 ∨ 0xdfff < u.value then (chars? pieces).map (Char.ofNat u.value :: ·)
    else
      match pieces with
      | .unit v :: pieces =>
        if u.value ≤ 0xdbff ∧ 0xdc00 ≤ v.value ∧ v.value ≤ 0xdfff then
          (chars? pieces).map (u.joined v :: ·)
        else none
      | _ => none

/-- The text of a string. -/
def string? (pieces : List Piece) : Option String :=
  (chars? pieces).map String.ofList

/-! ## Numbers -/

/-- A decimal digit. -/
abbrev Digit := Fin 10

/-- The byte of a digit. -/
def Digit.byte (d : Digit) : UInt8 :=
  UInt8.ofNat (0x30 + d.val)

/-- The bytes of digits. -/
def digitBytes (digits : List Digit) : Bytes :=
  digits.map Digit.byte

/-- The exponent of a numeral: a letter, a sign that may be left out, and digits. -/
structure Exponent where
  isCapital : Bool
  /-- The sign, if there is one: it is a minus. -/
  isDown? : Option Bool
  first : Digit
  more : List Digit
deriving DecidableEq

/-- A number as it is written: an optional minus, digits of which the first one is zero only if it is
the only one, digits after a point, and an exponent. -/
structure Numeral where
  isNegative : Bool
  first : Digit
  more : List Digit
  zero_alone : first = 0 → more = []
  fraction : Option (Digit × List Digit)
  exponent : Option Exponent
deriving DecidableEq

namespace Exponent

/-- The bytes of a sign. -/
def signBytes : Option Bool → Bytes
  | none => []
  | some false => [0x2b]
  | some true => [0x2d]

/-- The bytes of an exponent. -/
def bytes (e : Exponent) : Bytes :=
  (if e.isCapital then 0x45 else 0x65) :: signBytes e.isDown? ++ digitBytes (e.first :: e.more)

end Exponent

/-- Goes on with digits from a number as long as it stays at most `limit`, and tells the number and the
digits for which there was no room. -/
def keepDigits (limit : Nat) : (value : Nat) → List Digit → Nat × List Digit
  | value, [] => (value, [])
  | value, d :: digits =>
    if 10 * value + d > limit then (value, d :: digits) else keepDigits limit (10 * value + d) digits

namespace Numeral

/-- The numeral of a digit that is not zero and more digits. -/
def plain (first : Nat) (h : 0 < first ∧ first < 10) (more : List Digit) : Numeral :=
  ⟨false, ⟨first, h.2⟩, more, fun h0 => absurd (congrArg Fin.val h0) (Nat.ne_of_gt h.1), none, none⟩

/-- The bytes of the digits after the point, with the point. -/
def fractionBytes : Option (Digit × List Digit) → Bytes
  | none => []
  | some (d, digits) => 0x2e :: digitBytes (d :: digits)

/-- The bytes of an exponent that may be left out. -/
def exponentBytes : Option Exponent → Bytes
  | none => []
  | some e => e.bytes

/-- The bytes of a numeral. -/
def bytes (n : Numeral) : Bytes :=
  (if n.isNegative then [0x2d] else []) ++ digitBytes (n.first :: n.more) ++ fractionBytes n.fraction
    ++ exponentBytes n.exponent

/-- The number of double precision of the given digits and exponent. -/
def real? (isNegative : Bool) (value : Nat) (exponent : Int) : Option Number :=
  (Binary64.ofDecimal value exponent).map (.real isNegative)

/-- The number of the given digits with an exponent that may be left out. The exponent itself is kept
up to `2 ^ 31 - 1`; a larger one leads out of range or to zero. -/
def scaled? (isNegative : Bool) (value : Nat) (scale : Int) : Option Exponent → Option Number
  | none => real? isNegative value scale
  | some e =>
    let (size, left) := keepDigits (2 ^ 31 - 1) e.first e.more
    if left ≠ [] then
      if value ≠ 0 ∧ e.isDown? ≠ some true then none else some (.real isNegative .zero)
    else real? isNegative value (if e.isDown? = some true then scale - size else scale + size)

/-- The number of a numeral, if it is in range. Digits are kept as long as they make up a number below
`2 ^ 64`, and count by their place after that. -/
def number? (n : Numeral) : Option Number :=
  let (whole, left) := keepDigits (2 ^ 64 - 1) n.first n.more
  match n.fraction with
  | none =>
    if n.exponent = none ∧ left = [] then some (Reader.integer n.isNegative whole)
    else scaled? n.isNegative whole left.length n.exponent
  | some (d, digits) =>
    let (value, dropped) := keepDigits (2 ^ 64 - 1) whole (d :: digits)
    scaled? n.isNegative value (left.length - (((d :: digits).length : Int) - dropped.length))
      n.exponent

/-- The natural number that a numeral is in plain decimal, without sign, point or exponent. -/
def natural? (n : Numeral) : Option Nat :=
  if n.isNegative = false ∧ n.fraction = none ∧ n.exponent = none then
    some ((n.first :: n.more).foldl (fun value (d : Digit) => 10 * value + d.val) 0)
  else none

end Numeral

/-! ## Values -/

/-- The name of a member with the blanks around it and around the colon. -/
structure Label where
  before : List Blank
  name : List Piece
  after : List Blank
  gap : List Blank

mutual

/-- A value as it is written. The blanks of a container stand after its opening bracket. -/
inductive Written where
  | null
  | bool (b : Bool)
  | number (n : Numeral)
  | string (pieces : List Piece)
  | list (blanks : List Blank) (items : Items)
  | object (blanks : List Blank) (members : Members)

/-- The items of a list, each between blanks. -/
inductive Items where
  | nil
  | cons (before : List Blank) (value : Written) (after : List Blank) (items : Items)

/-- The members of an object, each with blanks after it. -/
inductive Members where
  | nil
  | cons (label : Label) (value : Written) (after : List Blank) (members : Members)

end

/-- The bytes of a label, the colon included. -/
def Label.bytes (l : Label) : Bytes :=
  blankBytes l.before ++ 0x22 :: pieceBytes l.name ++ 0x22 :: blankBytes l.after
    ++ 0x3a :: blankBytes l.gap

mutual

/-- The bytes of a value. -/
def Written.bytes : Written → Bytes
  | .null => ascii ['n', 'u', 'l', 'l']
  | .bool true => ascii ['t', 'r', 'u', 'e']
  | .bool false => ascii ['f', 'a', 'l', 's', 'e']
  | .number n => n.bytes
  | .string pieces => 0x22 :: pieceBytes pieces ++ [0x22]
  | .list blanks items => 0x5b :: blankBytes blanks ++ items.bytes ++ [0x5d]
  | .object blanks members => 0x7b :: blankBytes blanks ++ members.bytes ++ [0x7d]

/-- The bytes of items, with a comma between any two. -/
def Items.bytes : Items → Bytes
  | .nil => []
  | .cons before value after items =>
    blankBytes before ++ value.bytes ++ blankBytes after ++ items.nextBytes

/-- The bytes of further items, each after a comma. -/
def Items.nextBytes : Items → Bytes
  | .nil => []
  | .cons before value after items =>
    0x2c :: blankBytes before ++ value.bytes ++ blankBytes after ++ items.nextBytes

/-- The bytes of members, with a comma between any two. -/
def Members.bytes : Members → Bytes
  | .nil => []
  | .cons label value after members =>
    label.bytes ++ value.bytes ++ blankBytes after ++ members.nextBytes

/-- The bytes of further members, each after a comma. -/
def Members.nextBytes : Members → Bytes
  | .nil => []
  | .cons label value after members =>
    0x2c :: label.bytes ++ value.bytes ++ blankBytes after ++ members.nextBytes

end

/-- The names and values of members. A name with a surrogate that stands alone is none. -/
def Members.entries : Members → List (Option String × Written)
  | nil => []
  | cons label value _ members => (string? label.name, value) :: members.entries

/-- A member has one of the names. -/
def isNamed (names : List String) (entry : Option String × Written) : Bool :=
  entry.1.any fun name => name ∈ names

/-- How many members have one of the names. -/
def Members.count (members : Members) (names : List String) : Nat :=
  members.entries.countP (isNamed names)

/-- The text that a value is. -/
def Written.text? : Written → Option String
  | string pieces => string? pieces
  | _ => none

/-- The natural number that a value is in plain decimal. -/
def Written.natural? : Written → Option Nat
  | number n => n.natural?
  | _ => none

/-- The value is the text, however it is spelled. -/
def Written.IsText (s : String) (w : Written) : Prop :=
  w.text? = some s

/-- The value is the number in plain decimal. -/
def Written.IsWord (n : UInt32) (w : Written) : Prop :=
  w.natural? = some n.toNat

mutual

/-- How many containers stand inside each other in a value. -/
def Written.depth : Written → Nat
  | .list _ items => items.depth + 1
  | .object _ members => members.depth + 1
  | _ => 0

/-- How many containers stand inside each other in items. -/
def Items.depth : Items → Nat
  | .nil => 0
  | .cons _ value _ items => max value.depth items.depth

/-- How many containers stand inside each other in members. -/
def Members.depth : Members → Nat
  | .nil => 0
  | .cons _ value _ members => max value.depth members.depth

end

mutual

/-- The numbers in a value are in range, and no surrogate stands alone in its strings. -/
def Written.IsSound : Written → Prop
  | .number n => n.number?.isSome
  | .string pieces => (string? pieces).isSome
  | .list _ items => items.AreSound
  | .object _ members => members.AreSound
  | _ => True

/-- Items are sound. -/
def Items.AreSound : Items → Prop
  | .nil => True
  | .cons _ value _ items => value.IsSound ∧ items.AreSound

/-- Members are sound, their names included. -/
def Members.AreSound : Members → Prop
  | .nil => True
  | .cons label value _ members => (string? label.name).isSome ∧ value.IsSound ∧ members.AreSound

end

/-- The value is an object that has the given members, each with a value that is right for it, in any
order. Other members may stand among them, if their names are none of `names` and their values are
`IsExtra`. -/
def Written.HasMembers (fields : List (String × (Written → Prop))) (names : List String)
    (IsExtra : Written → Prop) (w : Written) : Prop :=
  ∃ blanks members declared extras, w = .object blanks members ∧
    members.entries.Perm (declared ++ extras) ∧
    List.Forall₂ (fun entry field => entry.1 = some field.1 ∧ field.2 entry.2) declared fields ∧
    ∀ entry ∈ extras, ∃ name, entry.1 = some name ∧ name ∉ names ∧ IsExtra entry.2

/-- Among members, one that is required is missing, or one that is declared is repeated. A member is told
by the names that it may have. -/
def Members.IsAmiss (required optional : List (List String)) (members : Members) : Prop :=
  (∃ names ∈ required, members.count names = 0) ∨
    ∃ names ∈ required ++ optional, 2 ≤ members.count names

/-! ## Texts -/

/-- A text that holds one value, between blanks. -/
structure Document where
  before : List Blank
  value : Written
  after : List Blank

/-- The bytes of a text. -/
def Document.bytes (d : Document) : Bytes :=
  blankBytes d.before ++ d.value.bytes ++ blankBytes d.after

end Keyring.Json
