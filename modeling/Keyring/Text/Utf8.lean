import Keyring.Bytes.Basic

/-!
# UTF-8

The bytes of a text, and the text of bytes. Bytes are cut into pieces, each a character or a run that
belongs to none; bytes are a text iff no piece is such a run. A run is as long as the start of a
sequence goes that some character could still complete, and one byte if there is none.
-/

namespace Keyring.Utf8

/-- The bytes of a character. -/
def encodeChar (c : Char) : Bytes :=
  let n := c.toNat
  if n < 0x80 then [UInt8.ofNat n]
  else if n < 0x800 then [UInt8.ofNat (0xc0 + n / 64), UInt8.ofNat (0x80 + n % 64)]
  else if n < 0x10000 then
    [UInt8.ofNat (0xe0 + n / 4096), UInt8.ofNat (0x80 + n / 64 % 64), UInt8.ofNat (0x80 + n % 64)]
  else
    [UInt8.ofNat (0xf0 + n / 262144), UInt8.ofNat (0x80 + n / 4096 % 64),
      UInt8.ofNat (0x80 + n / 64 % 64), UInt8.ofNat (0x80 + n % 64)]

/-- The bytes of a text. -/
def encode (s : String) : Bytes :=
  s.toList.flatMap encodeChar

/-- What a byte string is cut into. -/
inductive Piece where
  | char (c : Char)
  /-- Bytes that belong to no character. -/
  | stray (bytes : Bytes)
deriving DecidableEq

/-- The byte continues a sequence. -/
def isContinuation (b : UInt8) : Bool :=
  0x80 ≤ b && b ≤ 0xbf

/-- How many bytes the sequence that a byte starts has, if it starts any. -/
def sequenceLength? (b : UInt8) : Option Nat :=
  if b < 0x80 then some 1
  else if 0xc2 ≤ b && b ≤ 0xdf then some 2
  else if 0xe0 ≤ b && b ≤ 0xef then some 3
  else if 0xf0 ≤ b && b ≤ 0xf4 then some 4
  else none

/-- The second byte continues the first to a character: no shorter form of one, no surrogate, none
above the last. -/
def isSecond (first second : UInt8) : Bool :=
  (if first = 0xe0 then 0xa0 else if first = 0xf0 then 0x90 else 0x80) ≤ second
    && second ≤ (if first = 0xed then 0x9f else if first = 0xf4 then 0x8f else 0xbf)

/-- The character of the bits that the bytes of a sequence carry. -/
def join (lead : UInt8) (mask : Nat) (rest : List UInt8) : Char :=
  Char.ofNat (rest.foldl (fun n b => 64 * n + b.toNat % 64) (lead.toNat % mask))

/-- The pieces of a byte string, last one first, put before those already `read`. -/
def piecesOnto (read : List Piece) : Bytes → List Piece
  | [] => read
  | b0 :: r0 =>
    match sequenceLength? b0 with
    | none => piecesOnto (.stray [b0] :: read) r0
    | some 1 => piecesOnto (.char (join b0 128 []) :: read) r0
    | some length =>
      match r0 with
      | [] => .stray [b0] :: read
      | b1 :: r1 =>
        if !isSecond b0 b1 then piecesOnto (.stray [b0] :: read) (b1 :: r1)
        else if length = 2 then piecesOnto (.char (join b0 32 [b1]) :: read) r1
        else
          match r1 with
          | [] => .stray [b0, b1] :: read
          | b2 :: r2 =>
            if !isContinuation b2 then piecesOnto (.stray [b0, b1] :: read) (b2 :: r2)
            else if length = 3 then piecesOnto (.char (join b0 16 [b1, b2]) :: read) r2
            else
              match r2 with
              | [] => .stray [b0, b1, b2] :: read
              | b3 :: r3 =>
                if !isContinuation b3 then piecesOnto (.stray [b0, b1, b2] :: read) (b3 :: r3)
                else piecesOnto (.char (join b0 8 [b1, b2, b3]) :: read) r3

/-- The pieces of a byte string in order. -/
def pieces (bytes : Bytes) : List Piece :=
  (piecesOnto [] bytes).reverse

/-- The character that a piece is. -/
def Piece.char? : Piece → Option Char
  | .char c => some c
  | .stray _ => none

/-- The text that the bytes are, if they are one. -/
def decode? (bytes : Bytes) : Option String :=
  ((pieces bytes).mapM Piece.char?).map String.ofList

/-- The text of the bytes with the replacement character for each run that belongs to none. -/
def decodeLossy (bytes : Bytes) : String :=
  String.ofList ((pieces bytes).map fun piece => piece.char?.getD '\uFFFD')

end Keyring.Utf8
