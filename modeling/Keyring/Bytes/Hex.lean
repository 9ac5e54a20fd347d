import Keyring.Bytes.Basic

/-!
# Bytes as hexadecimal text

Two digits a byte, most significant first. Writing uses lowercase digits; reading accepts either
case and nothing but digits: no prefix, no blanks, no odd digit. Main statement: reading what was
written gives the bytes back (`decode_encode`).
-/

namespace Keyring.Hex

/-- Why a text is not the hexadecimal form of any bytes. -/
inductive Error where
  /-- The text takes an odd number of bytes. -/
  | oddLength
  /-- The text's byte at `index` is not a digit. -/
  | notADigit (byte : UInt8) (index : Nat)
deriving DecidableEq, Repr

/-- The digit of a value below sixteen. -/
def digit (n : Nat) : Char :=
  if n < 10 then Char.ofNat (48 + n) else Char.ofNat (87 + n)

/-- The value of a digit of either case. -/
def digitValue? (c : Char) : Option Nat :=
  if '0' ≤ c ∧ c ≤ '9' then some (c.toNat - 48)
  else if 'a' ≤ c ∧ c ≤ 'f' then some (c.toNat - 87)
  else if 'A' ≤ c ∧ c ≤ 'F' then some (c.toNat - 55)
  else none

/-- Two lowercase digits a byte. -/
def encode (bytes : Bytes) : List Char :=
  bytes.flatMap fun b => [digit (b.toNat / 16), digit (b.toNat % 16)]

/-- Two lowercase digits a byte, as a string. -/
def text (bytes : Bytes) : String :=
  String.ofList (encode bytes)

/-- The bytes that pairs of digits of either case stand for. -/
def decode? : List Char → Option Bytes
  | [] => some []
  | [_] => none
  | high :: low :: rest =>
    match digitValue? high, digitValue? low, decode? rest with
    | some h, some l, some bytes => some (UInt8.ofNat (16 * h + l) :: bytes)
    | _, _, _ => none

/-- The bytes of a hexadecimal string. -/
def ofText? (s : String) : Option Bytes :=
  decode? s.toList

/-- The first character from `index` on that is not a digit, as the first of its UTF-8 bytes. -/
def firstNonDigit (index : Nat) : List Char → Option Error
  | [] => none
  | c :: rest =>
    match digitValue? c with
    | some _ => firstNonDigit (index + 1) rest
    | none => some (.notADigit ((String.utf8EncodeChar c).headD 0) index)

/-- The bytes of a hexadecimal text, or the first thing that is wrong with it: an odd length is
found before any character is looked at. -/
def decode (text : List Char) : Except Error Bytes :=
  match decode? text with
  | some bytes => .ok bytes
  | none =>
    if (text.flatMap String.utf8EncodeChar).length % 2 = 1 then .error .oddLength
    else .error ((firstNonDigit 0 text).getD .oddLength)

/-! ## Reading what was written -/

private theorem digitValue?_digit_of_mem : ∀ n ∈ List.range 16, digitValue? (digit n) = some n := by
  decide

theorem digitValue?_digit {n : Nat} (h : n < 16) : digitValue? (digit n) = some n :=
  digitValue?_digit_of_mem n (List.mem_range.2 h)

@[simp] theorem encode_nil : encode [] = [] := rfl

@[simp] theorem encode_cons (b : UInt8) (bytes : Bytes) :
    encode (b :: bytes) = digit (b.toNat / 16) :: digit (b.toNat % 16) :: encode bytes := rfl

@[simp] theorem length_encode (bytes : Bytes) : (encode bytes).length = 2 * bytes.length := by
  induction bytes with
  | nil => rfl
  | cons b bytes ih => simp [ih]; omega

theorem decode?_encode (bytes : Bytes) : decode? (encode bytes) = some bytes := by
  induction bytes with
  | nil => rfl
  | cons b bytes ih =>
    have hb : b.toNat < 256 := b.toNat_lt_size
    simp only [encode_cons, decode?, digitValue?_digit (show b.toNat / 16 < 16 by omega),
      digitValue?_digit (show b.toNat % 16 < 16 by omega), ih,
      show 16 * (b.toNat / 16) + b.toNat % 16 = b.toNat by omega, UInt8.ofNat_toNat]

@[simp] theorem ofText?_text (bytes : Bytes) : ofText? (text bytes) = some bytes := by
  simp [ofText?, text, decode?_encode]

end Keyring.Hex
