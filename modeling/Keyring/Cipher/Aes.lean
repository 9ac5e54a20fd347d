import Keyring.Bytes.Basic

/-!
# AES-128

The block cipher with a key of sixteen bytes (FIPS 197), in the encrypting direction only. A state is
a list of four columns; the rows are rotated by reading it diagonally.
-/

namespace Keyring.Aes

/-- A column of the state, or a word of the key schedule. -/
structure Column where
  b0 : UInt8
  b1 : UInt8
  b2 : UInt8
  b3 : UInt8
deriving DecidableEq

/-- The sixteen bytes of a block, by columns. -/
structure Block where
  c0 : Column
  c1 : Column
  c2 : Column
  c3 : Column
deriving DecidableEq

/-- The substitution of bytes: the inverse in the field of 256 elements, then an affine map. -/
def substitutionTable : Array UInt8 := #[
  0x63, 0x7c, 0x77, 0x7b, 0xf2, 0x6b, 0x6f, 0xc5, 0x30, 0x01, 0x67, 0x2b, 0xfe, 0xd7, 0xab, 0x76,
  0xca, 0x82, 0xc9, 0x7d, 0xfa, 0x59, 0x47, 0xf0, 0xad, 0xd4, 0xa2, 0xaf, 0x9c, 0xa4, 0x72, 0xc0,
  0xb7, 0xfd, 0x93, 0x26, 0x36, 0x3f, 0xf7, 0xcc, 0x34, 0xa5, 0xe5, 0xf1, 0x71, 0xd8, 0x31, 0x15,
  0x04, 0xc7, 0x23, 0xc3, 0x18, 0x96, 0x05, 0x9a, 0x07, 0x12, 0x80, 0xe2, 0xeb, 0x27, 0xb2, 0x75,
  0x09, 0x83, 0x2c, 0x1a, 0x1b, 0x6e, 0x5a, 0xa0, 0x52, 0x3b, 0xd6, 0xb3, 0x29, 0xe3, 0x2f, 0x84,
  0x53, 0xd1, 0x00, 0xed, 0x20, 0xfc, 0xb1, 0x5b, 0x6a, 0xcb, 0xbe, 0x39, 0x4a, 0x4c, 0x58, 0xcf,
  0xd0, 0xef, 0xaa, 0xfb, 0x43, 0x4d, 0x33, 0x85, 0x45, 0xf9, 0x02, 0x7f, 0x50, 0x3c, 0x9f, 0xa8,
  0x51, 0xa3, 0x40, 0x8f, 0x92, 0x9d, 0x38, 0xf5, 0xbc, 0xb6, 0xda, 0x21, 0x10, 0xff, 0xf3, 0xd2,
  0xcd, 0x0c, 0x13, 0xec, 0x5f, 0x97, 0x44, 0x17, 0xc4, 0xa7, 0x7e, 0x3d, 0x64, 0x5d, 0x19, 0x73,
  0x60, 0x81, 0x4f, 0xdc, 0x22, 0x2a, 0x90, 0x88, 0x46, 0xee, 0xb8, 0x14, 0xde, 0x5e, 0x0b, 0xdb,
  0xe0, 0x32, 0x3a, 0x0a, 0x49, 0x06, 0x24, 0x5c, 0xc2, 0xd3, 0xac, 0x62, 0x91, 0x95, 0xe4, 0x79,
  0xe7, 0xc8, 0x37, 0x6d, 0x8d, 0xd5, 0x4e, 0xa9, 0x6c, 0x56, 0xf4, 0xea, 0x65, 0x7a, 0xae, 0x08,
  0xba, 0x78, 0x25, 0x2e, 0x1c, 0xa6, 0xb4, 0xc6, 0xe8, 0xdd, 0x74, 0x1f, 0x4b, 0xbd, 0x8b, 0x8a,
  0x70, 0x3e, 0xb5, 0x66, 0x48, 0x03, 0xf6, 0x0e, 0x61, 0x35, 0x57, 0xb9, 0x86, 0xc1, 0x1d, 0x9e,
  0xe1, 0xf8, 0x98, 0x11, 0x69, 0xd9, 0x8e, 0x94, 0x9b, 0x1e, 0x87, 0xe9, 0xce, 0x55, 0x28, 0xdf,
  0x8c, 0xa1, 0x89, 0x0d, 0xbf, 0xe6, 0x42, 0x68, 0x41, 0x99, 0x2d, 0x0f, 0xb0, 0x54, 0xbb, 0x16]

/-- The byte that replaces a byte. -/
def substitute (b : UInt8) : UInt8 :=
  substitutionTable.getD b.toNat 0

/-- The byte times two in the field of 256 elements. -/
def double (b : UInt8) : UInt8 :=
  if b < 0x80 then b <<< 1 else (b <<< 1) ^^^ 0x1b

namespace Column

/-- The byte-wise sum. -/
def xor (u v : Column) : Column :=
  ⟨u.b0 ^^^ v.b0, u.b1 ^^^ v.b1, u.b2 ^^^ v.b2, u.b3 ^^^ v.b3⟩

/-- The product with the matrix whose rows are the rotations of two, three, one, one. -/
def mix (u : Column) : Column :=
  ⟨double u.b0 ^^^ (double u.b1 ^^^ u.b1) ^^^ u.b2 ^^^ u.b3,
    u.b0 ^^^ double u.b1 ^^^ (double u.b2 ^^^ u.b2) ^^^ u.b3,
    u.b0 ^^^ u.b1 ^^^ double u.b2 ^^^ (double u.b3 ^^^ u.b3),
    (double u.b0 ^^^ u.b0) ^^^ u.b1 ^^^ u.b2 ^^^ double u.b3⟩

/-- What every fourth word of the key schedule is changed by: the bytes rotated and replaced, and the
round's constant added to the first. -/
def schedule (u : Column) (constant : UInt8) : Column :=
  ⟨substitute u.b1 ^^^ constant, substitute u.b2, substitute u.b3, substitute u.b0⟩

/-- The four bytes. -/
def toBytes (u : Column) : Bytes :=
  [u.b0, u.b1, u.b2, u.b3]

end Column

namespace Block

/-- The byte-wise sum. -/
def xor (s t : Block) : Block :=
  ⟨s.c0.xor t.c0, s.c1.xor t.c1, s.c2.xor t.c2, s.c3.xor t.c3⟩

/-- The bytes replaced and the rows rotated, each one place further than the row above it. -/
def substituteAndShift (s : Block) : Block :=
  ⟨⟨substitute s.c0.b0, substitute s.c1.b1, substitute s.c2.b2, substitute s.c3.b3⟩,
    ⟨substitute s.c1.b0, substitute s.c2.b1, substitute s.c3.b2, substitute s.c0.b3⟩,
    ⟨substitute s.c2.b0, substitute s.c3.b1, substitute s.c0.b2, substitute s.c1.b3⟩,
    ⟨substitute s.c3.b0, substitute s.c0.b1, substitute s.c1.b2, substitute s.c2.b3⟩⟩

/-- The columns multiplied. -/
def mix (s : Block) : Block :=
  ⟨s.c0.mix, s.c1.mix, s.c2.mix, s.c3.mix⟩

/-- The key of the next round. -/
def nextKey (k : Block) (constant : UInt8) : Block :=
  let c0 := k.c0.xor (k.c3.schedule constant)
  let c1 := k.c1.xor c0
  let c2 := k.c2.xor c1
  ⟨c0, c1, c2, k.c3.xor c2⟩

/-- The block of the first sixteen bytes, with zeros where there are fewer. -/
def ofBytes (bytes : Bytes) : Block :=
  let b (i : Nat) : UInt8 := bytes.getD i 0
  ⟨⟨b 0, b 1, b 2, b 3⟩, ⟨b 4, b 5, b 6, b 7⟩, ⟨b 8, b 9, b 10, b 11⟩, ⟨b 12, b 13, b 14, b 15⟩⟩

/-- The sixteen bytes. -/
def toBytes (s : Block) : Bytes :=
  s.c0.toBytes ++ s.c1.toBytes ++ s.c2.toBytes ++ s.c3.toBytes

@[simp] theorem length_toBytes (s : Block) : s.toBytes.length = 16 := rfl

end Block

/-- The rounds whose constants are given; the last one does not multiply the columns. -/
def rounds : (constants : List UInt8) → (key state : Block) → Block
  | [], _, state => state
  | constant :: constants, key, state =>
    let key := key.nextKey constant
    let state := state.substituteAndShift
    let state := if constants.isEmpty then state else state.mix
    rounds constants key (state.xor key)

/-- The constants of the ten rounds. -/
def roundConstants : List UInt8 :=
  [0x01, 0x02, 0x04, 0x08, 0x10, 0x20, 0x40, 0x80, 0x1b, 0x36]

/-- The block that a block is encrypted to. -/
def encrypt (key state : Block) : Block :=
  rounds roundConstants key (state.xor key)

end Keyring.Aes
