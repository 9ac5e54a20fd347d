import Keyring.Hash.Pbkdf2

/-!
# Scrypt

The memory-hard key derivation of RFC 7914. A lane is a row of `2 * r` blocks of sixteen words. It
is mixed `n` times while all its values are kept, then `n` times with one of the kept values, chosen
by the lane itself, added each time. Main statement: the output has the asked length
(`length_derive`).

Before any memory is taken, the numbers are checked on words of sixty-four bits, in which the sizes of
what is kept are counted (`Params.ofNumbers`); `n` is given by its logarithm. The length of the output
is checked apart (`Takes`).
-/

namespace Keyring.Scrypt

/-- A block of sixteen words. -/
structure Block where
  x0 : UInt32
  x1 : UInt32
  x2 : UInt32
  x3 : UInt32
  x4 : UInt32
  x5 : UInt32
  x6 : UInt32
  x7 : UInt32
  x8 : UInt32
  x9 : UInt32
  x10 : UInt32
  x11 : UInt32
  x12 : UInt32
  x13 : UInt32
  x14 : UInt32
  x15 : UInt32
deriving Inhabited

/-- The word rotated left by `n` places, `0 < n < 32`. -/
@[inline] def rotateLeft (x n : UInt32) : UInt32 :=
  (x <<< n) ||| (x >>> (32 - n))

namespace Block

/-- The word-wise difference. -/
def xor (a b : Block) : Block :=
  ⟨a.x0 ^^^ b.x0, a.x1 ^^^ b.x1, a.x2 ^^^ b.x2, a.x3 ^^^ b.x3, a.x4 ^^^ b.x4, a.x5 ^^^ b.x5,
    a.x6 ^^^ b.x6, a.x7 ^^^ b.x7, a.x8 ^^^ b.x8, a.x9 ^^^ b.x9, a.x10 ^^^ b.x10, a.x11 ^^^ b.x11,
    a.x12 ^^^ b.x12, a.x13 ^^^ b.x13, a.x14 ^^^ b.x14, a.x15 ^^^ b.x15⟩

/-- The word-wise sum. -/
def add (a b : Block) : Block :=
  ⟨a.x0 + b.x0, a.x1 + b.x1, a.x2 + b.x2, a.x3 + b.x3, a.x4 + b.x4, a.x5 + b.x5,
    a.x6 + b.x6, a.x7 + b.x7, a.x8 + b.x8, a.x9 + b.x9, a.x10 + b.x10, a.x11 + b.x11,
    a.x12 + b.x12, a.x13 + b.x13, a.x14 + b.x14, a.x15 + b.x15⟩

end Block

/-- Pairs of a round over the columns and one over the rows. -/
def doubleRounds : (count : Nat) →
    (x0 x1 x2 x3 x4 x5 x6 x7 x8 x9 x10 x11 x12 x13 x14 x15 : UInt32) → Block
  | 0, x0, x1, x2, x3, x4, x5, x6, x7, x8, x9, x10, x11, x12, x13, x14, x15 =>
    ⟨x0, x1, x2, x3, x4, x5, x6, x7, x8, x9, x10, x11, x12, x13, x14, x15⟩
  | count + 1, x0, x1, x2, x3, x4, x5, x6, x7, x8, x9, x10, x11, x12, x13, x14, x15 =>
    let x4 := x4 ^^^ rotateLeft (x0 + x12) 7
    let x8 := x8 ^^^ rotateLeft (x4 + x0) 9
    let x12 := x12 ^^^ rotateLeft (x8 + x4) 13
    let x0 := x0 ^^^ rotateLeft (x12 + x8) 18
    let x9 := x9 ^^^ rotateLeft (x5 + x1) 7
    let x13 := x13 ^^^ rotateLeft (x9 + x5) 9
    let x1 := x1 ^^^ rotateLeft (x13 + x9) 13
    let x5 := x5 ^^^ rotateLeft (x1 + x13) 18
    let x14 := x14 ^^^ rotateLeft (x10 + x6) 7
    let x2 := x2 ^^^ rotateLeft (x14 + x10) 9
    let x6 := x6 ^^^ rotateLeft (x2 + x14) 13
    let x10 := x10 ^^^ rotateLeft (x6 + x2) 18
    let x3 := x3 ^^^ rotateLeft (x15 + x11) 7
    let x7 := x7 ^^^ rotateLeft (x3 + x15) 9
    let x11 := x11 ^^^ rotateLeft (x7 + x3) 13
    let x15 := x15 ^^^ rotateLeft (x11 + x7) 18
    let x1 := x1 ^^^ rotateLeft (x0 + x3) 7
    let x2 := x2 ^^^ rotateLeft (x1 + x0) 9
    let x3 := x3 ^^^ rotateLeft (x2 + x1) 13
    let x0 := x0 ^^^ rotateLeft (x3 + x2) 18
    let x6 := x6 ^^^ rotateLeft (x5 + x4) 7
    let x7 := x7 ^^^ rotateLeft (x6 + x5) 9
    let x4 := x4 ^^^ rotateLeft (x7 + x6) 13
    let x5 := x5 ^^^ rotateLeft (x4 + x7) 18
    let x11 := x11 ^^^ rotateLeft (x10 + x9) 7
    let x8 := x8 ^^^ rotateLeft (x11 + x10) 9
    let x9 := x9 ^^^ rotateLeft (x8 + x11) 13
    let x10 := x10 ^^^ rotateLeft (x9 + x8) 18
    let x12 := x12 ^^^ rotateLeft (x15 + x14) 7
    let x13 := x13 ^^^ rotateLeft (x12 + x15) 9
    let x14 := x14 ^^^ rotateLeft (x13 + x12) 13
    let x15 := x15 ^^^ rotateLeft (x14 + x13) 18
    doubleRounds count x0 x1 x2 x3 x4 x5 x6 x7 x8 x9 x10 x11 x12 x13 x14 x15

/-- The block added to what eight rounds make of it. -/
def salsa (b : Block) : Block :=
  b.add (doubleRounds 4 b.x0 b.x1 b.x2 b.x3 b.x4 b.x5 b.x6 b.x7 b.x8 b.x9 b.x10 b.x11 b.x12 b.x13
    b.x14 b.x15)

/-- A row of blocks. -/
abbrev Lane := Array Block

/-- Runs through the blocks with the last result added to each, and puts the results of the even and
of the odd places into two rows. -/
def mixBlocks : (blocks : List Block) → (last : Block) → (even : Bool) → (evens odds : Lane) → Lane
  | [], _, _, evens, odds => evens ++ odds
  | b :: blocks, last, even, evens, odds =>
    let next := salsa (last.xor b)
    if even then mixBlocks blocks next false (evens.push next) odds
    else mixBlocks blocks next true evens (odds.push next)

/-- The lane mixed once, starting from its last block. -/
def mixLane (lane : Lane) : Lane :=
  mixBlocks lane.toList (lane.back?.getD default) true #[] #[]

/-- The lane mixed `count` times, and all its values before that, after those already `kept`. -/
def keep : (count : Nat) → (lane : Lane) → (kept : Array Lane) → Lane × Array Lane
  | 0, lane, kept => (lane, kept)
  | count + 1, lane, kept => keep count (mixLane lane) (kept.push lane)

/-- The number that a lane tells by the first word of its last block. -/
def number (lane : Lane) : Nat :=
  (lane.back?.getD default).x0.toNat

/-- The lane mixed `count` times, each time with the kept value that it chooses added. -/
def readBack : (count : Nat) → (lane : Lane) → (kept : Array Lane) → Lane
  | 0, lane, _ => lane
  | count + 1, lane, kept =>
    let chosen := kept.getD (number lane % kept.size) #[]
    readBack count (mixLane (Array.zipWith Block.xor lane chosen)) kept

/-- The lane after both passes. -/
def mix (n : Nat) (lane : Lane) : Lane :=
  let (lane, kept) := keep n lane #[]
  readBack n lane kept

/-- The little-endian words of a byte string whose length is a multiple of four, last word first, put
before those already `read`. -/
def wordsOnto (read : List UInt32) : Bytes → List UInt32
  | b0 :: b1 :: b2 :: b3 :: rest =>
    wordsOnto
      ((b0.toUInt32 ||| b1.toUInt32 <<< 8 ||| b2.toUInt32 <<< 16 ||| b3.toUInt32 <<< 24) :: read) rest
  | _ => read

/-- The little-endian words of a byte string whose length is a multiple of four. -/
def words (bytes : Bytes) : List UInt32 :=
  (wordsOnto [] bytes).reverse

/-- The blocks that the words make up, after those already `read`. -/
def blocksOnto (read : Array Block) : List UInt32 → Array Block
  | x0 :: x1 :: x2 :: x3 :: x4 :: x5 :: x6 :: x7 :: x8 :: x9 :: x10 :: x11 :: x12 :: x13 :: x14
      :: x15 :: rest =>
    blocksOnto (read.push ⟨x0, x1, x2, x3, x4, x5, x6, x7, x8, x9, x10, x11, x12, x13, x14, x15⟩) rest
  | _ => read

/-- The four bytes of a word, least significant first. -/
def wordBytes (w : UInt32) : Bytes :=
  [w.toUInt8, (w >>> 8).toUInt8, (w >>> 16).toUInt8, (w >>> 24).toUInt8]

/-- The sixty-four bytes of a block. -/
def Block.toBytes (b : Block) : Bytes :=
  [b.x0, b.x1, b.x2, b.x3, b.x4, b.x5, b.x6, b.x7, b.x8, b.x9, b.x10, b.x11, b.x12, b.x13, b.x14,
    b.x15].flatMap wordBytes

/-- The rows of `size` blocks each, `count` of them, that the bytes make up. -/
def lanes (size count : Nat) (bytes : Bytes) : List Lane :=
  let blocks := blocksOnto #[] (words bytes)
  (List.range count).map fun i => blocks.extract (i * size) ((i + 1) * size)

/-- The `length` bytes derived from a password with the cost `n`, the block size `r` and `p` lanes. -/
def derive (password salt : Bytes) (n r p length : Nat) : Bytes :=
  let start := Pbkdf2.derive password salt 1 (128 * r * p)
  let mixed := (lanes (2 * r) p start).map (mix n)
  let salt := mixed.flatMap fun lane => lane.toList.flatMap Block.toBytes
  Pbkdf2.derive password salt 1 length

@[simp] theorem length_derive (password salt : Bytes) (n r p length : Nat) :
    (derive password salt n r p length).length = length := by
  simp [derive]

/-! ## Checked numbers -/

/-- Why numbers are refused. -/
inductive Refusal where
  /-- There are no blocks or no lanes, or a word has no such bit as `n`. -/
  | range
  /-- The bytes of a lane are no word. -/
  | laneSize
  /-- The bytes of the kept values of a lane are no word. -/
  | keptSize
  /-- The bytes of all lanes are no word. -/
  | startSize
  /-- A lane cannot tell as many numbers as there are kept values. -/
  | cost
  /-- There are more bytes than PBKDF2 derives. -/
  | lanes
deriving DecidableEq

/-- The product of two words, refused if it is no word. -/
def product (refusal : Refusal) (a b : UInt64) : Except Refusal UInt64 :=
  if a.toNat * b.toNat < 2 ^ 64 then .ok (a * b) else .error refusal

/-- Numbers that were found good. -/
structure Params where
  /-- The logarithm of the number of kept values. -/
  logCost : UInt8
  /-- Half the number of blocks in a lane. -/
  blockSize : UInt32
  /-- The number of lanes. -/
  lanes : UInt32
deriving DecidableEq

/-- The number of kept values. -/
def Params.cost (params : Params) : Nat :=
  2 ^ params.logCost.toNat

/-- The numbers, or the first thing that is wrong with them. -/
def Params.ofNumbers (logCost : UInt8) (r p : UInt32) : Except Refusal Params := do
  if r = 0 ∨ p = 0 ∨ 64 ≤ logCost.toNat then throw .range
  let lane ← product .laneSize r.toUInt64 128
  let _ ← product .keptSize lane (1 <<< logCost.toUInt64)
  let _ ← product .startSize lane p.toUInt64
  if r.toUInt64 * 16 ≤ logCost.toUInt64 then throw .cost
  if 0x40000000 ≤ r.toUInt64 * p.toUInt64 then throw .lanes
  return ⟨logCost, r, p⟩

/-- The length is one that an output can have. -/
def Takes (length : Nat) : Prop :=
  0 < length ∧ length / 32 ≤ 0xffffffff

instance (length : Nat) : Decidable (Takes length) :=
  inferInstanceAs (Decidable (_ ∧ _))

end Keyring.Scrypt
