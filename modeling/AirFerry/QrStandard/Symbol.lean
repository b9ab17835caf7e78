import AirFerry.Library.Gf256
import AirFerry.Library.Interleave
import AirFerry.Library.ReedSolomon
import AirFerry.QrStandard.Segment

/-!
# Reading a QR code

What a reader does with a clean grid of modules, as the QR standard says, at error correction
level L: where the function patterns are and which colours they have, the format and version
words, the order of the data modules, the masks, and the blocks of codewords. Versions go by their
numbers, 1 to 40, and modules by row and column. The numbers are computed where the standard gives
a rule; only the numbers of blocks and of their error correction codewords are tables.
-/

namespace AirFerry.QrStandard
open Library

abbrev Position := Nat × Nat

def side (version : Nat) : Nat := 17 + 4 * version

def far (p q : Position) : Nat :=
  max (max p.1 q.1 - min p.1 q.1) (max p.2 q.2 - min p.2 q.2)

def finderCentres (n : Nat) : List Position := [(3, 3), (3, n - 4), (n - 4, 3)]

/-- Rows and columns of the alignment patterns, evenly spaced back from the far side. -/
def alignmentAxis (version : Nat) : List Nat :=
  if version = 1 then []
  else
    let count := version / 7 + 2
    let step := (version * 8 + count * 3 + 5) / (count * 4 - 4) * 2
    6 :: (List.range (count - 1)).map fun i => side version - 7 - step * (count - 2 - i)

def alignmentCentres (version : Nat) : List Position :=
  ((alignmentAxis version).product (alignmentAxis version)).filter fun c =>
    ¬ ((c.1 = 6 ∧ c.2 = 6) ∨ (c.1 = 6 ∧ c.2 = side version - 7) ∨ (c.1 = side version - 7 ∧ c.2 = 6))

/-- Where bit `b` of the format word stands, twice. -/
def formatPositions (n b : Nat) : Position × Position :=
  (if b < 6 then (b, 8) else if b < 8 then (b + 1, 8) else if b = 8 then (8, 7) else (8, 14 - b),
    if b < 8 then (8, n - 1 - b) else (n - 15 + b, 8))

def versionPositions (n b : Nat) : Position × Position :=
  ((b / 3, n - 11 + b % 3), (n - 11 + b % 3, b / 3))

/-- A word with the remainder of a division over the two-element field appended. -/
def withRemainder (degree generator word : Nat) : Nat :=
  let remainder := (List.range degree).foldl
    (fun r _ => (2 * r) ^^^ (if r.testBit (degree - 1) then generator else 0)) word
  word * 2 ^ degree + remainder

def formatWord (mask : Nat) : Nat := withRemainder 10 0x537 (8 + mask) ^^^ 0x5412

def versionWord (version : Nat) : Nat := withRemainder 12 0x1F25 version

def IsFormat (n b : Nat) (p : Position) : Prop :=
  p = (formatPositions n b).1 ∨ p = (formatPositions n b).2

def IsVersion (n b : Nat) (p : Position) : Prop :=
  p = (versionPositions n b).1 ∨ p = (versionPositions n b).2

def IsTiming (n : Nat) (p : Position) : Prop :=
  p.1 = 6 ∧ 7 < p.2 ∧ p.2 < n - 7 ∨ p.2 = 6 ∧ 7 < p.1 ∧ p.1 < n - 7

instance (n b : Nat) (p : Position) : Decidable (IsFormat n b p) := inferInstanceAs (Decidable (_ ∨ _))
instance (n b : Nat) (p : Position) : Decidable (IsVersion n b p) := inferInstanceAs (Decidable (_ ∨ _))
instance (n : Nat) (p : Position) : Decidable (IsTiming n p) := inferInstanceAs (Decidable (_ ∨ _))

/-- What a module shows that is not for data: format information, separators, version information,
alignment patterns, the dark module, timing patterns and finder patterns. -/
def functionColour (version mask : Nat) (p : Position) : Option Bool :=
  let n := side version
  if ∃ b ∈ List.range 15, IsFormat n b p then
    some (decide (∃ b ∈ List.range 15, IsFormat n b p ∧ (formatWord mask).testBit b = true))
  else if ∃ c ∈ finderCentres n, far p c = 4 then some false
  else if 7 ≤ version ∧ ∃ b ∈ List.range 18, IsVersion n b p then
    some (decide (∃ b ∈ List.range 18, IsVersion n b p ∧ (versionWord version).testBit b = true))
  else if ∃ c ∈ alignmentCentres version, far p c ≤ 2 then
    some (decide (∃ c ∈ alignmentCentres version, far p c ≤ 2 ∧ far p c ≠ 1))
  else if p = (n - 8, 8) then some true
  else if IsTiming n p then some (decide ((p.1 + p.2) % 2 = 0))
  else if ∃ c ∈ finderCentres n, far p c ≤ 3 then
    some (decide (∃ c ∈ finderCentres n, far p c ≤ 3 ∧ far p c ≠ 2))
  else none

def pairColumns (n : Nat) : List Nat :=
  (List.range ((n - 1) / 2)).map fun k => if 6 < n - 1 - 2 * k then n - 1 - 2 * k else n - 2 - 2 * k

def pairPath (n k x : Nat) : List Position :=
  (if k % 2 = 0 then (List.range n).reverse else List.range n).flatMap fun y => [(y, x), (y, x - 1)]

/-- Up and down through the pairs, the right module of each row first. -/
def path (n : Nat) : List Position :=
  (pairColumns n).zipIdx.flatMap fun pair => pairPath n pair.2 pair.1

def dataPositions (version : Nat) : List Position :=
  (path (side version)).filter fun p => (functionColour version 0 p).isNone

def masked (mask : Nat) (p : Position) : Bool :=
  match mask with
  | 0 => (p.1 + p.2) % 2 == 0
  | 1 => p.1 % 2 == 0
  | 2 => p.2 % 3 == 0
  | 3 => (p.1 + p.2) % 3 == 0
  | 4 => (p.1 / 2 + p.2 / 3) % 2 == 0
  | 5 => p.1 * p.2 % 2 + p.1 * p.2 % 3 == 0
  | 6 => (p.1 * p.2 % 2 + p.1 * p.2 % 3) % 2 == 0
  | _ => ((p.1 + p.2) % 2 + p.1 * p.2 % 3) % 2 == 0

def dataModules (version : Nat) : Nat :=
  let count := version / 7 + 2
  (16 * version + 128) * version + 64 - (if version = 1 then 0 else (25 * count - 10) * count - 55) -
    (if 7 ≤ version then 36 else 0)

def totalCodewords (version : Nat) : Nat := dataModules version / 8

def errorLengths : List Nat :=
  [7, 10, 15, 20, 26, 18, 20, 24, 30, 18, 20, 24, 26, 30, 22, 24, 28, 30, 28, 28, 28, 28, 30, 30, 26, 28] ++
    List.replicate 14 30

def blockCounts : List Nat :=
  [1, 1, 1, 1, 1, 2, 2, 2, 2, 4, 4, 4, 4, 4, 6, 6, 6, 6, 7, 8, 8, 9, 9, 10, 12, 12, 12, 13, 14, 15,
    16, 17, 18, 19, 19, 20, 21, 22, 24, 25]

def errorCodewords (version : Nat) : Nat := errorLengths.getD (version - 1) 0

def blockCount (version : Nat) : Nat := blockCounts.getD (version - 1) 0

/-- Data codewords of the blocks: as even as they can be, the longer blocks last. -/
def blockSizes (version : Nat) : List Nat :=
  let short := totalCodewords version / blockCount version - errorCodewords version
  let long := totalCodewords version % blockCount version
  List.replicate (blockCount version - long) short ++ List.replicate long (short + 1)

def dealBlocks (version : Nat) (codewords : Bytes) : List (Bytes × Bytes) :=
  let sizes := blockSizes version
  let errors := errorCodewords version
  List.zip (Interleave.deal (sizes.foldr max 0) sizes codewords)
    (Interleave.deal errors (List.replicate (blockCount version) errors) (codewords.drop sizes.sum))

def IsBlock (version : Nat) (block : Bytes) : Prop :=
  ReedSolomon.IsCodeword (Gf256.exp 1) (errorCodewords version) (block.map Gf256.mk)

instance (version : Nat) (block : Bytes) : Decidable (IsBlock version block) :=
  inferInstanceAs (Decidable (∀ k < errorCodewords version, _ = _))

structure Grid where
  size : Nat
  modules : List Bool

def Grid.colour (grid : Grid) (p : Position) : Bool := grid.modules.getD (p.1 * grid.size + p.2) false

def dataBits (version mask : Nat) (grid : Grid) : List Bool :=
  (dataPositions version).map fun p => xor (grid.colour p) (masked mask p)

def readBlocks (version mask : Nat) (grid : Grid) : List (Bytes × Bytes) :=
  dealBlocks version (Bits.toBytes (totalCodewords version) (dataBits version mask grid))

def readMask (grid : Grid) : Option Nat :=
  (List.range 8).find? fun mask => (List.range 15).all fun b =>
    grid.colour (formatPositions grid.size b).1 == (formatWord mask).testBit b &&
      grid.colour (formatPositions grid.size b).2 == (formatWord mask).testBit b

def readVersion (grid : Grid) : Option Nat :=
  if grid.modules.length = grid.size * grid.size then
    (List.range' 1 40).find? fun version => side version = grid.size
  else none

/-- Every block has to be a code word; nothing is corrected here. -/
def read (grid : Grid) : Option Bytes := do
  let version ← readVersion grid
  let mask ← readMask grid
  let blocks := readBlocks version mask grid
  if ∀ block ∈ blocks, IsBlock version (block.1 ++ block.2) then
    readData version (Bits.ofBytes (blocks.flatMap Prod.fst))
  else none

end AirFerry.QrStandard
