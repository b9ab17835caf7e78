import Mathlib.Tactic

/-!
# QR versions

The forty sizes of a QR code. The sender asks for error correction level L only, so of each table
that has a column for every level only that column is here.
-/

namespace AirFerry.FastQr

/-- `V01` to `V40`, by the discriminants 0 to 39. -/
abbrev Version := Fin 40

inductive Mode
  | numeric
  | alphanumeric
  | byte
deriving DecidableEq, Repr

namespace Version

def longestNumeric : List Nat := [
  41, 77, 127, 187, 255, 322, 370, 461, 552, 652, 772, 883, 1022, 1101, 1250, 1408, 1548, 1725,
  1903, 2061, 2232, 2409, 2620, 2812, 3057, 3283, 3517, 3669, 3909, 4158, 4417, 4686, 4965, 5253,
  5529, 5836, 6153, 6479, 6743, 7089]

def longestAlphanumeric : List Nat := [
  25, 47, 77, 114, 154, 195, 224, 279, 335, 395, 468, 535, 619, 667, 758, 854, 938, 1046, 1153,
  1249, 1352, 1460, 1588, 1704, 1853, 1990, 2132, 2223, 2369, 2520, 2677, 2840, 3009, 3183, 3351,
  3537, 3729, 3927, 4087, 4296]

def longestByte : List Nat := [
  17, 32, 53, 78, 106, 134, 154, 192, 230, 271, 321, 367, 425, 458, 520, 586, 644, 718, 792, 858,
  929, 1003, 1091, 1171, 1273, 1367, 1465, 1528, 1628, 1732, 1840, 1952, 2068, 2188, 2303, 2431,
  2563, 2699, 2809, 2953]

def longest : Mode → List Nat
  | .numeric => longestNumeric
  | .alphanumeric => longestAlphanumeric
  | .byte => longestByte

def get (mode : Mode) (len : Nat) : Option Version :=
  (List.finRange 40).find? fun v => len ≤ (longest mode).getD v 0

def missingBitsTable : List Nat := [
  0, 7, 7, 7, 7, 7, 0, 0, 0, 0, 0, 0, 0, 3, 3, 3, 3, 3, 3, 3, 4, 4, 4, 4, 4, 4, 4, 3, 3, 3, 3, 3, 3,
  3, 0, 0, 0, 0, 0, 0]

def missingBits (v : Version) : Nat := missingBitsTable.getD v 0

def maxBytesTable : List Nat := [
  26, 44, 70, 100, 134, 172, 196, 242, 292, 346, 404, 466, 532, 581, 655, 733, 815, 901, 991, 1085,
  1156, 1258, 1364, 1474, 1588, 1706, 1828, 1921, 2051, 2185, 2323, 2465, 2611, 2761, 2876, 3034,
  3196, 3362, 3532, 3706]

def maxBytes (v : Version) : Nat := maxBytesTable.getD v 0

def informationTable : List Nat := [
  0, 0, 0, 0, 0, 0, 0b000111110010010100, 0b001000010110111100, 0b001001101010011001,
  0b001010010011010011, 0b001011101111110110, 0b001100011101100010, 0b001101100001000111,
  0b001110011000001101, 0b001111100100101000, 0b010000101101111000, 0b010001010001011101,
  0b010010101000010111, 0b010011010100110010, 0b010100100110100110, 0b010101011010000011,
  0b010110100011001001, 0b010111011111101100, 0b011000111011000100, 0b011001000111100001,
  0b011010111110101011, 0b011011000010001110, 0b011100110000011010, 0b011101001100111111,
  0b011110110101110101, 0b011111001001010000, 0b100000100111010101, 0b100001011011110000,
  0b100010100010111010, 0b100011011110011111, 0b100100101100001011, 0b100101010000101110,
  0b100110101001100100, 0b100111010101000001, 0b101000110001101001]

def information (v : Version) : Nat := informationTable.getD v 0

def alignmentPatterns : List (List Nat) := [
  [], [6, 18], [6, 22], [6, 26], [6, 30], [6, 34], [6, 22, 38], [6, 24, 42], [6, 26, 46],
  [6, 28, 50], [6, 30, 54], [6, 32, 58], [6, 34, 62], [6, 26, 46, 66], [6, 26, 48, 70],
  [6, 26, 50, 74], [6, 30, 54, 78], [6, 30, 56, 82], [6, 30, 58, 86], [6, 34, 62, 90],
  [6, 28, 50, 72, 94], [6, 26, 50, 74, 98], [6, 30, 54, 78, 102], [6, 28, 54, 80, 106],
  [6, 32, 58, 84, 110], [6, 30, 58, 86, 114], [6, 34, 62, 90, 118], [6, 26, 50, 74, 98, 122],
  [6, 30, 54, 78, 102, 126], [6, 26, 52, 78, 104, 130], [6, 30, 56, 82, 108, 134],
  [6, 34, 60, 86, 112, 138], [6, 30, 58, 86, 114, 142], [6, 34, 62, 90, 118, 146],
  [6, 30, 54, 78, 102, 126, 150], [6, 24, 50, 76, 102, 128, 154], [6, 28, 54, 80, 106, 132, 158],
  [6, 32, 58, 84, 110, 136, 162], [6, 26, 54, 82, 110, 138, 166], [6, 30, 58, 86, 114, 142, 170]]

def alignmentPatternsGrid (v : Version) : List Nat := alignmentPatterns.getD v []

def size (v : Version) : Nat := v * 4 + 21

end Version
end AirFerry.FastQr
