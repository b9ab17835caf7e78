import AirFerry.Exec
import AirFerry.FastQr.Version

/-!
# Tables of the QR standard

The columns for error correction level L, and of the format words the one for mask 0.
-/

namespace AirFerry.FastQr.Hardcode

/-- How many blocks of which size, for both groups of a version. -/
def groupsTable : List ((Nat × Nat) × (Nat × Nat)) := [
  ((1, 19), (0, 0)), ((1, 34), (0, 0)), ((1, 55), (0, 0)), ((1, 80), (0, 0)), ((1, 108), (0, 0)),
  ((2, 68), (0, 0)), ((2, 78), (0, 0)), ((2, 97), (0, 0)), ((2, 116), (0, 0)), ((2, 68), (2, 69)),
  ((4, 81), (0, 0)), ((2, 92), (2, 93)), ((4, 107), (0, 0)), ((3, 115), (1, 116)),
  ((5, 87), (1, 88)), ((5, 98), (1, 99)), ((1, 107), (5, 108)), ((5, 120), (1, 121)),
  ((3, 113), (4, 114)), ((3, 107), (5, 108)), ((4, 116), (4, 117)), ((2, 111), (7, 112)),
  ((4, 121), (5, 122)), ((6, 117), (4, 118)), ((8, 106), (4, 107)), ((10, 114), (2, 115)),
  ((8, 122), (4, 123)), ((3, 117), (10, 118)), ((7, 116), (7, 117)), ((5, 115), (10, 116)),
  ((13, 115), (3, 116)), ((17, 115), (0, 0)), ((17, 115), (1, 116)), ((13, 115), (6, 116)),
  ((12, 121), (7, 122)), ((6, 121), (14, 122)), ((17, 122), (4, 123)), ((4, 122), (18, 123)),
  ((20, 117), (4, 118)), ((19, 118), (6, 119))]

def eccToGroups (v : Version) : (Nat × Nat) × (Nat × Nat) := groupsTable.getD v ((0, 0), (0, 0))

/-- Level L with the checkerboard mask. -/
def ecmToFormatInformation : Nat := 0b111011111000100

def dataCodewordsTable : List Nat := [
  19, 34, 55, 80, 108, 136, 156, 194, 232, 274, 324, 370, 428, 461, 523, 589, 647, 721, 795, 861,
  932, 1006, 1094, 1174, 1276, 1370, 1468, 1531, 1631, 1735, 1843, 1955, 2071, 2191, 2306, 2434,
  2566, 2702, 2812, 2956]

def dataCodewords (v : Version) : Nat := dataCodewordsTable.getD v 0

def dataBits (v : Version) : Nat := dataCodewords v * 8

def cciBits (v : Version) : Mode → Nat
  | .numeric => if 26 ≤ v.val then 14 else if 9 ≤ v.val then 12 else 10
  | .alphanumeric => if 26 ≤ v.val then 13 else if 9 ≤ v.val then 11 else 9
  | .byte => if 9 ≤ v.val then 16 else 8

def generator7 : Bytes := [
  0, 87, 229, 146, 149, 238, 102, 21]

def generator10 : Bytes := [
  0, 251, 67, 46, 61, 118, 70, 64, 94, 32, 45]

def generator15 : Bytes := [
  0, 8, 183, 61, 91, 202, 37, 51, 58, 58, 237, 140, 124, 5, 99, 105]

def generator18 : Bytes := [
  0, 215, 234, 158, 94, 184, 97, 118, 170, 79, 187, 152, 148, 252, 179, 5, 98, 96, 153]

def generator20 : Bytes := [
  0, 17, 60, 79, 50, 61, 163, 26, 187, 202, 180, 221, 225, 83, 239, 156, 164, 212, 212, 188, 190]

def generator22 : Bytes := [
  0, 210, 171, 247, 242, 93, 230, 14, 109, 221, 53, 200, 74, 8, 172, 98, 80, 219, 134, 160, 105,
  165, 231]

def generator24 : Bytes := [
  0, 229, 121, 135, 48, 211, 117, 251, 126, 159, 180, 169, 152, 192, 226, 228, 218, 111, 0, 117,
  232, 87, 96, 227, 21]

def generator26 : Bytes := [
  0, 173, 125, 158, 2, 103, 182, 118, 17, 145, 201, 111, 28, 165, 53, 161, 21, 245, 142, 13, 102,
  48, 227, 153, 145, 218, 70]

def generator28 : Bytes := [
  0, 168, 223, 200, 104, 224, 234, 108, 180, 110, 190, 195, 147, 205, 27, 232, 201, 21, 43, 245, 87,
  42, 195, 212, 119, 242, 37, 9, 123]

def generator30 : Bytes := [
  0, 41, 173, 145, 152, 216, 31, 179, 182, 50, 48, 110, 86, 239, 96, 222, 125, 42, 173, 226, 193,
  224, 130, 156, 37, 251, 216, 238, 40, 192, 180]

def getPolynomial (v : Version) : Bytes :=
  if v.val = 0 then generator7
  else if v.val = 1 then generator10
  else if v.val = 2 then generator15
  else if v.val ∈ [5, 9] then generator18
  else if v.val ∈ [3, 6, 10] then generator20
  else if v.val = 14 then generator22
  else if v.val ∈ [7, 11, 15] then generator24
  else if v.val ∈ [4, 12, 24] then generator26
  else if v.val ∈ [16, 18, 19, 20, 21, 25] then generator28
  else generator30

end AirFerry.FastQr.Hardcode
