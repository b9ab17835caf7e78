import AirFerry.Exec
import AirFerry.FastQr.Version
import AirFerry.Library.Bits

/-!
# Reading the data of a QR code

What a reader does with the data bits of a symbol, as the QR standard says: a mode indicator, a
character count and the characters, segment after segment, until the terminator or until there is
no room for another indicator. Versions go by their numbers, 1 to 40.
-/

namespace AirFerry.QrStandard
open Library FastQr

def countBits (version : Nat) : Mode → Nat
  | .numeric => if version ≤ 9 then 10 else if version ≤ 26 then 12 else 14
  | .alphanumeric => if version ≤ 9 then 9 else if version ≤ 26 then 11 else 13
  | .byte => if version ≤ 9 then 8 else 16

def modeOf : Nat → Option Mode
  | 1 => some .numeric
  | 2 => some .alphanumeric
  | 4 => some .byte
  | _ => none

def digit (n : Nat) : BitVec 8 := BitVec.ofNat 8 (48 + n)

/-- The 45 characters of alphanumeric mode, in the order of their values. -/
def alphanumericSet : Bytes :=
  (List.range 10).map digit ++ (List.range 26).map (fun n => BitVec.ofNat 8 (65 + n)) ++
    [32, 36, 37, 42, 43, 45, 46, 47, 58]

/-- Groups of three digits in ten bits; two left at the end take seven, one takes four. -/
def readDigits : Nat → List Bool → Option (Bytes × List Bool)
  | 0, bits => some ([], bits)
  | 1, bits => do
      let (n, rest) ← Bits.field 4 bits
      if n < 10 then some ([digit n], rest) else none
  | 2, bits => do
      let (n, rest) ← Bits.field 7 bits
      if n < 100 then some ([digit (n / 10), digit (n % 10)], rest) else none
  | count+3, bits => do
      let (n, rest) ← Bits.field 10 bits
      if n < 1000 then
        let (chars, rest) ← readDigits count rest
        some (digit (n / 100) :: digit (n / 10 % 10) :: digit (n % 10) :: chars, rest)
      else none

/-- Pairs of characters in eleven bits; one left at the end takes six. -/
def readPairs : Nat → List Bool → Option (Bytes × List Bool)
  | 0, bits => some ([], bits)
  | 1, bits => do
      let (n, rest) ← Bits.field 6 bits
      let char ← alphanumericSet[n]?
      some ([char], rest)
  | count+2, bits => do
      let (n, rest) ← Bits.field 11 bits
      let first ← alphanumericSet[n / 45]?
      let second ← alphanumericSet[n % 45]?
      let (chars, rest) ← readPairs count rest
      some (first :: second :: chars, rest)

def readOctets : Nat → List Bool → Option (Bytes × List Bool)
  | 0, bits => some ([], bits)
  | count+1, bits => do
      let (n, rest) ← Bits.field 8 bits
      let (chars, rest) ← readOctets count rest
      some (BitVec.ofNat 8 n :: chars, rest)

def readChars : Mode → Nat → List Bool → Option (Bytes × List Bool)
  | .numeric => readDigits
  | .alphanumeric => readPairs
  | .byte => readOctets

def readSegments (version : Nat) : Nat → List Bool → Option Bytes
  | 0, _ => none
  | fuel+1, bits =>
      if bits.length < 4 then some []
      else do
        let (indicator, rest) ← Bits.field 4 bits
        if indicator = 0 then some []
        else
          let mode ← modeOf indicator
          let (count, rest) ← Bits.field (countBits version mode) rest
          let (chars, rest) ← readChars mode count rest
          let others ← readSegments version fuel rest
          some (chars ++ others)

def readData (version : Nat) (bits : List Bool) : Option Bytes :=
  readSegments version (bits.length + 1) bits

end AirFerry.QrStandard
