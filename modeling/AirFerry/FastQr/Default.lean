import AirFerry.FastQr.Hardcode
import AirFerry.FastQr.Module

namespace AirFerry.FastQr.Default
open AirFerry.FastQr.Module

def positionSize : Nat := 7

def finderWrites (y x : Nat) : List Write :=
  ((List.range 7).flatMap fun j =>
    [((y, j + x), finderPattern dark), ((6 + y, j + x), finderPattern dark),
      ((j + y, x), finderPattern dark), ((j + y, 6 + x), finderPattern dark)]) ++
  ((List.range' 1 5).flatMap fun j =>
    [((y + 1, j + x), finderPattern light), ((5 + y, j + x), finderPattern light),
      ((j + y, x + 1), finderPattern light), ((j + y, 5 + x), finderPattern light)]) ++
  ((List.range' 2 3).flatMap fun j =>
    [((j + y, 2 + x), finderPattern dark), ((j + y, 3 + x), finderPattern dark),
      ((j + y, 4 + x), finderPattern dark)])

def patternWrites (n : Nat) : List Write :=
  [(0, 0), (n - positionSize, 0), (0, n - positionSize)].flatMap fun offset =>
    finderWrites offset.1 offset.2

def createMatrixPattern (qr : QRCode) : Exec QRCode := qr.putAll (patternWrites qr.size)

def timingWrites (n : Nat) : List Write :=
  (List.range' (positionSize + 1) (n - positionSize - (positionSize + 1))).flatMap fun i =>
    let value := if (positionSize + 1) % 2 = i % 2 then dark else light
    [((positionSize - 1, i), timing value), ((i, positionSize - 1), timing value)]

def createMatrixTiming (qr : QRCode) : Exec QRCode := qr.putAll (timingWrites qr.size)

def createMatrixDarkModule (qr : QRCode) : Exec QRCode :=
  qr.putAll [((qr.size - 8, 8), darkModule dark)]

def alignmentWrites (centreY centreX : Nat) : List Write :=
  ((List.range 5).flatMap fun offset =>
    [((centreY - 2, centreX - 2 + offset), alignment dark),
      ((centreY - 2 + 4, centreX - 2 + offset), alignment dark),
      ((centreY - 2 + offset, centreX - 2), alignment dark),
      ((centreY - 2 + offset, centreX - 2 + 4), alignment dark)]) ++
  ((List.range 3).flatMap fun offset =>
    [((centreY - 1, centreX - 1 + offset), alignment light),
      ((centreY - 1 + 2, centreX - 1 + offset), alignment light),
      ((centreY - 1 + offset, centreX - 1), alignment light),
      ((centreY - 1 + offset, centreX - 1 + 2), alignment light)]) ++
  [((centreY, centreX), alignment dark)]

/-- The centres of the alignment patterns; the corners with finder patterns have none. -/
def alignmentCentres (v : Version) : List (Nat × Nat) :=
  let grid := v.alignmentPatternsGrid
  let max := grid.length - 1
  grid.zipIdx.flatMap fun row => grid.zipIdx.flatMap fun column =>
    if row.2 = 0 ∧ (column.2 = max ∨ column.2 = 0) ∨ row.2 = max ∧ column.2 = 0 then []
    else [(row.1, column.1)]

def createMatrixAlignments (qr : QRCode) (v : Version) : Exec QRCode :=
  if v.val = 0 then return qr
  else qr.putAll ((alignmentCentres v).flatMap fun centre => alignmentWrites centre.1 centre.2)

def versionWrites (n versionInfo : Nat) : List Write :=
  (List.range 3).flatMap fun i => (List.range 6).flatMap fun j =>
    let shiftI := 2 - i
    let shiftJ := 5 - j
    let value := versionInfo.testBit ((5 - shiftJ) * 3 + (2 - shiftI))
    [((j, n - 11 + i), version value), ((n - 11 + i, j), version value)]

def createMatrixVersionInfo (qr : QRCode) (v : Version) : Exec QRCode :=
  if v.val < 6 then return qr else qr.putAll (versionWrites qr.size v.information)

def emptyWrites (n : Nat) : List Write :=
  (List.range 8).flatMap fun i =>
    [((i, 7), empty light), ((7, i), empty light), ((n - 8 + i, 7), empty light),
      ((n - 8, i), empty light), ((i, n - 8), empty light), ((7, n - 8 + i), empty light)]

def createMatrixEmpty (qr : QRCode) : Exec QRCode := qr.putAll (emptyWrites qr.size)

def placeholderWrites (n : Nat) : List Write :=
  ((List.range 6).flatMap fun i =>
    [((8, i), format light), ((i, 8), format light), ((8, n - 1 - i), format light),
      ((n - 1 - i, 8), format light)]) ++
  [((8, 7), format light), ((8, 8), format light), ((7, 8), format light),
    ((8, n - 1 - 6), format light), ((8, n - 1 - 7), format light), ((n - 1 - 6, 8), format light)]

def createMatrix (v : Version) : Exec QRCode := do
  let qr := QRCode.default v.size
  let qr ← createMatrixPattern qr
  let qr ← createMatrixTiming qr
  let qr ← createMatrixDarkModule qr
  let qr ← createMatrixAlignments qr v
  let qr ← createMatrixVersionInfo qr v
  let qr ← createMatrixEmpty qr
  qr.putAll (placeholderWrites qr.size)

def formatWrites (n formatInfo : Nat) : List Write :=
  ((List.range 6).reverse.flatMap fun i =>
    let value := formatInfo.testBit (i + 9)
    [((8, 5 - i), format value), ((n - 6 + i, 8), format value)]) ++
  ((List.range 6).flatMap fun i =>
    let value := formatInfo.testBit i
    [((i, 8), format value), ((8, n - i - 1), format value)]) ++
  [((8, 7), format (formatInfo.testBit 8)), ((n - 7, 8), format (formatInfo.testBit 8)),
    ((8, 8), format (formatInfo.testBit 7)), ((8, n - 8), format (formatInfo.testBit 7)),
    ((7, 8), format (formatInfo.testBit 6)), ((8, n - 7), format (formatInfo.testBit 6))]

def createMatrixFormatInfo (qr : QRCode) : Exec QRCode :=
  qr.putAll (formatWrites qr.size Hardcode.ecmToFormatInformation)

end AirFerry.FastQr.Default
