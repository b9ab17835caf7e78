import AirFerry.FastQr.Default
import AirFerry.FastQr.Encode
import AirFerry.FastQr.Polynomials

/-!
# Placing the data

The codewords go up and down in pairs of columns from the right, around every module that is not
for data; then the mask is applied. The program always asks for the checkerboard mask, so the
search for the best mask is never entered.
-/

namespace AirFerry.FastQr.Placement

def stepBy2 : List Nat → List Nat
  | [] => []
  | [x] => [x]
  | x :: _ :: rest => x :: stepBy2 rest

def columns (n : Nat) : List Nat := stepBy2 (List.range 6 ++ List.range' 7 (n - 7)).reverse

/-- One module, and the number of bits placed before it. -/
def placeBit (bytes : Bytes) (state : QRCode × Nat) (y x : Nat) : Exec (QRCode × Nat) := do
  let m ← state.1.get y x
  if m.moduleType = .data then
    let byte ← index bytes (state.2 / 8)
    let c := byte &&& (1 <<< (7 - state.2 % 8))
    let qr ← state.1.put y x (m.set (c != 0))
    return (qr, state.2 + 1)
  else return state

def placeColumn (bytes : Bytes) (rev : Bool) (x : Nat) (state : QRCode × Nat) : Exec (QRCode × Nat) :=
  let rows := List.range state.1.size
  (if rev then rows.reverse else rows).foldlM (fun state y => do
    let state ← placeBit bytes state y x
    placeBit bytes state y (x - 1)) state

def placeColumns (bytes : Bytes) : Bool → List Nat → QRCode × Nat → Exec (QRCode × Nat)
  | _, [], state => return state
  | rev, x :: xs, state => do
      let state ← placeColumn bytes rev x state
      placeColumns bytes (!rev) xs state

def placeOnMatrixData (qr : QRCode) (structure' : CompactQR) : Exec QRCode := do
  let (qr, _) ← placeColumns structure'.data true (columns qr.size) (qr, 0)
  return qr

def toggleData (qr : QRCode) (y x : Nat) : Exec QRCode := do
  let m ← qr.get y x
  if m.moduleType = .data then qr.put y x m.toggle else return qr

def maskCheckerboard (qr : QRCode) : Exec QRCode :=
  (List.range qr.size).foldlM (fun qr row =>
    (stepBy2 (List.range' (row &&& 1) (qr.size - (row &&& 1)))).foldlM
      (fun qr column => toggleData qr row column) qr) qr

def placeOnMatrix (structure' : CompactQR) (v : Version) : Exec QRCode := do
  let qr ← Default.createMatrix v
  let qr ← placeOnMatrixData qr structure'
  let qr ← Default.createMatrixFormatInfo qr
  maskCheckerboard qr

def createMatrix (input : Bytes) (mode : Mode) (v : Version) : Exec QRCode := do
  let dataCodewords ← Encode.encode input mode v
  let structured ← Polynomials.structured dataCodewords.data v
  placeOnMatrix (CompactQR.fromArray structured (v.maxBytes * 8 + v.missingBits)) v

end AirFerry.FastQr.Placement
