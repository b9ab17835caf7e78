import AirFerry.FastQr.Placement

/-!
# Building a QR code

At level L, without a mode, with a version and the checkerboard mask.
-/

namespace AirFerry.FastQr

inductive QRCodeError
  | encodedData
  | specifiedVersion
deriving DecidableEq, Repr

def QRCode.new (input : Bytes) (version : Version) : Exec (Except QRCodeError QRCode) :=
  let mode := Encode.bestEncoding input
  match Version.get mode input.length with
  | none => return .error .encodedData
  | some smallest =>
      if smallest.val ≤ version.val then do
        let out ← Placement.createMatrix input mode version
        return .ok out
      else return .error .specifiedVersion

end AirFerry.FastQr
