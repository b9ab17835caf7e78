import AirFerry.FastQr.Qr

namespace AirFerry.QrProtocol.QrRender
open FastQr

def qrMaxBytes : Nat := 2953

def qrByteCapacityL : List Nat := [
  17, 32, 53, 78, 106, 134, 154, 192, 230, 271, 321, 367, 425, 458, 520, 586, 644, 718, 792, 858,
  929, 1003, 1091, 1171, 1273, 1367, 1465, 1528, 1628, 1732, 1840, 1952, 2068, 2188, 2303, 2431,
  2563, 2699, 2809, 2953]

def minVersionFor (len : Nat) : Option Nat :=
  (qrByteCapacityL.findIdx? fun cap => len ≤ cap).map (· + 1)

structure QrMatrix where
  modules : List Bool
  size : Nat
deriving DecidableEq, Repr

/-- `BufferTooShort`, the only error of this module. -/
structure BufferTooShort where
  need : Nat
  have' : Nat
deriving DecidableEq, Repr

/-- The versions from `v` on, at most `left` of them; the first that accepts the data is taken. -/
def encodeFrom (data : Bytes) (v : Nat) : Nat → Exec (Except BufferTooShort QrMatrix)
  | 0 => return .error { need := qrMaxBytes, have' := data.length }
  | left+1 => do
      let version ← index (List.finRange 40) (v - 1)
      match ← QRCode.new data version with
      | .error _ => encodeFrom data (v + 1) left
      | .ok code =>
          let modules ← slice code.data 0 (code.size * code.size)
          return .ok { modules := modules.map Module.value, size := code.size }

def encode (data : Bytes) : Exec (Except BufferTooShort QrMatrix) :=
  match minVersionFor data.length with
  | none => return .error { need := qrMaxBytes, have' := data.length }
  | some start => encodeFrom data start (41 - start)

end AirFerry.QrProtocol.QrRender
