import AirFerry.TransferEngine.Receiver
import AirFerry.TransferEngine.Sender

/-!
# The sender of a native host

It keeps the whole payload and a session for one of its segments. A `usize` has 64 bits here.
-/

namespace AirFerry.TransferEngine
open QrProtocol RaptorqCore

structure CffiSender where
  payload : Bytes
  filename : String
  config : SenderConfig
  rootSessionId : U128
  crc32 : U32
  rootSha256 : Octets 32
  segmentCount : U32
  segmentIndex : U32
  session : SenderSession

namespace CffiSender

variable (E : Env)

def buildSession (payload : Bytes) (filename : String) (config : SenderConfig) (rootSessionId : U128)
    (crc32 : U32) (rootSha256 : Octets 32) (segmentCount segmentIndex : U32) :
    Exec (Except Error SenderSession) :=
  let originalSize := BitVec.ofNat 64 payload.length
  if segmentCount.toNat ≤ 1 then
    SenderSession.new E.raptorq payload rootSessionId config {
      filename := filename, originalSize, crc32, compression := compressionNone,
      compressedSize := originalSize, compressedSizeKnown := true, crc32Known := true }
  else
    match checkedMul segmentIndex.toNat segmentRawBytes with
    | none => .ok (.error (.invalidSegment "segment offset overflow"))
    | some start =>
        let stop := min (saturatingAdd 64 start segmentRawBytes) originalSize.toNat
        match getRange payload start stop with
        | none => .ok (.error (.invalidSegment "segment range outside payload"))
        | some segment =>
            SenderSession.newSegment E.raptorq segment
              (SessionId.deriveSegment rootSessionId segmentIndex) config {
                filename := filename, originalSize, crc32, compression := compressionNone,
                compressedSize := BitVec.ofNat 64 segment.length, compressedSizeKnown := true,
                crc32Known := true } {
                rootSessionId := rootSessionId, segmentIndex, segmentCount,
                originalOffset := BitVec.ofNat 64 start, rootOriginalSize := originalSize, rootSha256,
                rawSha256 := E.sha256 segment }

def segmentCountOf (length : Nat) : Except Error U32 :=
  match checkedAdd ((length - 1) / segmentRawBytes) 1 with
  | none => .error (.invalidSegment "segment count overflow")
  | some count =>
      if 2 ^ 32 ≤ count then .error (.invalidSegment "segment count exceeds protocol budget")
      else .ok (BitVec.ofNat 32 count)

def new (payload : Bytes) (filename : String) (modifiedMs : U64) (redundancyPct : U8)
    (symbolSize : U32) : Exec (Except Error CffiSender) := do
  if payload = [] ∨ maxOriginalBytes < payload.length then return .error .noPayload
  match Config.new symbolSize with
  | .error error => return .error (.raptorq error)
  | .ok codec =>
      let config : SenderConfig := { codec, redundancyPct }
      match config.validate with
      | .error error => return .error error
      | .ok () =>
          let fingerprint := contentFingerprint (payload.take (min payload.length 1024))
            (payload.drop (payload.length - 1024))
          let rootSessionId := SessionId.derive filename (BitVec.ofNat 64 payload.length) modifiedMs
            fingerprint
          let crc32 := E.crc32 payload
          let rootSha256 := E.sha256 payload
          match checkedAdd ((payload.length - 1) / segmentRawBytes) 1 with
          | none => return .error (.invalidSegment "segment count overflow")
          | some count =>
              if 2 ^ 32 ≤ count then
                return .error (.invalidSegment "segment count exceeds protocol budget")
              let segmentCount := BitVec.ofNat 32 count
              match ← buildSession E payload filename config rootSessionId crc32 rootSha256 segmentCount
                  0 with
              | .error error => return .error error
              | .ok session =>
                  return .ok {
                    payload := payload, filename, config, rootSessionId, crc32, rootSha256,
                    segmentCount, segmentIndex := 0, session }

def selectSegment (s : CffiSender) (segmentIndex : U32) : Exec (CffiSender × Except Error Unit) := do
  if s.segmentCount.toNat ≤ segmentIndex.toNat then
    return (s, .error (.invalidSegment "segment index out of range"))
  match ← buildSession E s.payload s.filename s.config s.rootSessionId s.crc32 s.rootSha256
      s.segmentCount segmentIndex with
  | .error error => return (s, .error error)
  | .ok next => return ({ s with segmentIndex, session := next }, .ok ())

end CffiSender

end AirFerry.TransferEngine
