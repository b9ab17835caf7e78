import AirFerry.TransferEngine.ReceiverAbi

namespace AirFerry.Ios
open Library QrProtocol TransferEngine

variable {E : Env}

inductive NativeError
  | createSender
  | invalidFrame
  | assemble
  | segment
deriving DecidableEq, Repr

structure NativeProgress where
  totalSymbols : Nat
  receivedSymbols : Nat
  complete : Bool
  metaConfirmed : Bool
deriving DecidableEq, Repr

structure NativeSegmentInfo where
  index : Nat
  count : Nat
  rootLow : U64
  rootHigh : U64
  compression : U8
  expectedSize : U64
  expectedCRC : U32
  crcKnown : Bool
  rootSHA256 : Octets 32
  filename : String
deriving DecidableEq

def NativeSegmentInfo.rootKey (info : NativeSegmentInfo) : String :=
  Hex.encode (toBe 8 info.rootHigh ++ toBe 8 info.rootLow)

/-- The receiver's handle, `none` until a frame creates it. -/
abbrev NativeReceiver (E : Env) := Option (ReceiverSession E)

namespace NativeReceiver

def progressOf (s : ReceiverSession E) : NativeProgress :=
  let p := s.getProgress
  { totalSymbols := p.totalSymbols, receivedSymbols := p.receivedSymbols, complete := p.isComplete,
    metaConfirmed := p.metaConfirmed }

def ingest (native : NativeReceiver E) (frame : Bytes) :
    Exec (NativeReceiver E × Except NativeError NativeProgress) := do
  let handle ← match native with
    | some s => pure (some s)
    | none => airferryReceiverCreateFromFrame E frame
  match handle with
  | none => return (none, .error .invalidFrame)
  | some s =>
      let (s, status) ← airferryReceiverIngest s frame
      if (status >>> 32).setWidth 32 = (0xFFFFFFFF : U32) then return (some s, .error .invalidFrame)
      else return (some s, .ok (progressOf s))

def isComplete (native : NativeReceiver E) : Bool := native.any ReceiverSession.isComplete

def isSegmented (native : NativeReceiver E) : Bool := native.any airferryReceiverIsSegmented

def filename (native : NativeReceiver E) : String :=
  (native.map fun s => s.fileMeta.filename).getD ""

def assemble (native : NativeReceiver E) : NativeReceiver E × Except NativeError Bytes :=
  match native with
  | none => (none, .error .assemble)
  | some s =>
      match airferryReceiverAssemble s with
      | (s, some data) => (some s, .ok data)
      | (s, none) => (some s, .error .assemble)

def assembleRaw (native : NativeReceiver E) : Except NativeError Bytes :=
  match native.bind airferryReceiverAssembleRaw with
  | some data => .ok data
  | none => .error .assemble

def infoOf (s : ReceiverSession E) (rootSHA256 : Octets 32) : NativeSegmentInfo where
  index := (airferryReceiverSegmentIndex s).toNat
  count := (airferryReceiverSegmentCount s).toNat
  rootLow := airferryReceiverRootSessionIdLo s
  rootHigh := airferryReceiverRootSessionIdHi s
  compression := s.fileMeta.compression
  expectedSize := s.fileMeta.originalSize
  expectedCRC := s.fileMeta.crc32
  crcKnown := s.fileMeta.crc32Known
  rootSHA256 := rootSHA256
  filename := s.fileMeta.filename

def segmentInfo (native : NativeReceiver E) : Except NativeError NativeSegmentInfo :=
  match native with
  | none => .error .segment
  | some s =>
      match airferryReceiverRootSha256 s with
      | none => .error .segment
      | some rootSHA256 => .ok (infoOf s rootSHA256)

/-- `finishSegmented`: the file it leaves at the output. -/
def finishSegmented (E : Env) (input : Bytes) (info : NativeSegmentInfo) :
    Except NativeError Bytes :=
  match airferryDecompressStreamToFile E input info.compression info.expectedSize info.expectedSize
      info.expectedCRC info.crcKnown (Hex.encode info.rootSHA256.1) with
  | some output => .ok output
  | none => .error .assemble

end NativeReceiver

end AirFerry.Ios
