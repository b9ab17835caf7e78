import AirFerry.QrProtocol.Chunker
import AirFerry.QrProtocol.Frame
import AirFerry.RaptorqCore.Encoder
import AirFerry.TransferEngine.Descriptor

/-!
# The sender session

`next_frame` emits a descriptor at every multiple of the interval, and otherwise the next symbol:
every source symbol once, round by round over the blocks, and from then on fresh repair symbols.
The wall clock is an argument.
-/

namespace AirFerry.TransferEngine
open QrProtocol RaptorqCore

namespace Descriptor

variable (crc32 : Bytes → U32)

def buildFrame (objectMeta : ObjectMeta) (fileMeta : FileMeta) (sessionId : U128)
    (frameIndex timestampMs : U64) : Exec (Except Error Frame) := do
  match buildPayload objectMeta fileMeta with
  | .error error => return .error error
  | .ok payload =>
      let totalSymbols ← sumU32 (objectMeta.blocks.map fun b => b.numSourceSymbols.toNat)
      return .ok (Frame.build crc32 sessionId flagDescriptor 0 0
        (BitVec.ofNat 32 objectMeta.blocks.length) (BitVec.ofNat 32 totalSymbols)
        objectMeta.symbolSize frameIndex timestampMs payload)

def buildSegmentFrame (objectMeta : ObjectMeta) (fileMeta : FileMeta) (segment : SegmentMeta)
    (childSessionId : U128) (frameIndex timestampMs : U64) : Exec (Except Error Frame) := do
  match segment.validate childSessionId fileMeta with
  | .error reason => return .error (.invalidSegment reason)
  | .ok () =>
      match buildSegmentPayload objectMeta fileMeta segment with
      | .error error => return .error error
      | .ok payload =>
          let totalSymbols ← sumU32 (objectMeta.blocks.map fun b => b.numSourceSymbols.toNat)
          return .ok (Frame.build crc32 childSessionId flagDescriptor 0 0
            (BitVec.ofNat 32 objectMeta.blocks.length) (BitVec.ofNat 32 totalSymbols)
            objectMeta.symbolSize frameIndex timestampMs payload)

end Descriptor

structure SenderConfig where
  codec : Config
  redundancyPct : U8
deriving DecidableEq

def SenderConfig.validate (config : SenderConfig) : Except Error Unit :=
  if 5 ≤ config.redundancyPct.toNat ∧ config.redundancyPct.toNat ≤ 50 then .ok ()
  else .error (.invalidRedundancy config.redundancyPct.toNat)

def buildSourcePlan (m : ObjectMeta) : List (U32 × U32) :=
  let maxK := (m.blocks.map fun b => b.numSourceSymbols.toNat).foldl max 0
  (List.range maxK).flatMap fun esi =>
    (m.blocks.filter fun b => decide (esi < b.numSourceSymbols.toNat)).map fun b =>
      (b.sbn, BitVec.ofNat 32 esi)

def repairSymbolId (blocks : List SourceBlockMeta) (cursor : Nat) : Exec (Option (U32 × U32)) := do
  let nblocks := blocks.length
  let offset := cursor / nblocks
  if 2 ^ 32 ≤ offset then return none
  let b ← index blocks (cursor % nblocks)
  match checkedAddU32 b.numSourceSymbols.toNat offset with
  | none => return none
  | some esi => return if esi < 2 ^ 24 then some (b.sbn, BitVec.ofNat 32 esi) else none

structure SenderSession where
  config : SenderConfig
  sessionId : U128
  encoder : Encoder
  objectMeta : ObjectMeta
  fileMeta : FileMeta
  segmentMeta : Option SegmentMeta
  totalK : U32
  sourcePlan : List (U32 × U32)
  sourceCursor : Nat
  repairCursor : Nat
  frameIndex : U64
  descriptorInterval : U32

namespace SenderSession

section
variable (R : Raptorq)

def newInner (compressedPayload : Bytes) (sessionId : U128) (config : SenderConfig)
    (fileMeta : FileMeta) (segmentMeta : Option SegmentMeta) :
    Exec (Except Error SenderSession) := do
  match config.validate with
  | .error error => return .error error
  | .ok () =>
      match Encoder.new R (padToSymbols compressedPayload config.codec) config.codec with
      | .error error => return .error (.raptorq error)
      | .ok encoder =>
          let objectMeta := encoder.objectMeta
          match Descriptor.buildPayloadInner objectMeta fileMeta segmentMeta with
          | .error error => return .error error
          | .ok _ =>
              let totalK ← sumU32 (objectMeta.blocks.map fun b => b.numSourceSymbols.toNat)
              return .ok {
                config, sessionId, encoder, objectMeta, fileMeta, segmentMeta,
                totalK := BitVec.ofNat 32 totalK, sourcePlan := buildSourcePlan objectMeta,
                sourceCursor := 0, repairCursor := 0, frameIndex := 0, descriptorInterval := 17 }

def new (compressedPayload : Bytes) (sessionId : U128) (config : SenderConfig)
    (fileMeta : FileMeta) : Exec (Except Error SenderSession) :=
  newInner R compressedPayload sessionId config fileMeta none

def newSegment (compressedPayload : Bytes) (childSessionId : U128) (config : SenderConfig)
    (fileMeta : FileMeta) (segmentMeta : SegmentMeta) : Exec (Except Error SenderSession) :=
  if fileMeta.compressedSize ≠ BitVec.ofNat 64 compressedPayload.length ∨
      ¬ fileMeta.compressedSizeKnown then
    .ok (.error (.invalidSegment "segment compressed size does not match payload"))
  else
    match segmentMeta.validate childSessionId fileMeta with
    | .error reason => .ok (.error (.invalidSegment reason))
    | .ok () => newInner R compressedPayload childSessionId config fileMeta (some segmentMeta)

end

def setDescriptorInterval (s : SenderSession) (interval : U32) : SenderSession :=
  { s with descriptorInterval := if interval = 0 then 1 else interval }

@[simp] theorem setDescriptorInterval_sourcePlan (s : SenderSession) (interval : U32) :
    (s.setDescriptorInterval interval).sourcePlan = s.sourcePlan := rfl

@[simp] theorem setDescriptorInterval_objectMeta (s : SenderSession) (interval : U32) :
    (s.setDescriptorInterval interval).objectMeta = s.objectMeta := rfl

@[simp] theorem setDescriptorInterval_totalK (s : SenderSession) (interval : U32) :
    (s.setDescriptorInterval interval).totalK = s.totalK := rfl

def nextSymbolId (s : SenderSession) : Exec (SenderSession × Except Error (U32 × U32)) := do
  if s.sourceCursor < s.sourcePlan.length then
    let id ← index s.sourcePlan s.sourceCursor
    return ({ s with sourceCursor := s.sourceCursor + 1 }, .ok id)
  match ← repairSymbolId s.objectMeta.blocks s.repairCursor with
  | none => return (s, .error .symbolIdSpaceExhausted)
  | some id =>
      match checkedAdd s.repairCursor 1 with
      | none => return (s, .error .symbolIdSpaceExhausted)
      | some cursor => return ({ s with repairCursor := cursor }, .ok id)

def fetchSymbol (s : SenderSession) (sbn esi : U32) : Exec (Except Error Symbol) := do
  let blockMeta ← index s.objectMeta.blocks sbn.toNat
  let k := blockMeta.numSourceSymbols
  if esi.toNat < k.toNat then
    match ← s.encoder.sourceSymbol sbn esi with
    | .error error => return .error (.raptorq error)
    | .ok symbol => return .ok symbol
  else
    match ← s.encoder.repairSymbols sbn (esi - k) 1 with
    | .error error => return .error (.raptorq error)
    | .ok symbols =>
        let symbol ← index symbols 0
        return .ok symbol

def descriptorDue (s : SenderSession) : Bool :=
  let interval := max s.descriptorInterval.toNat 1
  decide (s.frameIndex = 0 ∨ 0 < s.frameIndex.toNat ∧ s.frameIndex.toNat % interval = 0)

section
variable (crc32 : Bytes → U32)

def descriptorFrame (s : SenderSession) (nowMs : U64) : Exec (Except Error Frame) :=
  match s.segmentMeta with
  | some segment =>
      Descriptor.buildSegmentFrame crc32 s.objectMeta s.fileMeta segment s.sessionId s.frameIndex nowMs
  | none => Descriptor.buildFrame crc32 s.objectMeta s.fileMeta s.sessionId s.frameIndex nowMs

def nextFrame (s : SenderSession) (nowMs : U64) : Exec (SenderSession × Except Error Frame) := do
  if s.sourcePlan = [] then return (s, .error .noPayload)
  if s.descriptorDue then
    let s := { s with frameIndex := s.frameIndex + 1 }
    return (s, ← s.descriptorFrame crc32 nowMs)
  let (s, result) ← s.nextSymbolId
  match result with
  | .error error => return (s, .error error)
  | .ok (sbn, esi) =>
      match ← s.fetchSymbol sbn esi with
      | .error error => return (s, .error error)
      | .ok symbol =>
          let s := { s with frameIndex := s.frameIndex + 1 }
          return (s, .ok (Frame.build crc32 s.sessionId 0 sbn esi
            (BitVec.ofNat 32 s.objectMeta.blocks.length) s.totalK s.config.codec.symbolSize
            s.frameIndex nowMs symbol.data))

def run (s : SenderSession) : List U64 → Exec (SenderSession × List (Except Error Frame))
  | [] => .ok (s, [])
  | nowMs :: later => do
      let (s, result) ← s.nextFrame crc32 nowMs
      let (s, results) ← s.run later
      return (s, result :: results)

end

end SenderSession

end AirFerry.TransferEngine
