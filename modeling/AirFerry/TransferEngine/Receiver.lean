import AirFerry.RaptorqCore.Decoder
import AirFerry.TransferEngine.Descriptor
import Mathlib.Data.List.AList

/-!
# The receiver session

`ingest` takes one frame: a descriptor is checked and adopted, a data frame is buffered until then
and fed to the decoder afterwards.
-/

namespace AirFerry.TransferEngine
open Library QrProtocol RaptorqCore

/-- What the core takes from outside the repository, and the order in which a drained `HashMap`
yields its entries. -/
structure Env where
  crc32 : Bytes → U32
  sha256 : Bytes → Octets 32
  raptorq : Raptorq
  codecs : Codecs
  drain : List ((_ : U32 × U32) × Bytes) → List ((_ : U32 × U32) × Bytes)
  drain_perm : ∀ entries, (drain entries).Perm entries

structure Progress where
  decodedSymbols : Nat
  totalSymbols : Nat
  symbolSize : U32
  receivedSymbols : Nat
  framesSeen : U64
  framesDuplicate : U64
  framesCorrupt : U64
  decodedBlocks : Nat
  totalBlocks : Nat
  metaConfirmed : Bool
  sessionMismatchStreak : U32
deriving DecidableEq, Repr

def Progress.default : Progress :=
  { decodedSymbols := 0, totalSymbols := 0, symbolSize := 0, receivedSymbols := 0, framesSeen := 0,
    framesDuplicate := 0, framesCorrupt := 0, decodedBlocks := 0, totalBlocks := 0,
    metaConfirmed := false, sessionMismatchStreak := 0 }

def Progress.isComplete (p : Progress) : Bool :=
  0 < p.totalBlocks ∧ p.decodedBlocks = p.totalBlocks

structure ReceiverSession (E : Env) where
  sessionId : U128
  objectMeta : Option ObjectMeta
  decoder : Option (Decoder E.raptorq)
  metaConfirmed : Bool
  descriptorSeen : Bool
  fileMeta : FileMeta
  segmentMeta : Option SegmentMeta
  received : List (Finset U32)
  sourceRecv : List Nat
  symbolCache : AList fun _ : U32 × U32 => Bytes
  progress : Progress
  sessionMismatchStreak : U32
  pendingSymbolSize : U32
  lastAssembleError : Option String

def preMetaSymbolCacheMax : Nat := 12000
def preMetaCacheBytesBudget : Nat := maxObjectBytes
def preMetaCacheBytesPerEntry : Nat := 64

def preMetaCacheMax (pendingSymbolSize : U32) : Nat :=
  if pendingSymbolSize = 0 then preMetaSymbolCacheMax
  else ceilDiv preMetaCacheBytesBudget (max pendingSymbolSize.toNat preMetaCacheBytesPerEntry)

namespace ReceiverSession

variable {E : Env}

def build (sessionId : U128) (objectMeta : Option ObjectMeta)
    (decoder : Option (Decoder E.raptorq)) (metaConfirmed : Bool) : Exec (ReceiverSession E) := do
  let blocks := (objectMeta.map fun m => m.blocks).getD []
  let totalSymbols ← sumU32 (blocks.map fun b => b.numSourceSymbols.toNat)
  return {
    sessionId := sessionId
    objectMeta := objectMeta
    decoder := decoder
    metaConfirmed := metaConfirmed
    descriptorSeen := false
    fileMeta := .default
    segmentMeta := none
    received := blocks.map fun _ => ∅
    sourceRecv := blocks.map fun _ => 0
    symbolCache := ∅
    progress := { Progress.default with totalSymbols, totalBlocks := asU32 blocks.length }
    sessionMismatchStreak := 0
    pendingSymbolSize := (objectMeta.map fun m => m.symbolSize).getD 0
    lastAssembleError := none }

def newConfirmed (sessionId : U128) (objectMeta : ObjectMeta) :
    Exec (Except Error (ReceiverSession E)) := do
  match ← Decoder.new objectMeta with
  | .error e => return .error (.raptorq e)
  | .ok decoder => return .ok (← build sessionId (some objectMeta) (some decoder) true)

def newPending (sessionId : U128) : Exec (ReceiverSession E) := build sessionId none none false

def isComplete (s : ReceiverSession E) : Bool := s.decoder.any Decoder.isComplete

def isMetaConfirmed (s : ReceiverSession E) : Bool := s.metaConfirmed

def corrupt (s : ReceiverSession E) : ReceiverSession E :=
  { s with progress := { s.progress with framesCorrupt := s.progress.framesCorrupt + 1 } }

def duplicate (s : ReceiverSession E) : ReceiverSession E :=
  { s with progress := { s.progress with framesDuplicate := s.progress.framesDuplicate + 1 } }

def insertReceived (s : ReceiverSession E) (sbn : Nat) (esi : U32) :
    Exec (ReceiverSession E × Bool) := do
  let block ← index s.received sbn
  return ({ s with received := s.received.set sbn (insert esi block) }, esi ∉ block)

def countSource (s : ReceiverSession E) (objectMeta : ObjectMeta) (sbn : Nat) (esi : U32) :
    Exec (ReceiverSession E) := do
  let block ← index objectMeta.blocks sbn
  if esi.toNat < block.numSourceSymbols.toNat then
    let count ← addU32 (← index s.sourceRecv sbn) 1
    return { s with sourceRecv := s.sourceRecv.set sbn count }
  else return s

def feedDecoder (s : ReceiverSession E) (symbol : Symbol) :
    Exec (ReceiverSession E × Except RaptorqCore.Error Unit) := do
  match s.decoder with
  | none => return (s, .ok ())
  | some decoder =>
      let (decoder, result) ← decoder.addSymbol symbol
      return ({ s with decoder := some decoder }, result.map fun _ => ())

def countBlocks (decoder : Decoder E.raptorq) (sourceRecv : List Nat) :
    Nat → List SourceBlockMeta → Nat → Nat → Exec (Nat × Nat)
  | _, [], decodedSymbols, decodedBlocks => .ok (decodedSymbols, decodedBlocks)
  | i, b :: rest, decodedSymbols, decodedBlocks => do
      match ← decoder.blockProgress b.sbn with
      | some _ =>
          let decodedSymbols ← addU32 decodedSymbols b.numSourceSymbols.toNat
          let decodedBlocks ← addU32 decodedBlocks 1
          countBlocks decoder sourceRecv (i + 1) rest decodedSymbols decodedBlocks
      | none =>
          let seen ← index sourceRecv i
          let decodedSymbols ← addU32 decodedSymbols (min seen b.numSourceSymbols.toNat)
          countBlocks decoder sourceRecv (i + 1) rest decodedSymbols decodedBlocks

def refreshDecodedCounts (s : ReceiverSession E) : Exec (ReceiverSession E) := do
  match s.objectMeta, s.decoder with
  | some objectMeta, some decoder =>
      let (decodedSymbols, decodedBlocks) ← countBlocks decoder s.sourceRecv 0 objectMeta.blocks 0 0
      return { s with progress := { s.progress with decodedSymbols, decodedBlocks } }
  | _, _ => return s

/-- The loop over the drained cache in `apply_meta`. -/
def replay (objectMeta : ObjectMeta) :
    ReceiverSession E → List ((_ : U32 × U32) × Bytes) → Exec (ReceiverSession E × Except Error Unit)
  | s, [] => .ok (s, .ok ())
  | s, ⟨(sbn, esi), data⟩ :: rest => do
      let bi := sbn.toNat
      if s.received.length ≤ bi ∨ 2 ^ 24 ≤ esi.toNat ∨
          data.length ≠ objectMeta.symbolSize.toNat then
        replay objectMeta s.corrupt rest
      else
        match ← s.feedDecoder (Symbol.new sbn esi data) with
        | (s, .error e) => return (s, .error (.raptorq e))
        | (s, .ok ()) =>
            let (s, fresh) ← s.insertReceived bi esi
            if fresh then
              let s ← s.countSource objectMeta bi esi
              replay objectMeta s rest
            else replay objectMeta s rest

def applyMeta (s : ReceiverSession E) (objectMeta : ObjectMeta) :
    Exec (ReceiverSession E × Except Error Unit) := do
  match ← Decoder.new objectMeta with
  | .error e => return (s, .error (.raptorq e))
  | .ok decoder =>
      let cachedSymbols := E.drain s.symbolCache.entries
      let totalSymbols ← sumU32 (objectMeta.blocks.map fun b => b.numSourceSymbols.toNat)
      let reset := { s with
        symbolCache := ∅
        objectMeta := some objectMeta
        pendingSymbolSize := objectMeta.symbolSize
        progress := { s.progress with totalSymbols, totalBlocks := asU32 objectMeta.blocks.length }
        received := objectMeta.blocks.map fun _ => ∅
        sourceRecv := objectMeta.blocks.map fun _ => 0
        decoder := some decoder }
      match ← replay objectMeta reset cachedSymbols with
      | (s, .error e) => return (s, .error e)
      | (s, .ok ()) =>
          let receivedSymbols ← sumU32 (s.received.map fun block => asU32 block.card)
          let s := { s with progress := { s.progress with receivedSymbols } }
          return (← s.refreshDecodedCounts, .ok ())

def frameGeometryInvalid (frame : Frame) (objectMeta : ObjectMeta) : Bool :=
  let totalSymbols := objectMeta.blocks.foldl (fun sum b => sum.bind fun total =>
    if total + b.numSourceSymbols.toNat < 2 ^ 32 then some (total + b.numSourceSymbols.toNat)
    else none) (some 0)
  frame.header.symbolSize ≠ objectMeta.symbolSize ∨
    frame.header.totalBlocks.toNat ≠ asU32 objectMeta.blocks.length ∨
    totalSymbols ≠ some frame.header.totalSymbols.toNat

def segmentInvalid (frame : Frame) (info : DescriptorInfo) : Bool :=
  info.segment.any fun segment =>
    !(segment.validate frame.header.sessionId info.fileMeta).isOk

def fileMetaInvalid (info : DescriptorInfo) : Bool :=
  ¬ isKnownCompressionTag info.fileMeta.compression ∨
    (info.segment = none ∧ maxOriginalBytes < info.fileMeta.originalSize.toNat) ∨
    (info.fileMeta.compressedSizeKnown ∧
      info.objectMeta.transferLength.toNat < info.fileMeta.compressedSize.toNat) ∨
    (info.segment = none ∧ info.fileMeta.compression ≠ compressionNone ∧
      info.fileMeta.originalSize.toNat = 0)

def descriptorInvalid (R : Raptorq) (frame : Frame) (info : DescriptorInfo) : Bool :=
  !(info.objectMeta.validate R).isOk || frameGeometryInvalid frame info.objectMeta ||
    fileMetaInvalid info || segmentInvalid frame info

def adopt (s : ReceiverSession E) (info : DescriptorInfo) : ReceiverSession E :=
  { s with
    metaConfirmed := true
    descriptorSeen := true
    symbolCache := ∅
    fileMeta := info.fileMeta
    segmentMeta := info.segment }

def ingestDescriptor (s : ReceiverSession E) (frame : Frame) :
    Exec (ReceiverSession E × Except Error Bool) := do
  match ← Descriptor.parsePayload frame.payload with
  | none => return (s.corrupt, .ok s.isComplete)
  | some info =>
      if descriptorInvalid E.raptorq frame info then return (s.corrupt, .ok s.isComplete)
      else if s.descriptorSeen then
        if s.objectMeta ≠ some info.objectMeta ∨ s.fileMeta ≠ info.fileMeta ∨
            s.segmentMeta ≠ info.segment then
          return (s.corrupt, .ok s.isComplete)
        else return (s, .ok s.isComplete)
      else
        match s.objectMeta with
        | none =>
            match ← s.applyMeta info.objectMeta with
            | (s, .error e) => return (s, .error e)
            | (s, .ok ()) => return (s.adopt info, .ok (s.adopt info).isComplete)
        | some current =>
            if current ≠ info.objectMeta then return (s.corrupt, .ok s.isComplete)
            else return (s.adopt info, .ok (s.adopt info).isComplete)

def cacheSymbol (s : ReceiverSession E) (frame : Frame) : ReceiverSession E :=
  let key := (frame.header.sbn, frame.header.esi)
  if key ∈ s.symbolCache then s.duplicate
  else if preMetaCacheMax frame.header.symbolSize ≤ s.symbolCache.entries.length then s.corrupt
  else { s with symbolCache := s.symbolCache.insert key frame.payload }

def bufferSymbol (s : ReceiverSession E) (frame : Frame) : ReceiverSession E :=
  let s := { s with pendingSymbolSize := frame.header.symbolSize }.cacheSymbol frame
  { s with progress := { s.progress with
      receivedSymbols := asU32 s.symbolCache.entries.length, decodedSymbols := 0 } }

/-- The rest of the data path, once the symbol is in its block's received set. -/
def acceptSymbol (s : ReceiverSession E) (frame : Frame) :
    Exec (ReceiverSession E × Except Error Bool) := do
  let receivedSymbols ← addU32 s.progress.receivedSymbols 1
  let s := { s with progress := { s.progress with receivedSymbols } }
  let s ← match s.objectMeta with
    | some objectMeta => s.countSource objectMeta frame.header.sbn.toNat frame.header.esi
    | none => pure s
  match ← s.feedDecoder (Symbol.new frame.header.sbn frame.header.esi frame.payload) with
  | (s, .error e) => return (s, .error (.raptorq e))
  | (s, .ok ()) =>
      let s ← s.refreshDecodedCounts
      return (s, .ok s.isComplete)

def ingestSymbol (s : ReceiverSession E) (frame : Frame) :
    Exec (ReceiverSession E × Except Error Bool) := do
  let sbn := frame.header.sbn.toNat
  if s.received.length ≤ sbn then return (s.corrupt, .ok s.isComplete)
  let esi := frame.header.esi
  let symSize := (s.objectMeta.map fun m => m.symbolSize.toNat).getD 0
  if 2 ^ 24 ≤ esi.toNat ∨ asU32 frame.payload.length ≠ symSize then
    return (s.corrupt, .ok s.isComplete)
  if s.isComplete then return (s.duplicate, .ok true)
  match ← s.insertReceived sbn esi with
  | (s, false) => return (s.duplicate, .ok s.isComplete)
  | (s, true) => s.acceptSymbol frame

def mismatch (s : ReceiverSession E) : ReceiverSession E :=
  let streak := s.sessionMismatchStreak + 1
  { s with
    sessionMismatchStreak := streak
    progress := { s.progress with sessionMismatchStreak := streak } }

def seen (s : ReceiverSession E) : ReceiverSession E :=
  { s with
    sessionMismatchStreak := 0
    progress := { s.progress with
      sessionMismatchStreak := 0, framesSeen := s.progress.framesSeen + 1 } }

def ingest (s : ReceiverSession E) (frame : Frame) :
    Exec (ReceiverSession E × Except Error Bool) :=
  if frame.header.sessionId ≠ s.sessionId then
    .ok (s.mismatch, .error (.sessionMismatch s.sessionId frame.header.sessionId))
  else if frame.header.flags &&& flagDescriptor ≠ 0 then s.seen.ingestDescriptor frame
  else if ¬ s.metaConfirmed then .ok (s.seen.bufferSymbol frame, .ok false)
  else s.seen.ingestSymbol frame

def fromPending (E : Env) (sessionId : U128) (frames : List (WireFrame E.crc32)) :
    Exec (ReceiverSession E × List (Except Error Bool)) := do
  let s ← newPending sessionId
  Run.run (fun s frame => s.ingest frame.1) s frames

def assembleRaw (s : ReceiverSession E) : Option Bytes := s.decoder.bind Decoder.assemble

def assembleFailed (s : ReceiverSession E) (message : String) :
    ReceiverSession E × Except Error (Option Bytes) :=
  ({ s with lastAssembleError := some message }, .error (.compress message))

def assembled (s : ReceiverSession E) (bytes : Option Bytes) :
    ReceiverSession E × Except Error (Option Bytes) :=
  ({ s with lastAssembleError := none }, .ok bytes)

def decompressTrimmed (s : ReceiverSession E) (raw : Bytes) :
    ReceiverSession E × Except Error (Option Bytes) :=
  let originalSize := s.fileMeta.originalSize.toNat
  if s.fileMeta.compression = compressionNone then s.assembled (some raw)
  else if maxOriginalBytes < originalSize then
    s.assembleFailed "descriptor original_size exceeds receiver limit"
  else
    let cap := if 0 < originalSize then originalSize else maxOriginalBytes
    match decompressWithLimit E.codecs raw s.fileMeta.compression cap with
    | .ok v =>
        if 0 < originalSize ∧ v.length ≠ originalSize then
          s.assembleFailed s!"decompressed size mismatch: expected {originalSize}, got {v.length}"
        else s.assembled (some v)
    | .error message => s.assembleFailed s!"compression error: {message}"

def assembleResult (s : ReceiverSession E) : ReceiverSession E × Except Error (Option Bytes) :=
  match s.assembleRaw with
  | none => s.assembled none
  | some raw =>
      let len := s.fileMeta.compressedSize.toNat
      if s.fileMeta.compressedSizeKnown then
        if len ≤ raw.length then s.decompressTrimmed (raw.take len)
        else s.assembleFailed
          s!"descriptor compressed_size ({len}) exceeds recovered payload ({raw.length})"
      else s.decompressTrimmed raw

def getProgress (s : ReceiverSession E) : Progress :=
  { s.progress with metaConfirmed := s.metaConfirmed, symbolSize := s.pendingSymbolSize }

end ReceiverSession

end AirFerry.TransferEngine
