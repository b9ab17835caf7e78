import AirFerry.TransferEngine.Segment

namespace AirFerry.TransferEngine
open Library QrProtocol RaptorqCore

structure DescriptorInfo where
  objectMeta : ObjectMeta
  fileMeta : FileMeta
  segment : Option SegmentMeta
deriving DecidableEq

namespace Descriptor

def descMagic : U8 := 0xD5
def descVersion : U8 := 5
def descLegacyV4 : U8 := 4
def descV3Version : U8 := 3
def descFixedOverhead : Nat := 28
def descV2TailFixed : Nat := 13
def descV3TailFixed : Nat := 9
def descSegmentTailFixed : Nat := 16 + 4 + 4 + 8 + 8 + 32 + 32

def floorCharBoundary (s : String) : Nat → Nat
  | 0 => 0
  | n+1 => if Utf8.IsBoundary s (n+1) then n+1 else floorCharBoundary s n

def blockBytes (b : SourceBlockMeta) : Bytes :=
  toBe 4 b.sbn ++ (toBe 4 b.numSourceSymbols ++ toBe 8 b.blockLength)

def segmentTail (s : SegmentMeta) : Bytes :=
  toBe 16 s.rootSessionId ++ (toBe 4 s.segmentIndex ++ (toBe 4 s.segmentCount ++
    (toBe 8 s.originalOffset ++ (toBe 8 s.rootOriginalSize ++ (s.rootSha256.1 ++ s.rawSha256.1)))))

def fileTail (filename : Bytes) (fileMeta : FileMeta) : Bytes :=
  BitVec.ofNat 8 filename.length :: (filename ++ (toBe 8 fileMeta.originalSize ++
    (toBe 4 fileMeta.crc32 ++ (fileMeta.compression :: toBe 8 fileMeta.compressedSize))))

def availableForFilename (symbolSize blocks : Nat) (segmented : Bool) : Nat :=
  symbolSize - (descFixedOverhead + blocks * 16 + descV2TailFixed + descV3TailFixed +
    if segmented then descSegmentTailFixed else 0)

def filenameSlice (objectMeta : ObjectMeta) (fileMeta : FileMeta) (segmented : Bool) : Bytes :=
  let filenameBytes := Utf8.encode fileMeta.filename
  let available := availableForFilename objectMeta.symbolSize.toNat objectMeta.blocks.length segmented
  filenameBytes.take
    (floorCharBoundary fileMeta.filename (min (min filenameBytes.length available) 255))

def buildPayloadInner (objectMeta : ObjectMeta) (fileMeta : FileMeta)
    (segment : Option SegmentMeta) : Except Error Bytes :=
  let symbolSize := objectMeta.symbolSize.toNat
  let filename := filenameSlice objectMeta fileMeta segment.isSome
  let bodyLen := descFixedOverhead + objectMeta.blocks.length * 16 + 1 + filename.length +
    descV2TailFixed - 1 + descV3TailFixed + if segment.isSome then descSegmentTailFixed else 0
  if symbolSize < bodyLen then .error (.protocol (.bufferTooShort bodyLen symbolSize))
  else
    let body := descMagic :: (if segment.isSome then descVersion else descV3Version) ::
      (toBe 2 (BitVec.ofNat 16 objectMeta.blocks.length) ++ (toBe 8 objectMeta.transferLength ++
        (toBe 4 objectMeta.symbolSize ++ (objectMeta.otiBytes.1 ++
          (objectMeta.blocks.flatMap blockBytes ++ (fileTail filename fileMeta ++
            (segment.map segmentTail).getD []))))))
    .ok (body ++ List.replicate (symbolSize - body.length) 0)

def buildPayload (objectMeta : ObjectMeta) (fileMeta : FileMeta) : Except Error Bytes :=
  buildPayloadInner objectMeta fileMeta none

def buildSegmentPayload (objectMeta : ObjectMeta) (fileMeta : FileMeta) (segment : SegmentMeta) :
    Except Error Bytes :=
  buildPayloadInner objectMeta fileMeta (some segment)

def parseBlocks (payload : Bytes) : Nat → Nat → Exec (List SourceBlockMeta × Nat)
  | 0, o => .ok ([], o)
  | n+1, o => do
      let sbn ← u32At payload o
      let numSourceSymbols ← u32At payload (o + 4)
      let blockLength ← u64At payload (o + 8)
      let (rest, o) ← parseBlocks payload n (o + 16)
      return ({ sbn := sbn, numSourceSymbols, blockLength } :: rest, o)

def parseFileMeta (payload : Bytes) (version : U8) (o : Nat) : Exec (Option (FileMeta × Nat)) := do
  if payload.length ≤ o then return none
  let fnLen ← index payload o
  let o := o + 1
  if payload.length < o + fnLen.toNat + 12 then return none
  let filenameBytes ← slice payload o (o + fnLen.toNat)
  let some filename := Utf8.decode filenameBytes | return none
  let o := o + fnLen.toNat
  let originalSize ← u64At payload o
  let crc32 ← u32At payload (o + 8)
  let o := o + 12
  if descV3Version.toNat ≤ version.toNat then
    if payload.length < o + descV3TailFixed then return none
    let compression ← index payload o
    let compressedSize ← u64At payload (o + 1)
    return some ({
      filename := filename, originalSize, crc32, compression, compressedSize,
      compressedSizeKnown := true, crc32Known := true }, o + 9)
  else
    return some ({
      filename := filename, originalSize, crc32, compression := compressionNone,
      compressedSize := originalSize, compressedSizeKnown := true, crc32Known := true }, o)

def parseSegment (payload : Bytes) (o : Nat) : Exec (Option SegmentMeta) := do
  if payload.length < o + descSegmentTailFixed then return none
  let rootSessionId ← u128At payload o
  let segmentIndex ← u32At payload (o + 16)
  let segmentCount ← u32At payload (o + 20)
  let originalOffset ← u64At payload (o + 24)
  let rootOriginalSize ← u64At payload (o + 32)
  let rootSha256 ← octetsAt 32 payload (o + 40)
  let rawSha256 ← octetsAt 32 payload (o + 72)
  return some {
    rootSessionId := rootSessionId, segmentIndex, segmentCount, originalOffset, rootOriginalSize,
    rootSha256, rawSha256 }

def parsePayload (payload : Bytes) : Exec (Option DescriptorInfo) := do
  if payload.length < descFixedOverhead then return none
  let first ← index payload 0
  if first ≠ descMagic then return none
  let version ← index payload 1
  if version.toNat < 1 ∨ descVersion.toNat < version.toNat then return none
  if version = descLegacyV4 then return none
  let numBlocks ← u16At payload 2
  if payload.length < descFixedOverhead + numBlocks.toNat * 16 then return none
  let transferLength ← u64At payload 4
  let symbolSize ← u32At payload 12
  let otiBytes ← octetsAt 12 payload 16
  let (blocks, o) ← parseBlocks payload numBlocks.toNat descFixedOverhead
  let objectMeta : ObjectMeta := { transferLength, symbolSize, otiBytes, blocks }
  if version = 1 then return some { objectMeta, fileMeta := .default, segment := none }
  let some (fileMeta, o) ← parseFileMeta payload version o | return none
  if version = descVersion then
    let some segment ← parseSegment payload o | return none
    return some { objectMeta, fileMeta, segment := some segment }
  else return some { objectMeta, fileMeta, segment := none }

theorem parseBlocks_total (payload : Bytes) (n o : Nat) (room : o + n * 16 ≤ payload.length) :
    ∃ blocks, parseBlocks payload n o = .ok (blocks, o + n * 16) ∧ blocks.length = n := by
  induction n generalizing o with
  | zero => exact ⟨[], by simp [parseBlocks], rfl⟩
  | succ n ih =>
      obtain ⟨sbn, readSbn⟩ := exists_uintAt 32 (n := 4) (by omega : o + 4 ≤ payload.length)
      obtain ⟨symbols, readSymbols⟩ := exists_uintAt 32 (n := 4)
        (by omega : o + 4 + 4 ≤ payload.length)
      obtain ⟨length, readLength⟩ := exists_uintAt 64 (n := 8)
        (by omega : o + 8 + 8 ≤ payload.length)
      obtain ⟨rest, tail, count⟩ := ih (o + 16) (by omega)
      have stop : o + 16 + n * 16 = o + (n + 1) * 16 := by omega
      refine ⟨⟨sbn, symbols, length⟩ :: rest, ?_, congrArg Nat.succ count⟩
      simp only [parseBlocks, readSbn, readSymbols, readLength, tail, stop, bind, Except.bind, pure,
        Except.pure]

theorem parseFileMeta_total (payload : Bytes) (version : U8) (o : Nat) :
    ∃ result, parseFileMeta payload version o = .ok result := by
  unfold parseFileMeta
  simp only [bind, Except.bind, pure, Except.pure]
  by_cases short : payload.length ≤ o
  · exact ⟨none, if_pos short⟩
  rw [if_neg short]
  obtain ⟨fnLen, readLen⟩ := exists_index (by omega : o < payload.length)
  rw [readLen]
  simp only
  by_cases truncated : payload.length < o + 1 + fnLen.toNat + 12
  · exact ⟨none, if_pos truncated⟩
  rw [if_neg truncated, slice_of_le (by omega)]
  simp only
  cases Utf8.decode ((payload.drop (o + 1)).take fnLen.toNat) with
  | none => exact ⟨none, rfl⟩
  | some filename =>
      obtain ⟨size, readSize⟩ := exists_uintAt 64 (n := 8)
        (by omega : o + 1 + fnLen.toNat + 8 ≤ payload.length)
      obtain ⟨crc, readCrc⟩ := exists_uintAt 32 (n := 4)
        (by omega : o + 1 + fnLen.toNat + 8 + 4 ≤ payload.length)
      simp only [readSize, readCrc]
      by_cases third : descV3Version.toNat ≤ version.toNat
      · rw [if_pos third]
        by_cases short : payload.length < o + 1 + fnLen.toNat + 12 + descV3TailFixed
        · exact ⟨none, if_pos short⟩
        · simp only [descV3TailFixed] at short
          obtain ⟨compression, readCompression⟩ := exists_index
            (by omega : o + 1 + fnLen.toNat + 12 < payload.length)
          obtain ⟨compressed, readCompressed⟩ := exists_uintAt 64 (n := 8)
            (by omega : o + 1 + fnLen.toNat + 12 + 1 + 8 ≤ payload.length)
          simp only [descV3TailFixed, if_neg short, readCompression, readCompressed]
          exact ⟨_, rfl⟩
      · rw [if_neg third]
        exact ⟨_, rfl⟩

theorem parseSegment_total (payload : Bytes) (o : Nat) :
    ∃ result, parseSegment payload o = .ok result := by
  unfold parseSegment
  simp only [bind, Except.bind, pure, Except.pure]
  by_cases short : payload.length < o + descSegmentTailFixed
  · exact ⟨none, if_pos short⟩
  rw [if_neg short]
  simp only [descSegmentTailFixed] at short
  obtain ⟨root, readRoot⟩ := exists_uintAt 128 (n := 16) (by omega : o + 16 ≤ payload.length)
  obtain ⟨index, readIndex⟩ := exists_uintAt 32 (n := 4) (by omega : o + 16 + 4 ≤ payload.length)
  obtain ⟨count, readCount⟩ := exists_uintAt 32 (n := 4) (by omega : o + 20 + 4 ≤ payload.length)
  obtain ⟨offset, readOffset⟩ := exists_uintAt 64 (n := 8) (by omega : o + 24 + 8 ≤ payload.length)
  obtain ⟨size, readSize⟩ := exists_uintAt 64 (n := 8) (by omega : o + 32 + 8 ≤ payload.length)
  obtain ⟨rootSha, readRootSha⟩ := exists_octetsAt (n := 32)
    (by omega : o + 40 + 32 ≤ payload.length)
  obtain ⟨rawSha, readRawSha⟩ := exists_octetsAt (n := 32)
    (by omega : o + 72 + 32 ≤ payload.length)
  simp only [readRoot, readIndex, readCount, readOffset, readSize, readRootSha, readRawSha]
  exact ⟨_, rfl⟩

theorem parsePayload_total (payload : Bytes) : ∃ result, parsePayload payload = .ok result := by
  unfold parsePayload
  simp only [bind, Except.bind, pure, Except.pure]
  by_cases short : payload.length < descFixedOverhead
  · exact ⟨none, if_pos short⟩
  rw [if_neg short]
  have overhead : descFixedOverhead = 28 := rfl
  obtain ⟨first, readFirst⟩ := exists_index (by omega : 0 < payload.length)
  obtain ⟨version, readVersion⟩ := exists_index (by omega : 1 < payload.length)
  obtain ⟨numBlocks, readBlocks⟩ := exists_uintAt 16 (n := 2) (by omega : 2 + 2 ≤ payload.length)
  obtain ⟨transfer, readTransfer⟩ := exists_uintAt 64 (n := 8) (by omega : 4 + 8 ≤ payload.length)
  obtain ⟨size, readSize⟩ := exists_uintAt 32 (n := 4) (by omega : 12 + 4 ≤ payload.length)
  obtain ⟨oti, readOti⟩ := exists_octetsAt (n := 12) (by omega : 16 + 12 ≤ payload.length)
  simp only [readFirst, readVersion, readBlocks]
  split
  · exact ⟨none, rfl⟩
  split
  · exact ⟨none, rfl⟩
  split
  · exact ⟨none, rfl⟩
  by_cases table : payload.length < descFixedOverhead + numBlocks.toNat * 16
  · exact ⟨none, if_pos table⟩
  obtain ⟨blocks, readTable, -⟩ :=
    parseBlocks_total payload numBlocks.toNat descFixedOverhead (not_lt.mp table)
  simp only [if_neg table, readTransfer, readSize, readOti, readTable]
  split
  · exact ⟨_, rfl⟩
  obtain ⟨fileMeta, readFile⟩ := parseFileMeta_total payload version
    (descFixedOverhead + numBlocks.toNat * 16)
  rw [readFile]
  cases fileMeta with
  | none => exact ⟨none, rfl⟩
  | some found =>
      simp only
      split
      · obtain ⟨segment, readSegment⟩ := parseSegment_total payload found.2
        rw [readSegment]
        cases segment with
        | none => exact ⟨none, rfl⟩
        | some segment => exact ⟨_, rfl⟩
      · exact ⟨_, rfl⟩

end Descriptor

end AirFerry.TransferEngine
