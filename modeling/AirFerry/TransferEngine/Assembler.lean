import AirFerry.Library.Pieces
import AirFerry.TransferEngine.Segment

/-!
# Assembling a large transfer

The segments of one transfer are collected as they arrive and concatenated once all are in. The
source's fallible reservations of memory are taken to succeed.
-/

namespace AirFerry.TransferEngine
open Library QrProtocol RaptorqCore

def maxInMemoryAssemblyBytes : Nat := 256 * 1024 * 1024

structure TransferAssembler where
  rootSessionId : U128
  filename : String
  totalSegments : U32
  rootCompressedSize : U64
  rootOriginalSize : U64
  rootSha256 : Octets 32
  segments : List (Option Bytes)
  segmentMeta : List (Option SegmentMeta)
  receivedCount : Nat

def expectedSegmentCount (rootCompressedSize : U64) : Option U32 :=
  if rootCompressedSize.toNat = 0 then some 0
  else
    let count := (rootCompressedSize.toNat - 1) / segmentRawBytes + 1
    if count < 2 ^ 32 then some (BitVec.ofNat 32 count) else none

def segmentRawLen (rootSize : U64) (segmentIndex : U32) : Nat :=
  let off := segmentIndex.toNat * segmentRawBytes
  min (rootSize.toNat - off) segmentRawBytes

def validateSegmentRange (seg : SegmentMeta) (fileMeta : FileMeta) (rootCompressedSize : U64) :
    Except Error Unit :=
  if seg.segmentCount.toNat = 0 ∨ maxSegmentCount < seg.segmentCount.toNat then
    .error (.invalidSegment "segment count out of range")
  else if expectedSegmentCount rootCompressedSize ≠ some seg.segmentCount then
    .error (.invalidSegment "segment count inconsistent with compressed root size")
  else if seg.segmentCount.toNat ≤ seg.segmentIndex.toNat then
    .error (.invalidSegment "segment index out of range")
  else if seg.rootOriginalSize ≠ rootCompressedSize then
    .error (.invalidSegment "segment root size does not match assembler")
  else
    match checkedMul seg.segmentIndex.toNat segmentRawBytes with
    | none => .error (.invalidSegment "segment offset overflow")
    | some expectedOffset =>
        if seg.originalOffset.toNat ≠ expectedOffset then
          .error (.invalidSegment "segment offset is not canonical")
        else
          let canonicalLen := segmentRawLen rootCompressedSize seg.segmentIndex
          if canonicalLen < fileMeta.compressedSize.toNat then
            .error (.invalidSegment "segment compressed length exceeds canonical compressed range")
          else .ok ()

namespace TransferAssembler

def empty (seg : SegmentMeta) (fileMeta : FileMeta) : TransferAssembler where
  rootSessionId := seg.rootSessionId
  filename := fileMeta.filename
  totalSegments := seg.segmentCount
  rootCompressedSize := seg.rootOriginalSize
  rootOriginalSize := fileMeta.originalSize
  rootSha256 := seg.rootSha256
  segments := List.replicate seg.segmentCount.toNat none
  segmentMeta := List.replicate seg.segmentCount.toNat none
  receivedCount := 0

def new (seg : SegmentMeta) (fileMeta : FileMeta) : Except Error TransferAssembler :=
  if seg.segmentCount.toNat = 0 ∨ maxSegmentCount < seg.segmentCount.toNat then
    .error (.invalidSegment "segment count out of range")
  else if seg.rootOriginalSize.toNat = 0 then
    .error (.invalidSegment "segment compressed root size is empty")
  else
    match expectedSegmentCount seg.rootOriginalSize with
    | none => .error (.invalidSegment "segment count overflow")
    | some expected =>
        if expected ≠ seg.segmentCount then
          .error (.invalidSegment "segment count inconsistent with compressed root size")
        else
          match validateSegmentRange seg fileMeta seg.rootOriginalSize with
          | .error e => .error e
          | .ok () => .ok (empty seg fileMeta)

def isComplete (a : TransferAssembler) : Bool := a.receivedCount = a.totalSegments.toNat

def hasSegment (a : TransferAssembler) (segmentIndex : U32) : Bool :=
  (a.segments[segmentIndex.toNat]?.map Option.isSome).getD false

def addSegment (sha256 : Bytes → Octets 32) (a : TransferAssembler) (seg : SegmentMeta)
    (fileMeta : FileMeta) (bytes : Bytes) : Exec (TransferAssembler × Except Error Bool) := do
  if seg.rootSessionId ≠ a.rootSessionId then
    return (a, .error (.invalidSegment "segment root id does not match assembler"))
  if seg.segmentCount ≠ a.totalSegments then
    return (a, .error (.invalidSegment "segment count does not match assembler"))
  if seg.rootSha256 ≠ a.rootSha256 then
    return (a, .error (.invalidSegment "segment root sha256 does not match assembler"))
  if fileMeta.filename ≠ a.filename then
    return (a, .error (.invalidSegment "segment filename does not match assembler"))
  match validateSegmentRange seg fileMeta a.rootCompressedSize with
  | .error e => return (a, .error e)
  | .ok () =>
      let idx := seg.segmentIndex.toNat
      if bytes.length ≠ fileMeta.compressedSize.toNat then
        return (a, .error (.invalidSegment "segment length mismatch"))
      if segmentRawLen a.rootCompressedSize seg.segmentIndex < bytes.length then
        return (a, .error (.invalidSegment "segment length exceeds canonical range"))
      if sha256 bytes ≠ seg.rawSha256 then
        return (a, .error (.invalidSegment "segment sha256 mismatch"))
      match ← index a.segments idx with
      | some _ =>
          if (← index a.segmentMeta idx) ≠ some seg then
            return (a, .error
              (.invalidSegment "duplicate segment metadata conflicts with stored segment"))
          else return (a, .ok false)
      | none =>
          let receivedCount ← addU32 a.receivedCount 1
          return ({ a with
            segments := a.segments.set idx (some bytes)
            segmentMeta := a.segmentMeta.set idx (some seg)
            receivedCount }, .ok true)

def reassemble (a : TransferAssembler) : Option Bytes :=
  if ¬ a.isComplete then none
  else if maxInMemoryAssemblyBytes < a.rootCompressedSize.toNat then none
  else
    match Pieces.collect a.segments with
    | none => none
    | some slots =>
        let out := slots.flatten
        if out.length ≠ a.rootCompressedSize.toNat then none else some out

end TransferAssembler

structure InRange (seg : SegmentMeta) (fileMeta : FileMeta) (rootCompressedSize : U64) : Prop where
  count_pos : 0 < seg.segmentCount.toNat
  count_le : seg.segmentCount.toNat ≤ maxSegmentCount
  expected : expectedSegmentCount rootCompressedSize = some seg.segmentCount
  index_lt : seg.segmentIndex.toNat < seg.segmentCount.toNat
  root : seg.rootOriginalSize = rootCompressedSize
  offset : seg.originalOffset.toNat = seg.segmentIndex.toNat * segmentRawBytes
  length_le : fileMeta.compressedSize.toNat ≤ segmentRawLen rootCompressedSize seg.segmentIndex

theorem segmentOffset_lt (segmentIndex : U32) : segmentIndex.toNat * segmentRawBytes < 2 ^ 64 := by
  have := segmentIndex.isLt
  simp only [segmentRawBytes, maxObjectBytes, maxSymbolSize]
  omega

theorem validateSegmentRange_ok_iff {seg : SegmentMeta} {fileMeta : FileMeta}
    {rootCompressedSize : U64} :
    validateSegmentRange seg fileMeta rootCompressedSize = .ok () ↔
      InRange seg fileMeta rootCompressedSize := by
  unfold validateSegmentRange
  rw [checkedMul_of_lt (segmentOffset_lt seg.segmentIndex)]
  simp only
  constructor
  · intro h
    obtain ⟨count, h⟩ := guard_ok h
    obtain ⟨expected, h⟩ := guard_ok h
    obtain ⟨inside, h⟩ := guard_ok h
    obtain ⟨root, h⟩ := guard_ok h
    obtain ⟨offset, h⟩ := guard_ok h
    obtain ⟨fits, -⟩ := guard_ok h
    exact ⟨by omega, by omega, not_not.mp expected, not_le.mp inside, not_not.mp root,
      not_not.mp offset, not_lt.mp fits⟩
  · intro range
    have positive := range.count_pos
    have bounded := range.count_le
    rw [if_neg (by omega), if_neg (not_not.mpr range.expected), if_neg (not_le.mpr range.index_lt),
      if_neg (not_not.mpr range.root), if_neg (not_not.mpr range.offset),
      if_neg (not_lt.mpr range.length_le)]

theorem expectedSegmentCount_eq_some {rootSize : U64} {count : U32} (positive : 0 < count.toNat)
    (h : expectedSegmentCount rootSize = some count) :
    0 < rootSize.toNat ∧ count.toNat = (rootSize.toNat - 1) / segmentRawBytes + 1 := by
  unfold expectedSegmentCount at h
  simp only at h
  split at h
  · cases h
    cases positive
  · split at h
    · rename_i nonzero small
      cases h
      exact ⟨by omega, by rw [BitVec.toNat_ofNat, Nat.mod_eq_of_lt small]⟩
    · cases h

theorem sum_segmentRawLen {rootSize : U64} {count : U32} (positive : 0 < count.toNat)
    (h : expectedSegmentCount rootSize = some count) :
    ((List.range count.toNat).map (Pieces.pieceLength segmentRawBytes rootSize.toNat)).sum =
      rootSize.toNat := by
  obtain ⟨nonempty, exact⟩ := expectedSegmentCount_eq_some positive h
  rw [Pieces.sum_pieceLength]
  simp only [segmentRawBytes, maxObjectBytes, maxSymbolSize] at exact ⊢
  omega

namespace TransferAssembler

structure Accepts (sha256 : Bytes → Octets 32) (a : TransferAssembler) (seg : SegmentMeta)
    (fileMeta : FileMeta) (bytes : Bytes) : Prop where
  root : seg.rootSessionId = a.rootSessionId
  count : seg.segmentCount = a.totalSegments
  rootDigest : seg.rootSha256 = a.rootSha256
  filename : fileMeta.filename = a.filename
  range : InRange seg fileMeta a.rootCompressedSize
  size : bytes.length = fileMeta.compressedSize.toNat
  digest : sha256 bytes = seg.rawSha256

variable {sha256 : Bytes → Octets 32} {a : TransferAssembler} {seg : SegmentMeta}
  {fileMeta : FileMeta} {bytes : Bytes}

theorem new_ok_iff {created : TransferAssembler} :
    new seg fileMeta = .ok created ↔
      InRange seg fileMeta seg.rootOriginalSize ∧ created = empty seg fileMeta := by
  unfold new
  constructor
  · intro h
    obtain ⟨-, h⟩ := guard_ok h
    obtain ⟨-, h⟩ := guard_ok h
    split at h
    · cases h
    obtain ⟨-, h⟩ := guard_ok h
    split at h
    · cases h
    · rename_i checked
      cases h
      exact ⟨validateSegmentRange_ok_iff.mp checked, rfl⟩
  · rintro ⟨range, rfl⟩
    have positive := range.count_pos
    have bounded := range.count_le
    have nonempty := (expectedSegmentCount_eq_some positive range.expected).1
    rw [if_neg (by omega), if_neg (by omega), range.expected]
    simp only [ne_eq, not_true_eq_false, if_false, validateSegmentRange_ok_iff.mpr range]

/-- What is left of `add_segment` for a segment that passes its checks. -/
def storeSegment (a : TransferAssembler) (seg : SegmentMeta) (bytes : Bytes) :
    Exec (TransferAssembler × Except Error Bool) := do
  match ← index a.segments seg.segmentIndex.toNat with
  | some _ =>
      if (← index a.segmentMeta seg.segmentIndex.toNat) ≠ some seg then
        return (a, .error
          (.invalidSegment "duplicate segment metadata conflicts with stored segment"))
      else return (a, .ok false)
  | none =>
      let receivedCount ← addU32 a.receivedCount 1
      return ({ a with
        segments := a.segments.set seg.segmentIndex.toNat (some bytes)
        segmentMeta := a.segmentMeta.set seg.segmentIndex.toNat (some seg)
        receivedCount }, .ok true)

theorem addSegment_of_accepts (h : Accepts sha256 a seg fileMeta bytes) :
    a.addSegment sha256 seg fileMeta bytes = a.storeSegment seg bytes := by
  have fits : ¬ segmentRawLen a.rootCompressedSize seg.segmentIndex < bytes.length := by
    rw [h.size]
    exact not_lt.mpr h.range.length_le
  unfold addSegment
  rw [if_neg (not_not.mpr h.root), if_neg (not_not.mpr h.count), if_neg (not_not.mpr h.rootDigest),
    if_neg (not_not.mpr h.filename), validateSegmentRange_ok_iff.mpr h.range]
  simp only
  rw [if_neg (not_not.mpr h.size), if_neg fits, if_neg (not_not.mpr h.digest)]
  rfl

theorem addSegment_of_refused (h : ¬ Accepts sha256 a seg fileMeta bytes) :
    ∃ e, a.addSegment sha256 seg fileMeta bytes = .ok (a, .error e) := by
  unfold addSegment
  by_cases root : seg.rootSessionId ≠ a.rootSessionId
  · exact ⟨_, if_pos root⟩
  rw [if_neg root]
  by_cases count : seg.segmentCount ≠ a.totalSegments
  · exact ⟨_, if_pos count⟩
  rw [if_neg count]
  by_cases rootDigest : seg.rootSha256 ≠ a.rootSha256
  · exact ⟨_, if_pos rootDigest⟩
  rw [if_neg rootDigest]
  by_cases filename : fileMeta.filename ≠ a.filename
  · exact ⟨_, if_pos filename⟩
  rw [if_neg filename]
  cases checked : validateSegmentRange seg fileMeta a.rootCompressedSize with
  | error e => exact ⟨e, rfl⟩
  | ok _ =>
  simp only
  by_cases size : bytes.length ≠ fileMeta.compressedSize.toNat
  · exact ⟨_, if_pos size⟩
  rw [if_neg size]
  by_cases long : segmentRawLen a.rootCompressedSize seg.segmentIndex < bytes.length
  · exact ⟨_, if_pos long⟩
  rw [if_neg long]
  by_cases digest : sha256 bytes ≠ seg.rawSha256
  · exact ⟨_, if_pos digest⟩
  exact absurd ⟨not_not.mp root, not_not.mp count, not_not.mp rootDigest, not_not.mp filename,
    validateSegmentRange_ok_iff.mp checked, not_not.mp size, not_not.mp digest⟩ h

end TransferAssembler

end AirFerry.TransferEngine
