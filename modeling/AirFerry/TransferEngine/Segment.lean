import AirFerry.QrProtocol.Compress
import AirFerry.QrProtocol.Session
import AirFerry.RaptorqCore.Meta

namespace AirFerry.TransferEngine
open QrProtocol RaptorqCore

inductive Error
  | raptorq (error : RaptorqCore.Error)
  | protocol (error : QrProtocol.Error)
  | noPayload
  | notInitialized
  | sessionMismatch (expected got : U128)
  | alreadyComplete
  | invalidRedundancy (percent : Nat)
  | compress (message : String)
  | symbolIdSpaceExhausted
  | invalidResume (reason : String)
  | invalidSegment (reason : String)
deriving DecidableEq, Repr

structure FileMeta where
  filename : String
  originalSize : U64
  crc32 : U32
  compression : U8
  compressedSize : U64
  compressedSizeKnown : Bool
  crc32Known : Bool
deriving DecidableEq, Repr

def FileMeta.default : FileMeta :=
  { filename := "", originalSize := 0, crc32 := 0, compression := compressionNone,
    compressedSize := 0, compressedSizeKnown := false, crc32Known := false }

def segmentRawBytes : Nat := maxObjectBytes - maxSymbolSize
def maxSegmentCount : Nat := 131072

structure SegmentMeta where
  rootSessionId : U128
  segmentIndex : U32
  segmentCount : U32
  originalOffset : U64
  rootOriginalSize : U64
  rootSha256 : Octets 32
  rawSha256 : Octets 32
deriving DecidableEq

namespace SegmentMeta

def validate (s : SegmentMeta) (childSessionId : U128) (fileMeta : FileMeta) : Except String Unit :=
  if s.segmentCount.toNat = 0 ∨ maxSegmentCount < s.segmentCount.toNat then
    .error "segment count out of range"
  else if s.segmentCount.toNat ≤ s.segmentIndex.toNat then .error "segment index out of range"
  else if s.rootOriginalSize.toNat = 0 then .error "root compressed size must be non-zero"
  else
    match (checkedSub s.rootOriginalSize.toNat 1).bind
        fun n => checkedAdd (n / segmentRawBytes) 1 with
    | none => .error "segment count overflow"
    | some expectedCount =>
        if 2 ^ 32 ≤ expectedCount then .error "segment count exceeds protocol budget"
        else if expectedCount ≠ s.segmentCount.toNat then
          .error "segment count inconsistent with compressed root size"
        else
          match checkedMul s.segmentIndex.toNat segmentRawBytes with
          | none => .error "segment offset overflow"
          | some expectedOffset =>
              if s.originalOffset.toNat ≠ expectedOffset then .error "segment offset is not canonical"
              else
                match checkedSub s.rootOriginalSize.toNat expectedOffset with
                | none => .error "segment offset exceeds compressed root size"
                | some remaining =>
                    let canonicalLen := min remaining segmentRawBytes
                    if ¬ fileMeta.compressedSizeKnown ∨ fileMeta.compressedSize.toNat = 0 then
                      .error "segment compressed size missing or empty"
                    else if canonicalLen < fileMeta.compressedSize.toNat then
                      .error "segment compressed length exceeds canonical compressed range"
                    else if SessionId.deriveSegment s.rootSessionId s.segmentIndex ≠ childSessionId
                    then .error "segment child session id mismatch"
                    else .ok ()

def expectedCount (rootOriginalSize : U64) : Except String U32 :=
  match (checkedSub rootOriginalSize.toNat 1).bind fun n => checkedAdd (n / segmentRawBytes) 1 with
  | none => .error "segment count overflow"
  | some expectedCount =>
      if 2 ^ 32 ≤ expectedCount then .error "segment count exceeds protocol budget"
      else .ok (BitVec.ofNat 32 expectedCount)

structure Valid (s : SegmentMeta) (childSessionId : U128) (fileMeta : FileMeta) : Prop where
  count_le : s.segmentCount.toNat ≤ maxSegmentCount
  index_lt : s.segmentIndex.toNat < s.segmentCount.toNat
  root_pos : 0 < s.rootOriginalSize.toNat
  count_eq : s.segmentCount.toNat = (s.rootOriginalSize.toNat - 1) / segmentRawBytes + 1
  offset_eq : s.originalOffset.toNat = s.segmentIndex.toNat * segmentRawBytes
  size_known : fileMeta.compressedSizeKnown = true
  size_pos : 0 < fileMeta.compressedSize.toNat
  size_le : fileMeta.compressedSize.toNat ≤
    min (s.rootOriginalSize.toNat - s.segmentIndex.toNat * segmentRawBytes) segmentRawBytes
  child : SessionId.deriveSegment s.rootSessionId s.segmentIndex = childSessionId

theorem validate_ok_iff {s : SegmentMeta} {childSessionId : U128} {fileMeta : FileMeta} :
    s.validate childSessionId fileMeta = .ok () ↔ s.Valid childSessionId fileMeta := by
  constructor
  · intro h
    unfold validate at h
    simp only at h
    obtain ⟨count, h⟩ := guard_ok h
    obtain ⟨inside, h⟩ := guard_ok h
    obtain ⟨nonzero, h⟩ := guard_ok h
    have predecessor : checkedSub s.rootOriginalSize.toNat 1 = some (s.rootOriginalSize.toNat - 1) :=
      checkedSub_of_le (by omega)
    have small : (s.rootOriginalSize.toNat - 1) / segmentRawBytes + 1 < 2 ^ 64 := by
      have := Nat.div_le_self (s.rootOriginalSize.toNat - 1) segmentRawBytes
      omega
    rw [predecessor, Option.bind_some, checkedAdd_of_lt small] at h
    simp only at h
    obtain ⟨-, h⟩ := guard_ok h
    obtain ⟨consistent, h⟩ := guard_ok h
    have range : s.segmentIndex.toNat * segmentRawBytes < 2 ^ 64 := by
      simp only [maxSegmentCount, segmentRawBytes, maxObjectBytes, maxSymbolSize] at count ⊢
      omega
    rw [checkedMul_of_lt range] at h
    simp only at h
    obtain ⟨offset, h⟩ := guard_ok h
    split at h
    · cases h
    rename_i remaining enough
    simp only [checkedSub, Option.ite_none_right_eq_some, Option.some.injEq] at enough
    obtain ⟨-, rfl⟩ := enough
    obtain ⟨known, h⟩ := guard_ok h
    obtain ⟨fits, h⟩ := guard_ok h
    obtain ⟨child, -⟩ := guard_ok h
    push Not at known offset consistent child
    exact {
      count_le := by omega
      index_lt := by omega
      root_pos := by omega
      count_eq := consistent.symm
      offset_eq := offset
      size_known := known.1
      size_pos := by omega
      size_le := by omega
      child := child }
  · intro v
    have count := v.count_le
    have inside := v.index_lt
    have root := v.root_pos
    have consistent := v.count_eq
    have sizePos := v.size_pos
    have sizeLe := v.size_le
    simp only [maxSegmentCount] at count
    have predecessor : checkedSub s.rootOriginalSize.toNat 1 = some (s.rootOriginalSize.toNat - 1) :=
      checkedSub_of_le (by omega)
    have small : (s.rootOriginalSize.toNat - 1) / segmentRawBytes + 1 < 2 ^ 64 := by omega
    have range : s.segmentIndex.toNat * segmentRawBytes < 2 ^ 64 := by
      simp only [segmentRawBytes, maxObjectBytes, maxSymbolSize]
      omega
    have enough : s.segmentIndex.toNat * segmentRawBytes ≤ s.rootOriginalSize.toNat := by
      simp only [segmentRawBytes, maxObjectBytes, maxSymbolSize] at consistent ⊢
      omega
    unfold validate
    simp only
    rw [if_neg (by simp only [maxSegmentCount]; omega), if_neg (by omega), if_neg (by omega),
      predecessor, Option.bind_some, checkedAdd_of_lt small]
    simp only
    rw [if_neg (by omega), if_neg (by omega), checkedMul_of_lt range]
    simp only
    rw [if_neg (not_not.mpr v.offset_eq), checkedSub_of_le enough]
    simp only
    rw [if_neg (by simp only [v.size_known, not_true_eq_false, false_or]; omega),
      if_neg (by omega), if_neg (not_not.mpr v.child)]

end SegmentMeta

end AirFerry.TransferEngine
