import AirFerry.Library.Pieces
import AirFerry.Proof.Announcement
import AirFerry.TransferEngine.CffiSender

namespace AirFerry.Proof
open Library Library.Pieces QrProtocol RaptorqCore TransferEngine

variable {R : Raptorq} {E : Env}

namespace Host

variable (E) in
def build (c : CffiSender) (i : Nat) : Exec (Except TransferEngine.Error SenderSession) :=
  CffiSender.buildSession E c.payload c.filename c.config c.rootSessionId c.crc32 c.rootSha256
    c.segmentCount (BitVec.ofNat 32 i)

def slice (c : CffiSender) (i : Nat) : Bytes := piece segmentRawBytes c.payload i

def childId (c : CffiSender) (i : Nat) : U128 :=
  if c.segmentCount.toNat ≤ 1 then c.rootSessionId
  else SessionId.deriveSegment c.rootSessionId (BitVec.ofNat 32 i)

def fileMeta (c : CffiSender) (i : Nat) : FileMeta where
  filename := c.filename
  originalSize := BitVec.ofNat 64 c.payload.length
  crc32 := c.crc32
  compression := compressionNone
  compressedSize := BitVec.ofNat 64 (slice c i).length
  compressedSizeKnown := true
  crc32Known := true

variable (E) in
def segment (c : CffiSender) (i : Nat) : SegmentMeta where
  rootSessionId := c.rootSessionId
  segmentIndex := BitVec.ofNat 32 i
  segmentCount := c.segmentCount
  originalOffset := BitVec.ofNat 64 (i * segmentRawBytes)
  rootOriginalSize := BitVec.ofNat 64 c.payload.length
  rootSha256 := c.rootSha256
  rawSha256 := E.sha256 (slice c i)

variable (E) in
def segmentMeta (c : CffiSender) (i : Nat) : Option SegmentMeta :=
  if c.segmentCount.toNat ≤ 1 then none else some (segment E c i)

end Host

structure Sliced (c : CffiSender) : Prop where
  nonempty : c.payload ≠ []
  payload_le : c.payload.length ≤ maxOriginalBytes
  config : c.config.validate = .ok ()
  count : c.segmentCount.toNat = (c.payload.length - 1) / segmentRawBytes + 1

structure Prepared (E : Env) (c : CffiSender) : Prop extends Sliced c where
  opened : ∃ session, Host.build E c 0 = .ok (.ok session)
  index_lt : c.segmentIndex.toNat < c.segmentCount.toNat
  current : Host.build E c c.segmentIndex.toNat = .ok (.ok c.session)

/-- A sender that a host holds: made by `new`, and moved by any calls of `select_segment`. -/
inductive HostSender (E : Env) : CffiSender → Prop
  | new {payload : Bytes} {filename : String} {modifiedMs : U64} {redundancyPct : U8}
      {symbolSize : U32} {c : CffiSender}
      (made : CffiSender.new E payload filename modifiedMs redundancyPct symbolSize = .ok (.ok c)) :
      HostSender E c
  | select {c c' : CffiSender} (before : HostSender E c) (segmentIndex : U32)
      {result : Except TransferEngine.Error Unit}
      (selected : c.selectSegment E segmentIndex = .ok (c', result)) : HostSender E c'

theorem prepared_of_new {payload : Bytes} {filename : String} {modifiedMs : U64} {redundancyPct : U8}
    {symbolSize : U32} {c : CffiSender}
    (made : CffiSender.new E payload filename modifiedMs redundancyPct symbolSize = .ok (.ok c)) :
    Prepared E c ∧ c.payload = payload ∧ c.filename = filename ∧ c.segmentIndex = 0 := by
  unfold CffiSender.new at made
  simp only [bind, Except.bind, pure, Except.pure] at made
  split at made
  · cases made
  rename_i sized
  push Not at sized
  split at made
  · cases made
  rename_i codec legal
  split at made
  · cases made
  rename_i valid
  split at made
  · cases made
  rename_i count counted
  simp only [checkedAdd, Option.ite_none_right_eq_some, Option.some.injEq] at counted
  obtain ⟨-, rfl⟩ := counted
  split at made
  · cases made
  rename_i small
  split at made
  · cases made
  rename_i outcome built
  split at made
  · cases made
  rename_i session
  cases made
  have number : (BitVec.ofNat 32 ((payload.length - 1) / segmentRawBytes + 1)).toNat =
      (payload.length - 1) / segmentRawBytes + 1 := by
    rw [BitVec.toNat_ofNat]
    exact Nat.mod_eq_of_lt (by omega)
  exact ⟨⟨⟨sized.1, sized.2, valid, number⟩, ⟨_, built⟩, by rw [number]; exact Nat.succ_pos _, built⟩,
    rfl, rfl, rfl⟩

theorem HostSender.prepared {c : CffiSender} (host : HostSender E c) : Prepared E c := by
  induction host with
  | new made => exact (prepared_of_new made).1
  | select before segmentIndex selected ih =>
      unfold CffiSender.selectSegment at selected
      simp only [bind, Except.bind, pure, Except.pure] at selected
      split at selected
      · cases selected
        exact ih
      rename_i inside
      split at selected
      · cases selected
      rename_i outcome built
      split at selected
      · cases selected
        exact ih
      · cases selected
        refine { ih with index_lt := not_le.mp inside, current := ?_ }
        rw [Host.build, BitVec.ofNat_toNat, BitVec.setWidth_eq]
        exact built

theorem segmentRawBytes_pos : 0 < segmentRawBytes := by decide

theorem segmentRawBytes_lt : segmentRawBytes < 2 ^ 25 := by decide

theorem buildSession_single {payload : Bytes} {filename : String} {config : SenderConfig} {root : U128}
    {crc32 : U32} {rootSha256 : Octets 32} {segmentCount segmentIndex : U32}
    (single : segmentCount.toNat ≤ 1) :
    CffiSender.buildSession E payload filename config root crc32 rootSha256 segmentCount segmentIndex =
      SenderSession.new E.raptorq payload root config {
        filename := filename, originalSize := BitVec.ofNat 64 payload.length, crc32,
        compression := compressionNone, compressedSize := BitVec.ofNat 64 payload.length,
        compressedSizeKnown := true, crc32Known := true } :=
  if_pos single

theorem buildSession_segment {payload segment : Bytes} {filename : String} {config : SenderConfig}
    {root : U128} {crc32 : U32} {rootSha256 : Octets 32} {segmentCount segmentIndex : U32}
    {start : Nat} (several : ¬ segmentCount.toNat ≤ 1)
    (offset : checkedMul segmentIndex.toNat segmentRawBytes = some start)
    (cut : getRange payload start (min (saturatingAdd 64 start segmentRawBytes)
      (BitVec.ofNat 64 payload.length).toNat) = some segment) :
    CffiSender.buildSession E payload filename config root crc32 rootSha256 segmentCount segmentIndex =
      SenderSession.newSegment E.raptorq segment (SessionId.deriveSegment root segmentIndex) config {
        filename := filename, originalSize := BitVec.ofNat 64 payload.length, crc32,
        compression := compressionNone, compressedSize := BitVec.ofNat 64 segment.length,
        compressedSizeKnown := true, crc32Known := true } {
        rootSessionId := root, segmentIndex, segmentCount, originalOffset := BitVec.ofNat 64 start,
        rootOriginalSize := BitVec.ofNat 64 payload.length, rootSha256,
        rawSha256 := E.sha256 segment } := by
  unfold CffiSender.buildSession
  simp only [if_neg several, offset, cut]

section
variable {c : CffiSender} {i : Nat}

theorem Sliced.positive (sliced : Sliced c) : 0 < c.payload.length :=
  List.length_pos_iff.mpr sliced.nonempty

theorem Sliced.count_le (sliced : Sliced c) : c.segmentCount.toNat ≤ 9 := by
  have small := sliced.payload_le
  rw [sliced.count]
  simp only [maxOriginalBytes, segmentRawBytes, maxObjectBytes, maxSymbolSize] at small ⊢
  omega

theorem Sliced.index_toNat (sliced : Sliced c) (inside : i < c.segmentCount.toNat) :
    (BitVec.ofNat 32 i).toNat = i := by
  have few := sliced.count_le
  rw [BitVec.toNat_ofNat]
  exact Nat.mod_eq_of_lt (by omega)

theorem Sliced.length_slice (sliced : Sliced c) (inside : i < c.segmentCount.toNat) :
    0 < (Host.slice c i).length ∧ i * segmentRawBytes < c.payload.length ∧
      (Host.slice c i).length = min (c.payload.length - i * segmentRawBytes) segmentRawBytes ∧
      (Host.slice c i).length ≤ segmentRawBytes := by
  have positive := sliced.positive
  rw [sliced.count] at inside
  have start : i * segmentRawBytes < c.payload.length := by
    simp only [segmentRawBytes, maxObjectBytes, maxSymbolSize] at inside ⊢
    omega
  have size : (Host.slice c i).length =
      min (c.payload.length - i * segmentRawBytes) segmentRawBytes := length_piece ..
  have whole := segmentRawBytes_pos
  exact ⟨by omega, start, size, by omega⟩

theorem Sliced.slice_of_one (sliced : Sliced c) (single : c.segmentCount.toNat ≤ 1) :
    Host.slice c 0 = c.payload := by
  have count := sliced.count
  have positive := sliced.positive
  rw [Host.slice, piece, Nat.zero_mul, List.drop_zero, List.take_of_length_le]
  simp only [segmentRawBytes, maxObjectBytes, maxSymbolSize] at count ⊢
  omega

theorem Sliced.build_eq (sliced : Sliced c) (inside : i < c.segmentCount.toNat) :
    Host.build E c i = openSession E.raptorq (Host.slice c i) (Host.childId c i) c.config
      (Host.fileMeta c i) (Host.segmentMeta E c i) := by
  unfold Host.build
  by_cases single : c.segmentCount.toNat ≤ 1
  · obtain rfl : i = 0 := by omega
    rw [buildSession_single single, Host.segmentMeta, if_pos single, Host.childId, if_pos single,
      openSession, Host.fileMeta, sliced.slice_of_one single]
  · have start := (sliced.length_slice inside).2.1
    have small := sliced.payload_le
    have segmentSmall := segmentRawBytes_lt
    simp only [maxOriginalBytes] at small
    have offset : checkedMul (BitVec.ofNat 32 i).toNat segmentRawBytes = some (i * segmentRawBytes) := by
      rw [sliced.index_toNat inside]
      exact checkedMul_of_lt (by omega)
    have cut : getRange c.payload (i * segmentRawBytes) (min (saturatingAdd 64 (i * segmentRawBytes)
        segmentRawBytes) (BitVec.ofNat 64 c.payload.length).toNat) = some (Host.slice c i) := by
      rw [saturatingAdd_of_lt (by omega), toNat_ofNat_of_lt (by omega), getRange_min start.le, Host.slice,
        piece]
    rw [buildSession_segment single offset cut, Host.segmentMeta, if_neg single, Host.childId,
      if_neg single, openSession, Host.fileMeta, Host.segment]

theorem Sliced.segment_valid (sliced : Sliced c) (several : ¬ c.segmentCount.toNat ≤ 1)
    (inside : i < c.segmentCount.toNat) :
    (Host.segment E c i).Valid (Host.childId c i) (Host.fileMeta c i) := by
  obtain ⟨positive, start, size, small⟩ := sliced.length_slice inside
  have number := sliced.index_toNat inside
  have few := sliced.count_le
  have budget := sliced.payload_le
  simp only [maxOriginalBytes] at budget
  have root : (BitVec.ofNat 64 c.payload.length).toNat = c.payload.length :=
    toNat_ofNat_of_lt (by omega)
  have offset : (BitVec.ofNat 64 (i * segmentRawBytes)).toNat = i * segmentRawBytes :=
    toNat_ofNat_of_lt (by omega)
  have length : (BitVec.ofNat 64 (Host.slice c i).length).toNat = (Host.slice c i).length :=
    toNat_ofNat_of_lt (by omega)
  exact {
    count_le := by
      show c.segmentCount.toNat ≤ maxSegmentCount
      simp only [maxSegmentCount]
      omega
    index_lt := by rw [Host.segment, number]; exact inside
    root_pos := by rw [Host.segment, root]; exact sliced.positive
    count_eq := by rw [Host.segment, root]; exact sliced.count
    offset_eq := by rw [Host.segment, offset, number]
    size_known := rfl
    size_pos := by rw [Host.fileMeta, length]; exact positive
    size_le := by rw [Host.fileMeta, Host.segment, length, root, number]; exact size.le
    child := by rw [Host.childId, if_neg several]; rfl }

def blockCount (symbolSize length : Nat) : Nat :=
  ceilDiv (ceilDiv length symbolSize) maxSourceSymbolsPerBlock

theorem blockCount_mono (symbolSize : Nat) {short long : Nat} (le : short ≤ long) :
    blockCount symbolSize short ≤ blockCount symbolSize long :=
  ceilDiv_mono _ (ceilDiv_mono _ le)

theorem padded_within_budget {data : Bytes} (small : data.length ≤ segmentRawBytes) (config : Config) :
    (padToSymbols data config).length ≤ maxObjectBytes := by
  have upper := config.legal.upper
  have below := ceilDiv_mul_lt data.length (symbolSize_pos config)
  rw [length_padToSymbols]
  simp only [segmentRawBytes, maxObjectBytes, maxSymbolSize] at small upper ⊢
  omega

theorem length_blocks_encodedMeta (defaults : R.WithDefaults) {data : Bytes} {config : Config}
    (fits : Encodable (padToSymbols data config) (Encoder.packetMtu config)) :
    (encodedMeta R (padToSymbols data config) config).blocks.length =
      blockCount config.symbolSize.toNat data.length := by
  rw [encodedMeta_blocks defaults fits, List.length_mapIdx, length_blockSizes fits.nonempty fits.wide,
    symbolLength_packetMtu, length_padToSymbols, ceilDiv_mul_self _ (symbolSize_pos config), blockCount]

theorem Sliced.encodable (sliced : Sliced c) (inside : i < c.segmentCount.toNat) :
    Encodable (padToSymbols (Host.slice c i) c.config.codec) (Encoder.packetMtu c.config.codec) := by
  obtain ⟨positive, -, -, small⟩ := sliced.length_slice inside
  exact encodable_of_budget (padToSymbols_ne_nil (List.ne_nil_of_length_pos positive) c.config.codec)
    (padded_within_budget small c.config.codec)

theorem Sliced.opens_of_fits (defaults : E.raptorq.WithDefaults) (sliced : Sliced c)
    (fits : minimumSize (blockCount c.config.codec.symbolSize.toNat (Host.slice c 0).length)
      (Host.segmentMeta E c 0).isSome ≤ c.config.codec.symbolSize.toNat)
    (inside : i < c.segmentCount.toNat) :
    openSession E.raptorq (Host.slice c i) (Host.childId c i) c.config (Host.fileMeta c i)
        (Host.segmentMeta E c i) =
      .ok (.ok (newSession E.raptorq (padToSymbols (Host.slice c i) c.config.codec) (Host.childId c i)
        c.config (Host.fileMeta c i) (Host.segmentMeta E c i))) := by
  have first : 0 < c.segmentCount.toNat := by omega
  have encodable := sliced.encodable inside
  have longest : (Host.slice c i).length ≤ (Host.slice c 0).length := by
    rw [(sliced.length_slice inside).2.2.1, (sliced.length_slice first).2.2.1]
    omega
  have blocks := blockCount_mono c.config.codec.symbolSize.toNat longest
  rw [← length_blocks_encodedMeta defaults encodable] at blocks
  have symbols := @symbols_le_of_budget c.config.codec _
    (padded_within_budget (sliced.length_slice inside).2.2.2 c.config.codec)
  have total : (encodedMeta E.raptorq (padToSymbols (Host.slice c i) c.config.codec)
      c.config.codec).totalSymbols < 2 ^ 32 := by
    simp only [maxTotalSourceSymbols] at symbols
    rw [encodedMeta_totalSymbols defaults encodable]
    omega
  have room : minimumSize (encodedMeta E.raptorq (padToSymbols (Host.slice c i) c.config.codec)
      c.config.codec).blocks.length (Host.segmentMeta E c i).isSome ≤
        c.config.codec.symbolSize.toNat := by
    have same : (Host.segmentMeta E c i).isSome = (Host.segmentMeta E c 0).isSome := by
      simp only [Host.segmentMeta]
      split
      · rfl
      · rfl
    rw [same]
    simp only [minimumSize] at fits ⊢
    omega
  have inner := newInner_of_fits (Host.childId c i) (Host.fileMeta c i) sliced.config encodable.nonempty
    room total
  by_cases single : c.segmentCount.toNat ≤ 1
  · rw [Host.segmentMeta, if_pos single] at inner ⊢
    exact inner
  · have valid := SegmentMeta.validate_ok_iff.mpr (@Sliced.segment_valid E c i sliced single inside)
    have agrees : ¬ ((Host.fileMeta c i).compressedSize ≠ BitVec.ofNat 64 (Host.slice c i).length ∨
        ¬ (Host.fileMeta c i).compressedSizeKnown = true) := by
      rw [Host.fileMeta]
      simp
    rw [Host.segmentMeta, if_neg single] at inner ⊢
    rw [openSession, SenderSession.newSegment, if_neg agrees, valid]
    exact inner

theorem Prepared.opens (defaults : E.raptorq.WithDefaults) (prepared : Prepared E c)
    (inside : i < c.segmentCount.toNat) :
    openSession E.raptorq (Host.slice c i) (Host.childId c i) c.config (Host.fileMeta c i)
        (Host.segmentMeta E c i) =
      .ok (.ok (newSession E.raptorq (padToSymbols (Host.slice c i) c.config.codec) (Host.childId c i)
        c.config (Host.fileMeta c i) (Host.segmentMeta E c i))) := by
  have first : 0 < c.segmentCount.toNat := by omega
  obtain ⟨session, opened⟩ := prepared.opened
  rw [prepared.build_eq first] at opened
  obtain ⟨-, -, rfl, ⟨p, built⟩, -⟩ := newInner_ok (openSession_ok opened).1
  have upper := c.config.codec.legal.upper
  simp only [maxSymbolSize] at upper
  have room := (buildPayloadInner_ok upper built).1
  refine prepared.opens_of_fits defaults ?_ inside
  rw [← length_blocks_encodedMeta defaults (prepared.encodable first)]
  exact room

theorem new_of_fits (defaults : E.raptorq.WithDefaults) {payload : Bytes} (filename : String)
    (modifiedMs : U64) {redundancyPct : U8} {symbolSize : U32} {codec : Config}
    (nonempty : payload ≠ []) (small : payload.length ≤ maxOriginalBytes)
    (legal : Config.new symbolSize = .ok codec)
    (valid : SenderConfig.validate { codec, redundancyPct } = .ok ())
    (fits : minimumSize (blockCount codec.symbolSize.toNat (piece segmentRawBytes payload 0).length) true ≤
      codec.symbolSize.toNat) :
    ∃ c, CffiSender.new E payload filename modifiedMs redundancyPct symbolSize = .ok (.ok c) ∧
      c.payload = payload ∧ c.filename = filename ∧ c.config.codec = codec := by
  let fingerprint := contentFingerprint (payload.take (min payload.length 1024))
    (payload.drop (payload.length - 1024))
  let root := SessionId.derive filename (BitVec.ofNat 64 payload.length) modifiedMs fingerprint
  let count := (payload.length - 1) / segmentRawBytes + 1
  let sender (session : SenderSession) : CffiSender := {
    payload, filename, config := { codec, redundancyPct }, rootSessionId := root,
    crc32 := E.crc32 payload, rootSha256 := E.sha256 payload, segmentCount := BitVec.ofNat 32 count,
    segmentIndex := 0, session }
  have positive := segmentRawBytes_pos
  have quotient := Nat.div_le_self (payload.length - 1) segmentRawBytes
  have budget := small
  simp only [maxOriginalBytes] at budget
  have few : count < 2 ^ 32 := by omega
  have sliced (session : SenderSession) : Sliced (sender session) :=
    ⟨nonempty, small, valid, toNat_ofNat_of_lt few⟩
  have built (session : SenderSession) : ∃ opened,
      Host.build E (sender session) 0 = .ok (.ok opened) := by
    have room : minimumSize (blockCount codec.symbolSize.toNat (Host.slice (sender session) 0).length)
        (Host.segmentMeta E (sender session) 0).isSome ≤ codec.symbolSize.toNat := by
      refine le_trans ?_ fits
      rw [minimumSize, minimumSize]
      simp only [Host.slice, sender, if_true]
      split
      · exact le_rfl
      · omega
    have inside : 0 < (sender session).segmentCount.toNat := by
      rw [(sliced session).count]
      exact Nat.succ_pos _
    exact ⟨_, ((sliced session).build_eq inside).trans
      ((sliced session).opens_of_fits defaults room inside)⟩
  obtain ⟨opened, done⟩ :=
    built (newSession E.raptorq payload root { codec, redundancyPct } FileMeta.default none)
  change CffiSender.buildSession E payload filename { codec, redundancyPct } root (E.crc32 payload)
    (E.sha256 payload) (BitVec.ofNat 32 count) 0 = _ at done
  refine ⟨sender opened, ?_, rfl, rfl, rfl⟩
  have sized : ¬ (payload = [] ∨ maxOriginalBytes < payload.length) := by
    rintro (empty | long)
    · exact nonempty empty
    · exact absurd small (not_le.mpr long)
  have counted : checkedAdd ((payload.length - 1) / segmentRawBytes) 1 = some count :=
    checkedAdd_of_lt (by omega)
  unfold CffiSender.new
  simp only [if_neg sized, legal, valid, counted, if_neg (not_le.mpr few), done, root, fingerprint, bind,
    Except.bind, pure, Except.pure, sender]

end

end AirFerry.Proof
