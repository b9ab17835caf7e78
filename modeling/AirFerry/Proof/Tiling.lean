import AirFerry.Proof.Segmentation

/-!
# One canonical tiling

The sender's slices, the descriptor's checks and the assembler's checks each compute the count, the
offset and the length of a segment in their own way. All three come to the same ranges.
-/

namespace AirFerry.Proof
open Library Library.Pieces QrProtocol RaptorqCore TransferEngine

variable {E : Env}

def countOf (rootSize : Nat) : Nat := (rootSize - 1) / segmentRawBytes + 1

def segmentStart (i : Nat) : Nat := i * segmentRawBytes

def segmentStop (rootSize i : Nat) : Nat := pieceStop segmentRawBytes rootSize i

section
variable {rootSize : U64}

theorem countOf_lt (within : countOf rootSize.toNat ≤ maxSegmentCount) :
    countOf rootSize.toNat < 2 ^ 32 ∧ countOf rootSize.toNat < 2 ^ 64 := by
  simp only [maxSegmentCount] at within
  omega

theorem expectedSegmentCount_of_le (positive : 1 ≤ rootSize.toNat)
    (within : countOf rootSize.toNat ≤ maxSegmentCount) :
    expectedSegmentCount rootSize = some (BitVec.ofNat 32 (countOf rootSize.toNat)) := by
  unfold expectedSegmentCount
  rw [if_neg (by omega)]
  exact if_pos (countOf_lt within).1

theorem segmentCountOf_of_le (within : countOf rootSize.toNat ≤ maxSegmentCount) :
    CffiSender.segmentCountOf rootSize.toNat = .ok (BitVec.ofNat 32 (countOf rootSize.toNat)) := by
  obtain ⟨narrow, wide⟩ := countOf_lt within
  unfold CffiSender.segmentCountOf
  rw [checkedAdd_of_lt wide]
  exact if_neg (not_le.mpr narrow)

theorem expectedCount_of_le (positive : 1 ≤ rootSize.toNat)
    (within : countOf rootSize.toNat ≤ maxSegmentCount) :
    SegmentMeta.expectedCount rootSize = .ok (BitVec.ofNat 32 (countOf rootSize.toNat)) := by
  obtain ⟨narrow, wide⟩ := countOf_lt within
  unfold SegmentMeta.expectedCount
  rw [checkedSub_of_le positive, Option.bind_some, checkedAdd_of_lt wide]
  exact if_neg (not_le.mpr narrow)

end

theorem segmentCountOf_of_new {payload : Bytes} {filename : String} {modifiedMs : U64}
    {redundancyPct : U8} {symbolSize : U32} {c : CffiSender}
    (made : CffiSender.new E payload filename modifiedMs redundancyPct symbolSize = .ok (.ok c)) :
    CffiSender.segmentCountOf payload.length = .ok c.segmentCount := by
  obtain ⟨prepared, same, -⟩ := prepared_of_new made
  have count := prepared.count
  rw [same] at count
  have narrow := c.segmentCount.isLt
  unfold CffiSender.segmentCountOf
  rw [checkedAdd_of_lt (by omega)]
  simp only
  rw [if_neg (by omega), ← count, BitVec.ofNat_toNat, BitVec.setWidth_eq]

theorem expectedCount_of_valid {seg : SegmentMeta} {child : U128} {fileMeta : FileMeta}
    (valid : seg.Valid child fileMeta) :
    SegmentMeta.expectedCount seg.rootOriginalSize = .ok seg.segmentCount := by
  have within := valid.count_le
  have count := valid.count_eq
  rw [count] at within
  rw [expectedCount_of_le valid.root_pos within, countOf, ← count, BitVec.ofNat_toNat,
    BitVec.setWidth_eq]

/-- What the sender, the validator and the assembler compute for one segment. -/
structure CanonicalRange (rootSize : U64) (i : U32) : Prop where
  /-- `build_session`: `checked_mul`, `saturating_add`, `min`. -/
  sender_start : checkedMul i.toNat segmentRawBytes = some (segmentStart i.toNat)
  sender_stop : min (saturatingAdd 64 (segmentStart i.toNat) segmentRawBytes) rootSize.toNat =
    segmentStop rootSize.toNat i.toNat
  /-- Nothing saturates or wraps. -/
  room : segmentStart i.toNat + segmentRawBytes < 2 ^ 64
  /-- `SegmentMeta::validate`: `checked_sub`, `min`. -/
  validator : ∃ remaining, checkedSub rootSize.toNat (segmentStart i.toNat) = some remaining ∧
    min remaining segmentRawBytes =
      segmentStop rootSize.toNat i.toNat - segmentStart i.toNat
  /-- `segment_raw_len`: a plain product, `saturating_sub`, `min`. -/
  assembler : segmentRawLen rootSize i = segmentStop rootSize.toNat i.toNat - segmentStart i.toNat
  length_le : segmentStop rootSize.toNat i.toNat - segmentStart i.toNat ≤ segmentRawBytes
  padded_le : ∀ (data : Bytes) (config : Config),
    data.length = segmentStop rootSize.toNat i.toNat - segmentStart i.toNat →
    (padToSymbols data config).length ≤ maxObjectBytes

theorem canonicalRange {rootSize : U64} (positive : 1 ≤ rootSize.toNat) {i : U32}
    (inside : i.toNat < countOf rootSize.toNat) : CanonicalRange rootSize i := by
  have start : segmentStart i.toNat < rootSize.toNat :=
    (lt_count_iff segmentRawBytes_pos positive).mp inside
  have bound := segmentOffset_lt i
  have whole := segmentRawBytes_lt
  have length : segmentStop rootSize.toNat i.toNat - segmentStart i.toNat =
      min (rootSize.toNat - segmentStart i.toNat) segmentRawBytes := pieceStop_sub
  have short : segmentStop rootSize.toNat i.toNat - segmentStart i.toNat ≤ segmentRawBytes := by
    rw [length]
    exact min_le_right ..
  have room : segmentStart i.toNat + segmentRawBytes < 2 ^ 64 := by
    have narrow := i.isLt
    simp only [segmentStart, segmentRawBytes, maxObjectBytes, maxSymbolSize]
    omega
  exact {
    sender_start := checkedMul_of_lt bound
    sender_stop := by
      rw [saturatingAdd_of_lt room, segmentStop, pieceStop, Nat.succ_mul]
      rfl
    room := room
    validator := ⟨_, checkedSub_of_le start.le, length.symm⟩
    assembler := length.symm
    length_le := short
    padded_le := fun data config size => padded_within_budget (size ▸ short) config }

theorem validate_iff_validateSegmentRange (seg : SegmentMeta) (fileMeta : FileMeta) (child : U128) :
    seg.validate child fileMeta = .ok () ↔
      validateSegmentRange seg fileMeta seg.rootOriginalSize = .ok () ∧
        0 < seg.rootOriginalSize.toNat ∧
        (fileMeta.compressedSizeKnown = true ∧ fileMeta.compressedSize.toNat ≠ 0) ∧
        child = SessionId.deriveSegment seg.rootSessionId seg.segmentIndex := by
  rw [SegmentMeta.validate_ok_iff, validateSegmentRange_ok_iff]
  constructor
  · intro valid
    exact ⟨inRange_of_valid valid, valid.root_pos, ⟨valid.size_known, valid.size_pos.ne'⟩,
      valid.child.symm⟩
  · rintro ⟨range, root, ⟨known, nonzero⟩, rfl⟩
    exact {
      count_le := range.count_le
      index_lt := range.index_lt
      root_pos := root
      count_eq := (expectedSegmentCount_eq_some range.count_pos range.expected).2
      offset_eq := range.offset
      size_known := known
      size_pos := Nat.pos_of_ne_zero nonzero
      size_le := range.length_le
      child := rfl }

theorem one_canonical_tiling (E : Env) :
    (∀ rootSize : U64, 1 ≤ rootSize.toNat → countOf rootSize.toNat ≤ maxSegmentCount →
      ∃ count : U32, count.toNat = countOf rootSize.toNat ∧
        CffiSender.segmentCountOf rootSize.toNat = .ok count ∧
        SegmentMeta.expectedCount rootSize = .ok count ∧
        expectedSegmentCount rootSize = some count ∧
        (∀ payload filename modifiedMs redundancyPct symbolSize c, payload.length = rootSize.toNat →
          CffiSender.new E payload filename modifiedMs redundancyPct symbolSize = .ok (.ok c) →
          c.segmentCount = count ∧ ∀ i < count.toNat,
            Host.slice c i = (payload.take (segmentStop rootSize.toNat i)).drop (segmentStart i) ∧
            Host.build E c i = openSession E.raptorq (Host.slice c i) (Host.childId c i) c.config
              (Host.fileMeta c i) (Host.segmentMeta E c i)) ∧
        (∀ (seg : SegmentMeta) child fileMeta, seg.rootOriginalSize = rootSize →
          seg.validate child fileMeta = .ok () → seg.segmentCount = count) ∧
        Tiles segmentStart (segmentStop rootSize.toNat) count.toNat rootSize.toNat ∧
        (∀ place < rootSize.toNat, ∃! i, i < count.toNat ∧ segmentStart i ≤ place ∧
          place < segmentStop rootSize.toNat i) ∧
        ∀ i : U32, i.toNat < count.toNat → CanonicalRange rootSize i) ∧
    ∀ (seg : SegmentMeta) (fileMeta : FileMeta) (child : U128),
      seg.validate child fileMeta = .ok () ↔
        validateSegmentRange seg fileMeta seg.rootOriginalSize = .ok () ∧
          0 < seg.rootOriginalSize.toNat ∧
          (fileMeta.compressedSizeKnown = true ∧ fileMeta.compressedSize.toNat ≠ 0) ∧
          child = SessionId.deriveSegment seg.rootSessionId seg.segmentIndex := by
  refine ⟨?_, validate_iff_validateSegmentRange⟩
  intro rootSize positive within
  have value : (BitVec.ofNat 32 (countOf rootSize.toNat)).toNat = countOf rootSize.toNat :=
    toNat_ofNat_of_lt (countOf_lt within).1
  have sender := segmentCountOf_of_le within
  have validator := expectedCount_of_le positive within
  refine ⟨_, value, sender, validator, expectedSegmentCount_of_le positive within, ?_, ?_, ?_, ?_, ?_⟩
  · intro payload filename modifiedMs redundancyPct symbolSize c size made
    obtain ⟨prepared, same, -⟩ := prepared_of_new made
    have counted := segmentCountOf_of_new made
    rw [size, sender] at counted
    have count := (Except.ok.inj counted).symm
    refine ⟨count, fun i inside => ⟨?_, prepared.build_eq (by rwa [count])⟩⟩
    rw [Host.slice, same, ← size]
    exact piece_eq_range segmentRawBytes payload i
  · intro seg child fileMeta root valid
    have counted := expectedCount_of_valid (SegmentMeta.validate_ok_iff.mp valid)
    rw [root, validator] at counted
    exact (Except.ok.inj counted).symm
  · rw [value]
    exact tiles_pieces segmentRawBytes_pos positive
  · rw [value]
    intro place inside
    exact existsUnique_piece segmentRawBytes_pos inside
  · intro i inside
    rw [value] at inside
    exact canonicalRange positive inside

end AirFerry.Proof
