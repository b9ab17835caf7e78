import AirFerry.Proof.Safety

/-!
# The first valid descriptor is final

Once a session is confirmed its metadata stay as they are, and what they promise about the bytes
holds when the object is complete.
-/

namespace AirFerry.Proof
open Library QrProtocol RaptorqCore TransferEngine ReceiverSession

variable {E : Env}

def layout (d : Decoder E.raptorq) : ObjectMeta × List (U8 × U16) :=
  (d.objectMeta, d.blocks.map fun b => (b.decoder.sourceBlockId, b.decoder.symbolSize))

theorem layout_ofLog (m : ObjectMeta) (log : List Symbol) :
    layout (Decoder.ofLog E.raptorq m log) =
      (m, m.blocks.map fun b => (b.sbn.setWidth 8, (m.oti E.raptorq).symbolSize)) := by
  simp [layout, Decoder.ofLog, Decoder.blockOf_decoder_sourceBlockId,
    Decoder.blockOf_decoder_symbolSize]

def Stage.Adopted (R : Raptorq) (sessionId : U128) : Stage → Prop
  | .waiting _ => True
  | .recovering m described _ => ∃ info, ValidDescriptor R sessionId info ∧
      info.objectMeta = m ∧ described = some (info.fileMeta, info.segment)

theorem Stage.adopted_next {sessionId : U128} {stage : Stage}
    (h : stage.Adopted E.raptorq sessionId) (f : Frame) :
    (stage.next E sessionId f).Adopted E.raptorq sessionId := by
  unfold Stage.next
  split
  · exact h
  · rename_i own
    split
    · cases stage with
      | waiting cache =>
          cases found : validDescriptor E.raptorq f with
          | none => trivial
          | some info =>
              have spec := (validDescriptor_spec found).1
              rw [not_not.mp own] at spec
              exact ⟨info, spec, rfl, rfl⟩
      | recovering m described log =>
          obtain ⟨info, valid, same, rfl⟩ := h
          exact ⟨info, valid, same, rfl⟩
    · cases stage with
      | waiting cache => trivial
      | recovering m described log => exact h

theorem Stage.adopted_run {sessionId : U128} (frames : List (WireFrame E.crc32)) {stage : Stage}
    (h : stage.Adopted E.raptorq sessionId) :
    (stage.run E sessionId frames).Adopted E.raptorq sessionId := by
  induction frames generalizing stage with
  | nil => exact h
  | cons f rest ih => exact ih (Stage.adopted_next h f.1)

variable {s : ReceiverSession E} {m : ObjectMeta} {log : List Symbol}

def trimmed (fileMeta : FileMeta) (raw : Bytes) : Bytes :=
  if fileMeta.compressedSizeKnown then raw.take fileMeta.compressedSize.toNat else raw

theorem assembleRaw_complete (exactLength : E.raptorq.ExactLength) (h : Recovering s m log)
    (complete : s.isComplete = true) :
    ∃ raw, s.assembleRaw = some raw ∧ raw.length = m.transferLength.toNat := by
  rw [h.isComplete] at complete
  obtain ⟨raw, whole, length⟩ := Decoder.length_assemble h.valid exactLength h.fits complete
  refine ⟨raw, ?_, length⟩
  rw [assembleRaw, h.decoder]
  exact whole

theorem assembleResult_trimmed {raw : Bytes} (recovered : s.assembleRaw = some raw)
    (fits : s.fileMeta.compressedSizeKnown = true → s.fileMeta.compressedSize.toNat ≤ raw.length) :
    s.assembleResult = s.decompressTrimmed (trimmed s.fileMeta raw) := by
  rw [assembleResult, recovered, trimmed]
  simp only
  by_cases known : s.fileMeta.compressedSizeKnown = true
  · rw [if_pos known, if_pos known, if_pos (fits known)]
  · rw [if_neg known, if_neg known]

theorem airferryReceiverAssembleRaw_trimmed {raw : Bytes} (recovered : s.assembleRaw = some raw)
    (fits : s.fileMeta.compressedSizeKnown = true → s.fileMeta.compressedSize.toNat ≤ raw.length) :
    airferryReceiverAssembleRaw s = some (trimmed s.fileMeta raw) := by
  rw [airferryReceiverAssembleRaw, recovered, trimmed]
  simp only [Option.map_some, Option.some.injEq]
  by_cases known : s.fileMeta.compressedSizeKnown = true
  · rw [if_pos ⟨known, fits known⟩, if_pos known]
  · rw [if_neg (fun both => known both.1), if_neg known]

theorem decompressTrimmed_length (single : 0 < s.fileMeta.originalSize.toNat) {raw v : Bytes}
    (compressed : s.fileMeta.compression ≠ compressionNone)
    (h : (s.decompressTrimmed raw).2 = .ok (some v)) :
    v.length = s.fileMeta.originalSize.toNat := by
  unfold decompressTrimmed at h
  simp only at h
  rw [if_neg compressed] at h
  split at h
  · cases h
  · split at h
    · split at h
      · cases h
      · rename_i agreed
        simp only [assembled, Except.ok.injEq, Option.some.injEq] at h
        subst h
        by_contra differs
        exact agreed ⟨single, differs⟩
    · cases h

theorem decompressTrimmed_answers (compressed : s.fileMeta.compression ≠ compressionNone)
    (raw : Bytes) :
    (∃ e, (s.decompressTrimmed raw).2 = .error e) ∨
      ∃ v, (s.decompressTrimmed raw).2 = .ok (some v) := by
  unfold decompressTrimmed
  simp only
  rw [if_neg compressed]
  split
  · exact Or.inl ⟨_, rfl⟩
  · split
    · split
      · exact Or.inl ⟨_, rfl⟩
      · exact Or.inr ⟨_, rfl⟩
    · exact Or.inl ⟨_, rfl⟩

/-- What confirmed metadata promise about a session of id `sessionId`. -/
structure Promised (sessionId : U128) (s : ReceiverSession E) (m : ObjectMeta) : Prop where
  objectMeta : m.validate E.raptorq = .ok ()
  compression : isKnownCompressionTag s.fileMeta.compression = true
  compressedSize : s.fileMeta.compressedSizeKnown = true →
    s.fileMeta.compressedSize.toNat ≤ m.transferLength.toNat
  segment : ∀ segment, s.segmentMeta = some segment →
    segment.validate sessionId s.fileMeta = .ok ()

structure Delivered (s : ReceiverSession E) (m : ObjectMeta) (raw : Bytes) : Prop where
  recovered : s.assembleRaw = some raw
  length : raw.length = m.transferLength.toNat
  plain : s.fileMeta.compression = compressionNone →
    s.assembleResult.2 = .ok (some (trimmed s.fileMeta raw)) ∧
      airferryReceiverAssembleRaw s = some (trimmed s.fileMeta raw)
  compressed : s.fileMeta.compression ≠ compressionNone → s.segmentMeta = none →
    (∃ e, s.assembleResult.2 = .error e) ∨
      ∃ v, s.assembleResult.2 = .ok (some v) ∧ v.length = s.fileMeta.originalSize.toNat

theorem delivered_of_descriptor {sessionId : U128} {info : DescriptorInfo}
    (exactLength : E.raptorq.ExactLength) (h : Recovering s m log)
    (valid : ValidDescriptor E.raptorq sessionId info) (object : info.objectMeta = m)
    (described : Described s (some (info.fileMeta, info.segment)))
    (complete : s.isComplete = true) : ∃ raw, Delivered s m raw := by
  obtain ⟨-, file, segment⟩ := described
  obtain ⟨raw, recovered, length⟩ := assembleRaw_complete exactLength h complete
  have fits : s.fileMeta.compressedSizeKnown = true →
      s.fileMeta.compressedSize.toNat ≤ raw.length := by
    rw [file, length, ← object]
    exact valid.compressedSize_le
  have result := assembleResult_trimmed recovered fits
  refine ⟨raw, recovered, length, ?_, ?_⟩
  · intro plain
    refine ⟨?_, airferryReceiverAssembleRaw_trimmed recovered fits⟩
    rw [result, decompressTrimmed]
    simp only [if_pos plain]
    rfl
  · intro compressed unsegmented
    have positive : 0 < s.fileMeta.originalSize.toNat := by
      rw [file] at compressed ⊢
      exact valid.originalSize_pos (segment ▸ unsegmented) compressed
    rw [result]
    rcases decompressTrimmed_answers compressed (trimmed s.fileMeta raw) with failed | ⟨v, found⟩
    · exact Or.inl failed
    · exact Or.inr ⟨v, found, decompressTrimmed_length positive compressed found⟩

theorem first_descriptor_is_final (E : Env) (sessionId : U128)
    (frames later : List (WireFrame E.crc32)) :
    ∃ s outs s' outs', fromPending E sessionId frames = .ok (s, outs) ∧
      fromPending E sessionId (frames ++ later) = .ok (s', outs') ∧
      (s.isMetaConfirmed = true →
        (s'.isMetaConfirmed = true ∧ s'.objectMeta = s.objectMeta ∧ s'.fileMeta = s.fileMeta ∧
          s'.segmentMeta = s.segmentMeta ∧ s'.decoder.map layout = s.decoder.map layout) ∧
        ∃ m, s.objectMeta = some m ∧ Promised sessionId s m ∧
          (E.raptorq.ExactLength → s.isComplete = true → ∃ raw, Delivered s m raw)) := by
  obtain ⟨s, outs, run, final, -⟩ := fromPending_simulates E sessionId frames
  obtain ⟨s', outs', run', final', -⟩ := fromPending_simulates E sessionId (frames ++ later)
  refine ⟨s, outs, s', outs', run, run', ?_⟩
  intro confirmed
  have adopted := @Stage.adopted_run E sessionId frames (.waiting ∅) trivial
  rw [Stage.run_append] at final'
  cases reached : (Stage.waiting ∅).run E sessionId frames with
  | waiting cache =>
      rw [reached] at final
      rw [isMetaConfirmed, final.2.metaConfirmed] at confirmed
      cases confirmed
  | recovering m described log =>
      rw [reached] at final final' adopted
      obtain ⟨info, valid, object, rfl⟩ := adopted
      obtain ⟨described', log', continued, -, kept⟩ := Stage.recovering_run sessionId m
        (some (info.fileMeta, info.segment)) later log
      obtain rfl := kept (by simp)
      rw [continued] at final'
      obtain ⟨-, confirmed, described, recovering⟩ := final
      obtain ⟨-, confirmed', again, recovering'⟩ := final'
      refine ⟨⟨confirmed', ?_, ?_, ?_, ?_⟩, m, recovering.objectMeta, ?_, ?_⟩
      · rw [recovering.objectMeta, recovering'.objectMeta]
      · rw [described.2.1, again.2.1]
      · rw [described.2.2, again.2.2]
      · rw [recovering.decoder, recovering'.decoder, Option.map_some, Option.map_some, layout_ofLog,
          layout_ofLog]
      · exact {
          objectMeta := ObjectMeta.validate_ok_iff.mpr recovering.valid
          compression := described.2.1 ▸ valid.compression
          compressedSize := by
            rw [described.2.1, ← object]
            exact valid.compressedSize_le
          segment := by
            intro segment present
            rw [described.2.2] at present
            rw [described.2.1]
            exact SegmentMeta.validate_ok_iff.mpr (valid.segment segment present) }
      · intro exactLength complete
        exact delivered_of_descriptor exactLength recovering valid object described complete

end AirFerry.Proof
