import AirFerry.Proof.Announcement
import AirFerry.Proof.Reference

/-!
# Which senders can be received

A sender checks that its descriptor can be written, not that a receiver takes it. The receiver takes
it exactly when the object is `Receivable`.
-/

namespace AirFerry.Proof
open Library QrProtocol RaptorqCore TransferEngine

variable {R : Raptorq} {crc32 : Bytes → U32}

/-- The limits of the receiver that the sender does not check. Those of a segment follow from its
coordinates, up to the compression tag. -/
structure Receivable (payload : Bytes) (config : SenderConfig) (fileMeta : FileMeta)
    (segmentMeta : Option SegmentMeta) : Prop where
  tag : isKnownCompressionTag fileMeta.compression = true
  size : segmentMeta = none → (padToSymbols payload config.codec).length ≤ maxObjectBytes
  compressed : segmentMeta = none →
    fileMeta.compressedSize.toNat ≤ (padToSymbols payload config.codec).length
  original : segmentMeta = none → fileMeta.originalSize.toNat ≤ maxOriginalBytes
  declared : segmentMeta = none → fileMeta.compression ≠ compressionNone →
    0 < fileMeta.originalSize.toNat

section
variable {payload : Bytes} {sessionId : U128} {config : SenderConfig} {fileMeta : FileMeta}
  {segmentMeta : Option SegmentMeta} {s : SenderSession}

theorem openSession_fields
    (made : openSession R payload sessionId config fileMeta segmentMeta = .ok (.ok s)) :
    s.sessionId = sessionId ∧ s.config = config ∧ s.fileMeta = fileMeta ∧ s.segmentMeta = segmentMeta ∧
      s.objectMeta = encodedMeta R (padToSymbols payload config.codec) config.codec := by
  obtain ⟨-, -, rfl, -⟩ := newInner_ok (openSession_ok made).1
  exact ⟨rfl, rfl, rfl, rfl, rfl⟩

theorem padded_lt (slice : payload.length < 2 ^ 63) (config : Config) :
    (padToSymbols payload config).length < 2 ^ 64 := by
  have upper := config.legal.upper
  simp only [maxSymbolSize] at upper
  have below := ceilDiv_mul_lt payload.length (symbolSize_pos config)
  rw [length_padToSymbols]
  omega

theorem segment_within_budget (slice : payload.length < 2 ^ 63) {segment : SegmentMeta}
    (made : openSession R payload sessionId config fileMeta (some segment) = .ok (.ok s)) :
    segment.Valid sessionId fileMeta ∧
      fileMeta.compressedSize.toNat ≤ (padToSymbols payload config.codec).length ∧
      (padToSymbols payload config.codec).length ≤ maxObjectBytes := by
  obtain ⟨size, -, valid, -⟩ := newSegment_ok made
  have v := SegmentMeta.validate_ok_iff.mp valid
  have length : fileMeta.compressedSize.toNat = payload.length := by
    rw [size, BitVec.toNat_ofNat]
    exact Nat.mod_eq_of_lt (by omega)
  have fits := v.size_le
  have upper := config.codec.legal.upper
  have below := ceilDiv_mul_lt payload.length (symbolSize_pos config.codec)
  have covered := le_ceilDiv_mul payload.length (symbolSize_pos config.codec)
  rw [length_padToSymbols]
  refine ⟨v, by omega, ?_⟩
  simp only [segmentRawBytes, maxObjectBytes, maxSymbolSize] at fits upper ⊢
  omega

theorem receivable_iff (defaults : R.WithDefaults) (slice : payload.length < 2 ^ 63)
    (made : openSession R payload sessionId config fileMeta segmentMeta = .ok (.ok s)) (part : String) :
    ValidDescriptor R sessionId ⟨encodedMeta R (padToSymbols payload config.codec) config.codec,
        carried fileMeta part, segmentMeta⟩ ↔
      Receivable payload config fileMeta segmentMeta := by
  have nonempty := (newInner_ok (openSession_ok made).1).1
  have transfer : (encodedMeta R (padToSymbols payload config.codec) config.codec).transferLength.toNat =
      (padToSymbols payload config.codec).length := encodedMeta_transferLength (padded_lt slice config.codec)
  constructor
  · intro v
    refine ⟨v.compression, fun single => ?_, fun single => ?_, v.originalSize_le, v.originalSize_pos⟩
    · rw [← transfer]
      exact v.objectMeta.transferLength_le
    · rw [← transfer]
      exact v.compressedSize_le rfl
  · intro r
    have budget : fileMeta.compressedSize.toNat ≤ (padToSymbols payload config.codec).length ∧
        (padToSymbols payload config.codec).length ≤ maxObjectBytes := by
      cases segmentMeta with
      | none => exact ⟨r.compressed rfl, r.size rfl⟩
      | some segment => exact (segment_within_budget slice made).2
    have whole : (padToSymbols payload config.codec).length % config.codec.symbolSize.toNat = 0 := by
      rw [length_padToSymbols]
      exact Nat.mul_mod_left ..
    refine ⟨encodedMeta_valid defaults nonempty whole budget.2, r.tag, fun _ => ?_, r.original,
      r.declared, ?_⟩
    · rw [transfer]
      exact budget.1
    · rintro segment rfl
      have v := (segment_within_budget slice made).1
      exact ⟨v.count_le, v.index_lt, v.root_pos, v.count_eq, v.offset_eq, rfl, v.size_pos, v.size_le,
        v.child⟩

end

section
variable {E : Env} {payload : Bytes} {sessionId : U128} {config : SenderConfig} {fileMeta : FileMeta}
  {segmentMeta : Option SegmentMeta} {s : SenderSession}

def receiveFirst (E : Env) (sessionId : U128) (bytes : Bytes) :
    Exec (Except QrProtocol.Error (ReceiverSession E)) := do
  match ← Frame.fromBytes E.crc32 bytes with
  | .error error => return .error error
  | .ok frame =>
      let r ← ReceiverSession.newPending sessionId
      let (r, _) ← r.ingest frame
      return .ok r

theorem first_frame_received (packetizes : E.raptorq.Packetizes)
    (made : openSession E.raptorq payload sessionId config fileMeta segmentMeta = .ok (.ok s))
    (nowMs : U64) :
    ∃ s' f r part, s.nextFrame E.crc32 nowMs = .ok (s', .ok f) ∧
      receiveFirst E sessionId f.toBytes = .ok (.ok r) ∧
      (r.isMetaConfirmed = true ↔ ValidDescriptor E.raptorq sessionId
        ⟨encodedMeta E.raptorq (padToSymbols payload config.codec) config.codec, carried fileMeta part,
          segmentMeta⟩) := by
  have ready := ready_of_open packetizes made
  obtain ⟨id, codec, file, segment, object⟩ := openSession_fields made
  obtain ⟨p, built⟩ := ready.payload
  have emitted := @nextFrame_descriptor E.crc32 s _ ready p 0 0 nowMs built (descriptorAt_zero s)
  rw [← openSession_atFrame made] at emitted
  have size := @Ready.size_descriptorOf E.crc32 s _ ready p 0 nowMs built
  rw [← ready.symbolSize] at size
  have wire : Frame.WireValid E.crc32 (descriptorOf E.crc32 s p 0 nowMs) :=
    Frame.build_wireValid _ _ _ _ _ _ _ _ _ size
  have upper := s.config.codec.legal.upper
  simp only [maxSymbolSize, ← ready.symbolSize] at upper
  have read := (buildPayloadInner_ok upper built).2.2
  obtain ⟨start, new, matched⟩ := newPending_waiting E sessionId
  obtain ⟨r, result, step, next, -⟩ :=
    ingest_simulates sessionId start _ (WireFrame.ofValid wire) matched
  refine ⟨_, _, r, cutName s.fileMeta.filename (filenameBudget s.objectMeta s.segmentMeta.isSome), emitted,
    ?_, ?_⟩
  · unfold receiveFirst
    have ingested : start.ingest (descriptorOf E.crc32 s p 0 nowMs) = .ok (r, result) := step
    simp only [Frame.fromBytes_toBytes wire, new, ingested, bind, Except.bind, pure, Except.pure]
  · have valid := @Ready.descriptor_valid_iff E.raptorq E.crc32 s _ ready p _ read rfl 0 nowMs
    rw [id, file, segment, object] at valid
    rw [file, segment, object, ← valid]
    have flag : ¬ (descriptorOf E.crc32 s p 0 nowMs).header.flags &&& flagDescriptor = 0 := by
      change ¬ flagDescriptor &&& flagDescriptor = 0
      decide
    have own : (descriptorOf E.crc32 s p 0 nowMs).header.sessionId = sessionId := id
    have outcome : Matches sessionId r ((Stage.waiting ∅).next E sessionId
      (descriptorOf E.crc32 s p 0 nowMs)) := next
    unfold Stage.next at outcome
    rw [if_neg (not_not.mpr own), if_pos flag] at outcome
    cases found : validDescriptor E.raptorq (descriptorOf E.crc32 s p 0 nowMs) with
    | none =>
        rw [found] at outcome
        rw [ReceiverSession.isMetaConfirmed, outcome.2.metaConfirmed]
        simp
    | some info =>
        rw [found] at outcome
        rw [ReceiverSession.isMetaConfirmed, outcome.2.1]
        simp

theorem sender_received_iff (packetizes : E.raptorq.Packetizes) (defaults : E.raptorq.WithDefaults)
    (slice : payload.length < 2 ^ 63)
    (made : openSession E.raptorq payload sessionId config fileMeta segmentMeta = .ok (.ok s))
    (nowMs : U64) :
    ∃ s' f r, s.nextFrame E.crc32 nowMs = .ok (s', .ok f) ∧
      receiveFirst E sessionId f.toBytes = .ok (.ok r) ∧
      (r.isMetaConfirmed = true ↔ Receivable payload config fileMeta segmentMeta) := by
  obtain ⟨s', f, r, part, emitted, received, confirmed⟩ := first_frame_received packetizes made nowMs
  rw [receivable_iff defaults slice made] at confirmed
  exact ⟨s', f, r, emitted, received, confirmed⟩

theorem sender_received_tight :
    ∃ s s' f r, openSession reference.raptorq [1, 2, 3] 7 tightConfig FileMeta.default none =
        .ok (.ok s) ∧
      s.nextFrame reference.crc32 5 = .ok (s', .ok f) ∧
      receiveFirst reference 7 f.toBytes = .ok (.ok r) ∧ r.isMetaConfirmed = true := by
  have made : openSession reference.raptorq [1, 2, 3] 7 tightConfig FileMeta.default none = .ok (.ok
      (newSession systematic (padToSymbols [1, 2, 3] tightConfig.codec) 7 tightConfig
        FileMeta.default none)) := rfl
  obtain ⟨s', f, r, emitted, received, confirmed⟩ :=
    sender_received_iff (E := reference) Systematic.packetizes Systematic.withDefaults (by decide)
      made 5
  refine ⟨_, s', f, r, made, emitted, received, confirmed.mpr ⟨rfl, ?_, ?_, ?_, ?_⟩⟩
  · exact fun _ => by decide
  · exact fun _ => Nat.zero_le _
  · exact fun _ => Nat.zero_le _
  · exact fun _ compressed => absurd rfl compressed

/-- The Zstd frame of an empty file. -/
def emptyFrame : Bytes := [0x28, 0xB5, 0x2F, 0xFD, 0x20, 0x00, 0x01, 0x00, 0x00]

def emptyFileMeta : FileMeta :=
  { FileMeta.default with compression := compressionZstd, compressedSize := 9, compressedSizeKnown := true }

theorem empty_file_not_received :
    ∃ s s' f r, openSession reference.raptorq emptyFrame 7 tightConfig emptyFileMeta none =
        .ok (.ok s) ∧
      s.nextFrame reference.crc32 5 = .ok (s', .ok f) ∧
      receiveFirst reference 7 f.toBytes = .ok (.ok r) ∧ r.isMetaConfirmed = false := by
  have made : openSession reference.raptorq emptyFrame 7 tightConfig emptyFileMeta none = .ok (.ok
      (newSession systematic (padToSymbols emptyFrame tightConfig.codec) 7 tightConfig emptyFileMeta
        none)) := rfl
  obtain ⟨s', f, r, part, emitted, received, confirmed⟩ :=
    first_frame_received (E := reference) Systematic.packetizes made 5
  refine ⟨_, s', f, r, made, emitted, received, ?_⟩
  rw [Bool.eq_false_iff]
  intro accepted
  have compressed : compressionZstd ≠ compressionNone := by decide
  exact absurd ((confirmed.mp accepted).originalSize_pos rfl compressed) (lt_irrefl 0)

end

end AirFerry.Proof
