import AirFerry.Proof.Delivery
import AirFerry.Proof.HostSender

/-!
# From one host to another

A pending receiver is shown bytes. Those that are frames of its session come from the sender, lost,
reordered and repeated in any way; everything else may be anything.
-/

namespace AirFerry.Proof
open Library QrProtocol RaptorqCore TransferEngine ReceiverSession

variable {E : Env} {c : CffiSender}

/-- `Frame::from_bytes`, then `ingest`. -/
def ingestBytes (r : ReceiverSession E) (bytes : Bytes) :
    Exec (ReceiverSession E × Except QrProtocol.Error (Except TransferEngine.Error Bool)) := do
  match ← Frame.fromBytes E.crc32 bytes with
  | .error error => return (r, .error error)
  | .ok frame =>
      let (r, result) ← r.ingest frame
      return (r, .ok result)

def receiveAll (E : Env) (sessionId : U128) (wire : List Bytes) :
    Exec (ReceiverSession E × List (Except QrProtocol.Error (Except TransferEngine.Error Bool))) := do
  let r ← ReceiverSession.newPending sessionId
  Run.run ingestBytes r wire

def frameOf (E : Env) (sessionId : U128) (bytes : Bytes) : Option Frame :=
  match Frame.fromBytes E.crc32 bytes with
  | .ok (.ok f) => if f.header.sessionId = sessionId then some f else none
  | _ => none

def heard (E : Env) (sessionId : U128) (wire : List Bytes) : List Frame :=
  wire.filterMap (frameOf E sessionId)

theorem ingestBytes_simulates {sessionId : U128} {r : ReceiverSession E} {stage : Stage}
    (matched : Matches sessionId r stage) (bytes : Bytes) :
    ∃ r' out, ingestBytes r bytes = .ok (r', out) ∧ ∃ frames : List (WireFrame E.crc32),
      frames.map Subtype.val = (frameOf E sessionId bytes).toList ∧
      Matches sessionId r' (stage.run E sessionId frames) := by
  obtain ⟨parsed, read⟩ := @Frame.fromBytes_total E.crc32 bytes
  unfold ingestBytes frameOf
  simp only [read, bind, Except.bind, pure, Except.pure]
  cases parsed with
  | error error => exact ⟨_, _, rfl, [], rfl, matched⟩
  | ok f =>
      obtain ⟨r', result, step, next, -⟩ :=
        ingest_simulates sessionId r stage (⟨f, bytes, read⟩ : WireFrame E.crc32) matched
      have ingested : r.ingest f = .ok (r', result) := step
      simp only [ingested]
      by_cases own : f.header.sessionId = sessionId
      · refine ⟨_, _, rfl, [⟨f, bytes, read⟩], ?_, next⟩
        rw [if_pos own]
        rfl
      · refine ⟨_, _, rfl, [], by rw [if_neg own]; rfl, ?_⟩
        have kept : stage.next E sessionId f = stage := by
          unfold Stage.next
          rw [if_pos own]
        rw [kept] at next
        exact next

theorem wire_simulates {sessionId : U128} (wire : List Bytes) {r : ReceiverSession E} {stage : Stage}
    (matched : Matches sessionId r stage) :
    ∃ r' outs, Run.run ingestBytes r wire = .ok (r', outs) ∧ ∃ frames : List (WireFrame E.crc32),
      frames.map Subtype.val = heard E sessionId wire ∧
      Matches sessionId r' (stage.run E sessionId frames) := by
  induction wire generalizing r stage with
  | nil => exact ⟨r, [], rfl, [], rfl, matched⟩
  | cons bytes rest ih =>
      obtain ⟨r₁, out, step, first, here, next⟩ := ingestBytes_simulates matched bytes
      obtain ⟨r₂, outs, tail, later, there, final⟩ := ih next
      refine ⟨r₂, out :: outs, Run.run_cons step tail, first ++ later, ?_, ?_⟩
      · rw [List.map_append, here, there, heard, heard, List.filterMap_cons]
        cases frameOf E sessionId bytes with
        | none => rfl
        | some f => rfl
      · rw [Stage.run_append]
        exact final

theorem receiveAll_simulates (E : Env) (sessionId : U128) (wire : List Bytes) :
    ∃ r outs, receiveAll E sessionId wire = .ok (r, outs) ∧ ∃ frames : List (WireFrame E.crc32),
      frames.map Subtype.val = heard E sessionId wire ∧
      Matches sessionId r ((Stage.waiting ∅).run E sessionId frames) := by
  obtain ⟨start, new, matched⟩ := newPending_waiting E sessionId
  obtain ⟨r, outs, run, found⟩ := wire_simulates wire matched
  refine ⟨r, outs, ?_, found⟩
  rw [receiveAll, new]
  exact run

def hostEncoders (E : Env) (c : CffiSender) : List SourceBlockEncoder :=
  E.raptorq.blockEncoders (padToSymbols (Host.slice c c.segmentIndex.toNat) c.config.codec)
    (Encoder.packetMtu c.config.codec)

def hostInfo (E : Env) (c : CffiSender) : DescriptorInfo where
  objectMeta := encodedMeta E.raptorq
    (padToSymbols (Host.slice c c.segmentIndex.toNat) c.config.codec) c.config.codec
  fileMeta := carried (Host.fileMeta c c.segmentIndex.toNat) (cutName c.filename (filenameBudget
    (encodedMeta E.raptorq (padToSymbols (Host.slice c c.segmentIndex.toNat) c.config.codec)
      c.config.codec) (Host.segmentMeta E c c.segmentIndex.toNat).isSome))
  segment := Host.segmentMeta E c c.segmentIndex.toNat

theorem Sliced.receivable (sliced : Sliced c) {i : Nat} (inside : i < c.segmentCount.toNat) :
    Receivable (Host.slice c i) c.config (Host.fileMeta c i) (Host.segmentMeta E c i) := by
  have small := (sliced.length_slice inside).2.2.2
  have whole := segmentRawBytes_lt
  have length : (Host.fileMeta c i).compressedSize.toNat = (Host.slice c i).length :=
    toNat_ofNat_of_lt (by omega)
  have budget := sliced.payload_le
  have room : maxOriginalBytes < 2 ^ 64 := by decide
  have original : (Host.fileMeta c i).originalSize.toNat = c.payload.length :=
    toNat_ofNat_of_lt (by omega)
  refine ⟨rfl, fun _ => padded_within_budget small c.config.codec, fun _ => ?_, fun _ => ?_, ?_⟩
  · rw [length, length_padToSymbols]
    exact le_ceilDiv_mul _ (symbolSize_pos c.config.codec)
  · rw [original]
    exact budget
  · exact fun _ compressed => absurd rfl compressed

theorem Prepared.openedSession (prepared : Prepared E c) :
    openSession E.raptorq (Host.slice c c.segmentIndex.toNat) (Host.childId c c.segmentIndex.toNat)
      c.config (Host.fileMeta c c.segmentIndex.toNat) (Host.segmentMeta E c c.segmentIndex.toNat) =
        .ok (.ok c.session) :=
  (prepared.build_eq prepared.index_lt).symm.trans prepared.current

theorem Prepared.broadcast (packetizes : E.raptorq.Packetizes) (defaults : E.raptorq.WithDefaults)
    (prepared : Prepared E c) : Broadcast E c.session (hostEncoders E c) (hostInfo E c) := by
  have inside := prepared.index_lt
  have made := prepared.openedSession
  obtain ⟨id, codec, file, segment, object⟩ := openSession_fields made
  have small := (prepared.length_slice inside).2.2.2
  have whole := segmentRawBytes_lt
  have upper := c.config.codec.legal.upper
  refine ⟨ready_of_open packetizes made, openSession_atFrame made, object.symm, ?_, fun p built => ?_⟩
  · rw [id]
    exact (receivable_iff defaults (by omega) made _).mpr (prepared.receivable inside)
  · rw [file, segment, object] at built
    exact (buildPayloadInner_ok upper built).2.2

theorem Prepared.plan_within_cap (packetizes : E.raptorq.Packetizes)
    (defaults : E.raptorq.WithDefaults) (prepared : Prepared E c) :
    c.session.sourcePlan.length ≤ preMetaCacheMax c.config.codec.symbolSize := by
  have inside := prepared.index_lt
  have ready := ready_of_open packetizes prepared.openedSession
  obtain ⟨-, -, -, -, object⟩ := openSession_fields prepared.openedSession
  have positive := symbolSize_pos c.config.codec
  have lower := c.config.codec.legal.lower
  have small := padded_within_budget (prepared.length_slice inside).2.2.2 c.config.codec
  have nonzero : c.config.codec.symbolSize ≠ 0 := by
    intro zero
    rw [zero] at positive
    exact absurd positive (by decide)
  have wide : max c.config.codec.symbolSize.toNat preMetaCacheBytesPerEntry =
      c.config.codec.symbolSize.toNat := max_eq_left lower
  rw [ready.plan_length, object, encodedMeta_totalSymbols defaults (prepared.encodable inside),
    preMetaCacheMax, if_neg nonzero, wide]
  exact ceilDiv_mono _ small

/-- What a receiver of the selected segment has after some bytes. -/
structure Recovers (E : Env) (c : CffiSender) (wire : List Bytes) (r : ReceiverSession E) : Prop where
  /-- Metadata are confirmed from the first descriptor on. -/
  confirmed : r.isMetaConfirmed = true ↔ ∃ f ∈ heard E c.session.sessionId wire, isData f = false
  recovered : r.isComplete = true →
    r.assembleRaw.map (fun raw => raw.take r.fileMeta.compressedSize.toNat) =
      some (Host.slice c c.segmentIndex.toNat)
  complete : (∃ f ∈ heard E c.session.sessionId wire, isData f = false) →
    (∀ id ∈ c.session.sourcePlan, id ∈ dataIds (heard E c.session.sessionId wire)) →
    (dataIds ((heard E c.session.sessionId wire).takeWhile isData)).toFinset.card ≤
      preMetaCacheMax c.config.codec.symbolSize → r.isComplete = true

theorem dataIds_takeWhile (frames : List Frame) :
    dataIds (frames.takeWhile isData) = (frames.takeWhile isData).map frameId := by
  have every : ∀ f ∈ frames.takeWhile isData, isData f = true :=
    fun f member => @List.mem_takeWhile_imp _ isData frames f member
  rw [dataIds, List.filter_eq_self.mpr every]

theorem mem_dataIds {frames : List Frame} {id : U32 × U32} :
    id ∈ dataIds frames ↔ ∃ f ∈ frames, isData f = true ∧ frameId f = id := by
  rw [dataIds, List.mem_map]
  simp only [List.mem_filter, and_assoc]

theorem Prepared.assemble (defaults : E.raptorq.WithDefaults) (splits : E.raptorq.SplitsData)
    (decodes : E.raptorq.DecodesBlocks) (prepared : Prepared E c) {log : List Symbol}
    (genuine : ∀ x ∈ log, Genuine (hostEncoders E c) x)
    (complete : (Decoder.ofLog E.raptorq (hostInfo E c).objectMeta log).isComplete = true) :
    (Decoder.ofLog E.raptorq (hostInfo E c).objectMeta log).assemble =
      some (padToSymbols (Host.slice c c.segmentIndex.toNat) c.config.codec) := by
  have small := padded_within_budget (prepared.length_slice prepared.index_lt).2.2.2 c.config.codec
  have budget : maxObjectBytes < 2 ^ 64 := by decide
  refine assemble_genuine defaults splits decodes (prepared.encodable prepared.index_lt) ?_
    (by omega) genuine complete
  rw [length_padToSymbols]
  exact Nat.mul_mod_left ..

theorem Prepared.recovers (packetizes : E.raptorq.Packetizes) (defaults : E.raptorq.WithDefaults)
    (splits : E.raptorq.SplitsData) (decodes : E.raptorq.DecodesBlocks)
    (source : E.raptorq.DecodesFromSource) (prepared : Prepared E c) {wire : List Bytes}
    (drawn : ∀ f ∈ heard E c.session.sessionId wire, Drawn E.crc32 c.session f) :
    ∃ r outs, receiveAll E c.session.sessionId wire = .ok (r, outs) ∧ Recovers E c wire r := by
  have b := prepared.broadcast packetizes defaults
  obtain ⟨-, codec, -, -, -⟩ := openSession_fields prepared.openedSession
  obtain ⟨r, outs, run, frames, same, matched⟩ := receiveAll_simulates E c.session.sessionId wire
  have carries : ∀ f ∈ frames, f.1.header.sessionId = c.session.sessionId ∧
      Carries E c.session (hostEncoders E c) (hostInfo E c) f.1 := by
    intro f member
    refine (drawn f.1 ?_).carries b
    rw [← same]
    exact List.mem_map_of_mem member
  obtain ⟨faithful, confirmed⟩ := Stage.faithful_run frames _ Stage.faithful_empty carries
  have kinds (kind : Bool) : (∃ f ∈ frames, isData f.1 = kind) ↔
      ∃ f ∈ heard E c.session.sessionId wire, isData f = kind := by
    rw [← same]
    simp only [List.mem_map, exists_exists_and_eq_and]
  refine ⟨r, outs, run, ?_, fun complete => ?_, fun descriptor sources room => ?_⟩
  · rw [matched.isMetaConfirmed_iff, confirmed, ← kinds]
    exact or_iff_right id
  · cases here : (Stage.waiting ∅).run E c.session.sessionId frames with
    | waiting cache =>
        rw [here] at matched
        rw [ReceiverSession.isComplete, matched.2.decoder] at complete
        cases complete
    | recovering m described log =>
        rw [here] at matched faithful
        obtain ⟨rfl, rfl, genuine⟩ := faithful
        obtain ⟨-, -, ⟨-, file, -⟩, recovering⟩ := matched
        have length : r.fileMeta.compressedSize.toNat =
            (Host.slice c c.segmentIndex.toNat).length := by
          have small := (prepared.length_slice prepared.index_lt).2.2.2
          have whole := segmentRawBytes_lt
          rw [file]
          exact toNat_ofNat_of_lt (by omega)
        rw [recovering.isComplete] at complete
        have assembled := prepared.assemble defaults splits decodes genuine complete
        rw [ReceiverSession.assembleRaw, recovering.decoder, Option.bind_some, assembled,
          Option.map_some, length, take_padToSymbols]
  · obtain ⟨log, ended, finished⟩ := b.completes source carries ((kinds false).mpr descriptor)
      (fun id planned => by
        obtain ⟨f, member, data, key⟩ := mem_dataIds.mp (sources id planned)
        rw [← same] at member
        obtain ⟨g, inside, rfl⟩ := List.mem_map.mp member
        exact ⟨g, inside, data, key⟩)
      (by
        rw [dataIds_takeWhile, ← same, List.takeWhile_map, List.map_map] at room
        rw [codec]
        exact room)
    rw [ended] at matched
    rw [matched.2.2.2.isComplete]
    exact finished

theorem heard_mono {sessionId : U128} {pre wire : List Bytes} (early : pre <+: wire) :
    ∀ f ∈ heard E sessionId pre, f ∈ heard E sessionId wire := by
  intro f member
  obtain ⟨rest, rfl⟩ := early
  rw [heard, List.filterMap_append]
  exact List.mem_append_left _ member

theorem segment_recovered_end_to_end (packetizes : E.raptorq.Packetizes)
    (defaults : E.raptorq.WithDefaults) (splits : E.raptorq.SplitsData)
    (decodes : E.raptorq.DecodesBlocks) (source : E.raptorq.DecodesFromSource) (host : HostSender E c) (wire : List Bytes)
    (drawn : ∀ f ∈ heard E c.session.sessionId wire, Drawn E.crc32 c.session f) :
    c.session.sourcePlan.length ≤ preMetaCacheMax c.config.codec.symbolSize ∧
      ∀ pre, pre <+: wire → ∃ r outs,
        receiveAll E c.session.sessionId pre = .ok (r, outs) ∧ Recovers E c pre r := by
  have prepared := host.prepared
  refine ⟨prepared.plan_within_cap packetizes defaults, fun pre early => ?_⟩
  exact prepared.recovers packetizes defaults splits decodes source fun f member =>
    drawn f (heard_mono early f member)

theorem Emits.heard {s : SenderSession} {encs : List SourceBlockEncoder} (ready : Ready s encs)
    {sent emitted : Nat} {frames picked : List Frame} (emits : Emits E.crc32 s encs sent emitted frames)
    (drawn : ∀ f ∈ picked, f ∈ frames) :
    heard E s.sessionId (picked.map Frame.toBytes) = picked := by
  have read : ∀ f ∈ picked, frameOf E s.sessionId f.toBytes = some f := by
    intro f member
    have own : f.header.sessionId = s.sessionId := by
      obtain ⟨_, _, _, _, rfl⟩ | ⟨_, _, _, _, _, _, _, rfl⟩ := emits.shape (drawn f member) <;> rfl
    rw [frameOf, (emits.accepted ready f (drawn f member)).2]
    exact if_pos own
  rw [Proof.heard, List.filterMap_map]
  exact (List.filterMap_congr read).trans List.filterMap_some

def kilobyteCodec : Config := { symbolSize := 1024, legal := by decide }

def threeSymbols : Bytes := List.replicate 2500 7

theorem threeSymbols_made :
    ∃ c, CffiSender.new reference threeSymbols "a" 0 20 1024 = .ok (.ok c) ∧
      Host.slice c c.segmentIndex.toNat = threeSymbols ∧ c.config.codec = kilobyteCodec ∧
      beatOf c.session = 17 ∧
      (c.session.objectMeta.blocks.map fun b => b.numSourceSymbols.toNat) = [3] := by
  have size : threeSymbols.length = 2500 := List.length_replicate
  have first : (Pieces.piece segmentRawBytes threeSymbols 0).length = 2500 := by
    rw [Pieces.length_piece, Pieces.pieceLength, Nat.zero_mul, size]
    exact min_eq_left (by decide)
  obtain ⟨c, made, payload, -, config⟩ := @new_of_fits reference Systematic.withDefaults threeSymbols "a" 0
    20 1024 kilobyteCodec (List.ne_nil_of_length_pos (by rw [size]; decide)) (by rw [size]; decide) rfl rfl
    (by rw [first]; decide)
  obtain ⟨prepared, -, -, zero⟩ := prepared_of_new made
  have single : c.segmentCount.toNat ≤ 1 := by
    rw [prepared.count, payload, size]
    decide
  have slice : Host.slice c c.segmentIndex.toNat = threeSymbols := by
    rw [zero]
    exact (prepared.slice_of_one single).trans payload
  have opened := prepared.openedSession
  obtain ⟨-, -, -, -, object⟩ := openSession_fields opened
  have beat : beatOf c.session = 17 := by
    obtain ⟨-, -, same, -⟩ := newInner_ok (openSession_ok opened).1
    rw [same]
    rfl
  have symbols : (c.session.objectMeta.blocks.map fun b => b.numSourceSymbols.toNat) = [3] := by
    rw [object]
    refine (encodedMeta_symbols Systematic.withDefaults (prepared.encodable prepared.index_lt)).trans ?_
    rw [blockSizes, symbolLength_packetMtu, length_padToSymbols, slice, size, config]
    rfl
  exact ⟨c, made, slice, config, beat, symbols⟩

/-- Lost are the first descriptor and every repair symbol; one frame comes twice, and late. -/
def shuffled (frames : List Frame) : List Frame := [3, 1, 3, 17, 2, 1].filterMap (frames[·]?)

theorem segment_recovered_three_symbols :
    ∃ c, CffiSender.new reference threeSymbols "a" 0 20 1024 = .ok (.ok c) ∧
      c.session.sourcePlan.length = 3 ∧ ∃ s', ∃ frames : List Frame,
        c.session.run reference.crc32 (List.replicate 18 0) = .ok (s', frames.map .ok) ∧
        ∃ r outs, receiveAll reference c.session.sessionId ((shuffled frames).map Frame.toBytes) =
            .ok (r, outs) ∧
          r.isComplete = true ∧
          r.assembleRaw.map (fun raw => raw.take r.fileMeta.compressedSize.toNat) =
            some threeSymbols := by
  obtain ⟨c, made, slice, config, beat, symbols⟩ := threeSymbols_made
  have opened := (prepared_of_new made).1.openedSession
  have ready := ready_of_open Systematic.packetizes opened
  have plan : c.session.sourcePlan.length = 3 := by
    rw [ready.plan_length, ObjectMeta.totalSymbols, symbols]
    rfl
  obtain ⟨frames, rest, run, count, emits, spent⟩ :=
    @run_atFrame reference.crc32 _ _ ready 0 0 (List.replicate 18 0)
  rw [← openSession_atFrame opened] at run
  rw [List.length_replicate] at count
  obtain rfl : rest = 0 := by
    refine unspent (fun b member => ?_) (by omega) fun more => (ready.spent_iff frames).mp ?_
    · have few : b.numSourceSymbols.toNat ∈ [3] := by
        rw [← symbols]
        exact List.mem_map_of_mem member
      rw [List.mem_singleton.mp few]
      decide
    · rw [← Nat.zero_add (dataIds frames).length, ← Nat.zero_add frames.length]
      exact spent more
  rw [List.replicate_zero, List.append_nil] at run
  have shown : ∀ i ∈ [3, 1, 3, 17, 2, 1], ∀ f, frames[i]? = some f → f ∈ shuffled frames :=
    fun i listed f found => List.mem_filterMap.mpr ⟨i, listed, found⟩
  have drawn : ∀ f ∈ shuffled frames, f ∈ frames := by
    intro f member
    obtain ⟨i, -, found⟩ := List.mem_filterMap.mp member
    exact List.mem_of_getElem? found
  have read := emits.heard ready drawn
  obtain ⟨-, every⟩ := segment_recovered_end_to_end (E := reference) Systematic.packetizes
    Systematic.withDefaults Systematic.splitsData Systematic.decodesBlocks Systematic.decodesFromSource
    (.new made) ((shuffled frames).map Frame.toBytes) (by
      rw [read]
      exact fun f member => ⟨_, _, _, run, List.mem_map_of_mem (drawn f member)⟩)
  obtain ⟨r, outs, received, recovers⟩ := every _ List.prefix_rfl
  have complete : r.isComplete = true := by
    apply recovers.complete
    · have last := List.getElem?_eq_getElem (show 17 < frames.length by omega)
      rw [read]
      refine ⟨_, shown 17 (by decide) _ last, (emits.isData_iff last).mpr ?_⟩
      rw [descriptorAt, ← beatOf, beat]
      decide
    · intro id member
      obtain ⟨j, inside, rfl⟩ := List.getElem_of_mem member
      rw [plan] at inside
      obtain ⟨f, found, data, same⟩ := emits.first_round (j := j) (by omega) (by omega) (by omega)
        (by omega)
      rw [List.getElem?_eq_getElem (by omega), Option.some.injEq] at same
      rw [read, mem_dataIds, same]
      refine ⟨f, shown (j + 1) ?_ f found, data, rfl⟩
      interval_cases j <;> decide
    · rw [read]
      have few : (dataIds ((shuffled frames).takeWhile isData)).length ≤ 6 := by
        rw [dataIds, List.length_map]
        refine (List.length_filter_le ..).trans ((List.takeWhile_prefix _).length_le.trans ?_)
        exact List.length_filterMap_le ..
      refine (List.toFinset_card_le _).trans (few.trans ?_)
      rw [config]
      decide
  refine ⟨c, made, plan, _, frames, run, r, outs, received, complete, ?_⟩
  rw [recovers.recovered complete, slice]

end AirFerry.Proof
