import AirFerry.Library.Digest
import AirFerry.Proof.Opening

/-!
# A sender never repeats a symbol

The data frames of a run carry the source plan and then the repair symbols in turn, so no two carry
the same symbol and no block falls behind another.
-/

namespace AirFerry.Proof
open Library Library.Cadence Library.RoundRobin QrProtocol RaptorqCore TransferEngine

variable {R : Raptorq} {crc32 : Bytes → U32} {s : SenderSession} {encs : List SourceBlockEncoder}

theorem Emits.dataIds_eq {sent emitted : Nat} {frames : List Frame}
    (emits : Emits crc32 s encs sent emitted frames) :
    (dataIds frames).map some = (List.range' sent (dataIds frames).length).map (dataId s) := by
  induction emits with
  | stop => rfl
  | descriptor nowMs due built later ih => rwa [dataIds_descriptorOf]
  | data nowMs due next found later ih =>
      rw [dataIds_dataOf, List.map_cons, List.length_cons, List.range'_succ, List.map_cons, next, ih]

theorem Emits.getElem?_dataIds {sent emitted : Nat} {frames : List Frame}
    (emits : Emits crc32 s encs sent emitted frames) {i : Nat} {id : U32 × U32}
    (found : (dataIds frames)[i]? = some id) : dataId s (sent + i) = some id := by
  have inside : i < (dataIds frames).length := (List.getElem?_eq_some_iff.mp found).1
  have same := congrArg (fun ids => ids[i]?) emits.dataIds_eq
  simp only [List.getElem?_map, found, Option.map_some, List.getElem?_range' inside, Nat.one_mul,
    Option.some.injEq] at same
  exact same.symm

theorem Ready.repairId_some (ready : Ready s encs) {cursor : Nat} {id : U32 × U32}
    (h : repairId s.objectMeta cursor = some id) :
    id.1.toNat = cursor % s.objectMeta.blocks.length := by
  obtain ⟨b, found, sbn, -⟩ := Proof.repairId_some h
  rw [sbn]
  exact ready.numbered.sbn_toNat found

theorem Ready.dataId_injective (ready : Ready s encs) {i j : Nat} {id : U32 × U32}
    (first : dataId s i = some id) (second : dataId s j = some id) : i = j := by
  obtain ⟨enc, found, early | late⟩ := ready.dataId_some first
  · obtain ⟨enc', found', early' | late'⟩ := ready.dataId_some second
    · have distinct := (sourceOrder ready.numbered).distinct
      rw [← ready.plan] at distinct
      rw [dataId, if_pos early.1] at first
      rw [dataId, if_pos early'.1] at second
      exact (List.getElem?_inj early.1 distinct).mp (first.trans second.symm)
    · rw [found] at found'
      cases found'
      omega
  · obtain ⟨enc', found', early' | late'⟩ := ready.dataId_some second
    · rw [found] at found'
      cases found'
      omega
    · rw [dataId, if_neg (not_lt.mpr late.1)] at first
      rw [dataId, if_neg (not_lt.mpr late'.1)] at second
      have turns : turn s.objectMeta.blocks.length (i - s.sourcePlan.length) =
          turn s.objectMeta.blocks.length (j - s.sourcePlan.length) := by
        have block := ready.repairId_some first
        rw [ready.repairId_some second] at block
        obtain ⟨b, located, -, esi, -⟩ := Proof.repairId_some first
        obtain ⟨c, located', -, esi', -⟩ := Proof.repairId_some second
        rw [block, located] at located'
        cases located'
        rw [turn, turn, Prod.mk.injEq]
        exact ⟨block.symm, by omega⟩
      have cursors := turn_injective _ turns
      omega

structure FreshIds (m : ObjectMeta) (plan ids : List (U32 × U32)) : Prop where
  distinct : ids.Nodup
  source : ids.take plan.length = plan.take ids.length
  repair : ∀ id ∈ ids.drop plan.length, ∃ b, m.blocks[id.1.toNat]? = some b ∧
    b.numSourceSymbols.toNat ≤ id.2.toNat ∧ id.2.toNat < 2 ^ 24
  fair : ∀ first < m.blocks.length, ∀ second < m.blocks.length,
    (ids.drop plan.length).countP (fun id => decide (id.1.toNat = first)) ≤
      (ids.drop plan.length).countP (fun id => decide (id.1.toNat = second)) + 1

theorem Emits.nodup (ready : Ready s encs) {sent emitted : Nat} {frames : List Frame}
    (emits : Emits crc32 s encs sent emitted frames) : (dataIds frames).Nodup := by
  apply List.Nodup.of_map some
  rw [emits.dataIds_eq]
  refine List.Nodup.map_on ?_ List.nodup_range'
  intro i first j second same
  have values : ∀ k ∈ List.range' sent (dataIds frames).length, ∃ id, dataId s k = some id := by
    intro k member
    have carried : dataId s k ∈ (dataIds frames).map some := by
      rw [emits.dataIds_eq]
      exact List.mem_map_of_mem member
    obtain ⟨id, -, equal⟩ := List.mem_map.mp carried
    exact ⟨id, equal.symm⟩
  obtain ⟨id, carried⟩ := values i first
  exact ready.dataId_injective carried (same ▸ carried)

theorem Emits.source {emitted : Nat} {frames : List Frame}
    (emits : Emits crc32 s encs 0 emitted frames) :
    (dataIds frames).take s.sourcePlan.length = s.sourcePlan.take (dataIds frames).length := by
  apply List.ext_getElem?
  intro i
  rw [List.getElem?_take, List.getElem?_take]
  by_cases early : i < s.sourcePlan.length
  · rw [if_pos early]
    by_cases inside : i < (dataIds frames).length
    · have carried := emits.getElem?_dataIds (List.getElem?_eq_getElem inside)
      rw [Nat.zero_add, dataId, if_pos early] at carried
      rw [if_pos inside, carried, List.getElem?_eq_getElem inside]
    · rw [if_neg inside, List.getElem?_eq_none (not_lt.mp inside)]
  · rw [if_neg early]
    split
    · exact (List.getElem?_eq_none (not_lt.mp early)).symm
    · rfl

theorem Emits.repairIds {emitted : Nat} {frames : List Frame}
    (emits : Emits crc32 s encs 0 emitted frames) :
    ((dataIds frames).drop s.sourcePlan.length).map some =
      (List.range ((dataIds frames).length - s.sourcePlan.length)).map (repairId s.objectMeta) := by
  rw [List.map_drop, emits.dataIds_eq, ← List.map_drop, List.drop_range', Nat.zero_add,
    List.range'_eq_map_range, List.map_map]
  apply List.map_congr_left
  intro i _
  simp only [Function.comp_apply, Nat.mul_one]
  rw [dataId, if_neg (by omega), Nat.add_comm, Nat.add_sub_cancel]

theorem Emits.countP_repair (ready : Ready s encs) {emitted : Nat} {frames : List Frame}
    (emits : Emits crc32 s encs 0 emitted frames) (block : Nat) :
    ((dataIds frames).drop s.sourcePlan.length).countP (fun id => decide (id.1.toNat = block)) =
      (List.range ((dataIds frames).length - s.sourcePlan.length)).countP fun cursor =>
        decide ((turn s.objectMeta.blocks.length cursor).1 = block) := by
  let inBlock : Option (U32 × U32) → Bool := fun id => id.any fun id => decide (id.1.toNat = block)
  have counted := congrArg (List.countP inBlock) emits.repairIds
  rw [List.countP_map, List.countP_map] at counted
  refine Eq.trans counted (List.countP_congr fun cursor member => ?_)
  have carried : repairId s.objectMeta cursor ∈
      ((dataIds frames).drop s.sourcePlan.length).map some := by
    rw [emits.repairIds]
    exact List.mem_map_of_mem member
  obtain ⟨id, -, equal⟩ := List.mem_map.mp carried
  have number := ready.repairId_some equal.symm
  simp only [Function.comp_apply, ← equal, inBlock, Option.any_some, number, turn]
  exact Iff.rfl

theorem Emits.freshIds (ready : Ready s encs) {emitted : Nat} {frames : List Frame}
    (emits : Emits crc32 s encs 0 emitted frames) :
    FreshIds s.objectMeta s.sourcePlan (dataIds frames) := by
  refine ⟨emits.nodup ready, emits.source, ?_, ?_⟩
  · intro id member
    have carried : some id ∈ ((dataIds frames).drop s.sourcePlan.length).map some :=
      List.mem_map_of_mem member
    rw [emits.repairIds] at carried
    obtain ⟨cursor, -, equal⟩ := List.mem_map.mp carried
    obtain ⟨b, found, -, esi, small⟩ := Proof.repairId_some equal
    rw [← ready.repairId_some equal] at found
    refine ⟨b, found, ?_, small⟩
    rw [esi]
    exact Nat.le_add_right ..
  · intro first inside second inside'
    rw [emits.countP_repair ready, emits.countP_repair ready]
    exact countP_turn_fair inside inside' _

theorem Emits.frameIndex {sent emitted : Nat} {frames : List Frame}
    (emits : Emits crc32 s encs sent emitted frames) :
    frames.map (fun f => f.header.frameIndex) =
      (List.range' (emitted + 1) frames.length).map (BitVec.ofNat 64) := by
  induction emits with
  | stop => rfl
  | descriptor nowMs due built later ih =>
      rw [List.map_cons, ih, List.length_cons, List.range'_succ, List.map_cons]
      rfl
  | data nowMs due next found later ih =>
      rw [List.map_cons, ih, List.length_cons, List.range'_succ, List.map_cons]
      rfl

theorem Ready.size_descriptorOf (ready : Ready s encs) {payload : Bytes} {emitted : Nat} {nowMs : U64}
    (built : Descriptor.buildPayloadInner s.objectMeta s.fileMeta s.segmentMeta = .ok payload) :
    (descriptorOf crc32 s payload emitted nowMs).payload.length = s.config.codec.symbolSize.toNat := by
  have upper := s.config.codec.legal.upper
  simp only [maxSymbolSize] at upper
  rw [← ready.symbolSize] at upper ⊢
  exact (buildPayloadInner_ok upper built).2.1

theorem Ready.size_dataOf (ready : Ready s encs) {sent emitted : Nat} {nowMs : U64} {id : U32 × U32}
    {enc : SourceBlockEncoder} (next : dataId s sent = some id) (found : encs[id.1.toNat]? = some enc) :
    (dataOf crc32 s enc id emitted nowMs).payload.length = s.config.codec.symbolSize.toNat := by
  obtain ⟨enc', found', range⟩ := ready.dataId_some next
  rw [found] at found'
  cases found'
  exact ready.packet_size enc (List.mem_of_getElem? found) id.2 (by omega) (id.1.setWidth 8)

theorem Emits.accepted (ready : Ready s encs) {sent emitted : Nat} {frames : List Frame}
    (emits : Emits crc32 s encs sent emitted frames) :
    ∀ f ∈ frames, f.payload.length = s.config.codec.symbolSize.toNat ∧
      Frame.fromBytes crc32 f.toBytes = .ok (.ok f) := by
  induction emits with
  | stop =>
      intro f member
      cases member
  | descriptor nowMs due built later ih =>
      intro f member
      rcases List.mem_cons.mp member with rfl | member
      · have size := @Ready.size_descriptorOf crc32 s encs ready _ 0 nowMs built
        refine ⟨size, Frame.fromBytes_toBytes (Frame.build_wireValid _ _ _ _ _ _ _ _ _ ?_)⟩
        rw [ready.symbolSize]
        exact size
      · exact ih f member
  | data nowMs due next found later ih =>
      intro f member
      rcases List.mem_cons.mp member with rfl | member
      · have size := @Ready.size_dataOf crc32 s encs ready _ 0 nowMs _ _ next found
        exact ⟨size, Frame.fromBytes_toBytes (Frame.build_wireValid _ _ _ _ _ _ _ _ _ size)⟩
      · exact ih f member

theorem Emits.not_spent {sent emitted : Nat} {frames : List Frame}
    (emits : Emits crc32 s encs sent emitted frames) {i : Nat} (inside : i < frames.length) :
    ¬ Spent s (sent + (dataIds (frames.take i)).length) (emitted + i) := by
  induction emits generalizing i with
  | stop => cases inside
  | descriptor nowMs due built later ih =>
      cases i with
      | zero => exact fun spent => spent.1 due
      | succ i =>
          rw [List.take_succ_cons, dataIds_descriptorOf, Nat.add_comm i 1, ← Nat.add_assoc]
          exact ih (by simpa using inside)
  | data nowMs due next found later ih =>
      cases i with
      | zero =>
          rintro ⟨-, spent⟩
          exact Option.some_ne_none _ (next.symm.trans spent)
      | succ i =>
          rw [List.take_succ_cons, dataIds_dataOf, List.length_cons,
            Nat.add_comm (dataIds _).length 1, Nat.add_comm i 1, ← Nat.add_assoc, ← Nat.add_assoc]
          exact ih (by simpa using inside)

/-- Data is due, every source symbol is out, and the repair symbol next in turn has no 24-bit id. -/
def Exhausted (s : SenderSession) (frames : List Frame) : Prop :=
  frames.length % 2 ^ 64 % max s.descriptorInterval.toNat 1 ≠ 0 ∧
    s.sourcePlan.length ≤ (dataIds frames).length ∧
    ∃ b, s.objectMeta.blocks[((dataIds frames).length - s.sourcePlan.length) %
        s.objectMeta.blocks.length]? = some b ∧
      2 ^ 24 ≤ b.numSourceSymbols.toNat +
        ((dataIds frames).length - s.sourcePlan.length) / s.objectMeta.blocks.length

theorem Exhausted.late {frames : List Frame} (exhausted : Exhausted s frames) :
    ∃ b ∈ s.objectMeta.blocks, 2 ^ 24 ≤ b.numSourceSymbols.toNat + frames.length := by
  obtain ⟨-, -, b, found, large⟩ := exhausted
  have ids : (dataIds frames).length ≤ frames.length :=
    (List.length_map _).trans_le (List.length_filter_le ..)
  have cursor := Nat.div_le_self ((dataIds frames).length - s.sourcePlan.length)
    s.objectMeta.blocks.length
  exact ⟨b, List.mem_of_getElem? found, by omega⟩

theorem unspent {frames : List Frame} {rest : Nat}
    (symbols : ∀ b ∈ s.objectMeta.blocks, b.numSourceSymbols.toNat ≤ maxSourceSymbolsPerBlock)
    (few : frames.length ≤ 2 ^ 23) (spent : 0 < rest → Exhausted s frames) : rest = 0 := by
  by_contra more
  obtain ⟨b, member, large⟩ := (spent (Nat.pos_of_ne_zero more)).late
  have small := symbols b member
  simp only [maxSourceSymbolsPerBlock] at small
  omega

theorem Ready.spent_iff (ready : Ready s encs) (frames : List Frame) :
    Spent s (dataIds frames).length frames.length ↔ Exhausted s frames := by
  refine and_congr_right fun _ => ?_
  unfold dataId
  by_cases early : (dataIds frames).length < s.sourcePlan.length
  · rw [if_pos early, List.getElem?_eq_getElem early]
    exact ⟨fun none => (Option.some_ne_none _ none).elim, fun late => absurd early (not_lt.mpr late.1)⟩
  · rw [if_neg early, repairId]
    generalize (dataIds frames).length - s.sourcePlan.length = cursor
    have located := List.getElem?_eq_getElem (Nat.mod_lt cursor ready.blocks_pos)
    rw [located]
    simp only [Option.bind_some, Option.some.injEq, exists_eq_left']
    constructor
    · intro none
      refine ⟨not_lt.mp early, not_lt.mp fun small => ?_⟩
      rw [if_pos small] at none
      cases none
    · rintro ⟨-, large⟩
      exact if_neg (not_lt.mpr large)

theorem Ready.totalK_toNat (ready : Ready s encs) : s.totalK.toNat = s.sourcePlan.length := by
  rw [ready.total, ready.plan_length, BitVec.toNat_ofNat]
  exact Nat.mod_eq_of_lt ready.total_lt

theorem Ready.setDescriptorInterval (ready : Ready s encs) (interval : U32) :
    Ready (s.setDescriptorInterval interval) encs :=
  ⟨ready.numbered, ready.serves, ready.count, ready.nonempty, ready.symbols_pos, ready.packet_size,
    ready.symbolSize, ready.plan, ready.total_lt, ready.total, ready.payload, ready.segment⟩

theorem openSession_atFrame {payload : Bytes} {sessionId : U128} {config : SenderConfig}
    {fileMeta : FileMeta} {segmentMeta : Option SegmentMeta} {fresh : SenderSession}
    (made : openSession R payload sessionId config fileMeta segmentMeta = .ok (.ok fresh)) :
    fresh = atFrame fresh 0 0 := by
  obtain ⟨-, -, rfl, -⟩ := newInner_ok (openSession_ok made).1
  simp only [atFrame, newSession, Nat.zero_min, Nat.zero_sub]
  rfl

theorem setDescriptorInterval_atFrame (s : SenderSession) (sent emitted : Nat) (interval : U32) :
    (atFrame s sent emitted).setDescriptorInterval interval =
      atFrame (s.setDescriptorInterval interval) sent emitted := rfl

theorem run_emits (packetizes : R.Packetizes) {payload : Bytes} {sessionId : U128}
    {config : SenderConfig} {fileMeta : FileMeta} {segmentMeta : Option SegmentMeta}
    {fresh s : SenderSession}
    (made : openSession R payload sessionId config fileMeta segmentMeta = .ok (.ok fresh))
    {interval : U32} (paced : s = fresh.setDescriptorInterval interval) (clock : List U64) :
    ∃ encs s' frames rest, Ready s encs ∧
      s.run crc32 clock =
        .ok (s', frames.map .ok ++ List.replicate rest (.error .symbolIdSpaceExhausted)) ∧
      frames.length + rest = clock.length ∧ Emits crc32 s encs 0 0 frames ∧
      (0 < rest → Spent s (dataIds frames).length frames.length) := by
  have ready : Ready s _ := paced ▸ (ready_of_open packetizes made).setDescriptorInterval interval
  have start : s = atFrame s 0 0 := by
    rw [paced, ← setDescriptorInterval_atFrame, ← openSession_atFrame made]
  obtain ⟨frames, rest, run, count, emits, spent⟩ := @run_atFrame crc32 _ _ ready 0 0 clock
  rw [← start] at run
  rw [Nat.zero_add, Nat.zero_add] at spent
  exact ⟨_, _, frames, rest, ready, run, count, emits, spent⟩

theorem sender_never_repeats (packetizes : R.Packetizes) {payload : Bytes} {sessionId : U128}
    {config : SenderConfig} {fileMeta : FileMeta} {segmentMeta : Option SegmentMeta}
    {fresh s : SenderSession}
    (made : openSession R payload sessionId config fileMeta segmentMeta = .ok (.ok fresh))
    {interval : U32} (paced : s = fresh.setDescriptorInterval interval) (clock : List U64) :
    Numbered s.objectMeta ∧ SourceOrder s.objectMeta s.sourcePlan ∧
      s.totalK.toNat = s.sourcePlan.length ∧
      ∃ s' frames rest,
        s.run crc32 clock =
          .ok (s', frames.map .ok ++ List.replicate rest (.error .symbolIdSpaceExhausted)) ∧
        frames.length + rest = clock.length ∧
        FreshIds s.objectMeta s.sourcePlan (dataIds frames) ∧
        frames.map (fun f => f.header.frameIndex) =
          (List.range' 1 frames.length).map (BitVec.ofNat 64) ∧
        (∀ f ∈ frames, f.payload.length = config.codec.symbolSize.toNat ∧
          Frame.fromBytes crc32 f.toBytes = .ok (.ok f)) ∧
        (∀ i < frames.length, ¬ Exhausted s (frames.take i)) ∧
        (0 < rest → Exhausted s frames) := by
  obtain ⟨encs, s', frames, rest, ready, run, count, emits, spent⟩ :=
    @run_emits _ crc32 packetizes _ _ _ _ _ _ _ made _ paced clock
  have codec : s.config = config := by
    obtain ⟨-, -, rfl, -⟩ := newInner_ok (openSession_ok made).1
    rw [paced]
    rfl
  have order := sourceOrder ready.numbered
  rw [← ready.plan] at order
  refine ⟨ready.numbered, order, ready.totalK_toNat, ?_⟩
  refine ⟨s', frames, rest, run, count, emits.freshIds ready, emits.frameIndex, ?_, ?_, ?_⟩
  · rw [← codec]
    exact emits.accepted ready
  · intro i inside exhausted
    apply emits.not_spent inside
    rw [Nat.zero_add, Nat.zero_add]
    have size : (frames.take i).length = i := List.length_take_of_le inside.le
    have state := (ready.spent_iff (frames.take i)).mpr exhausted
    rwa [size] at state
  · exact fun more => (ready.spent_iff frames).mp (spent more)

def tightConfig : SenderConfig where
  codec := { symbolSize := 72, legal := by decide }
  redundancyPct := 25

theorem tight_made : openSession systematic [1, 2, 3] 7 tightConfig FileMeta.default none =
    .ok (.ok (newSession systematic (padToSymbols [1, 2, 3] tightConfig.codec) 7 tightConfig
      FileMeta.default none)) := rfl

def pairConfig : SenderConfig where
  codec := { symbolSize := 88, legal := by decide }
  redundancyPct := 25

def pairPayload : Bytes := List.replicate (maxSourceSymbolsPerBlock * 88 + 1) 0

def pairPadded : Bytes := padToSymbols pairPayload pairConfig.codec

def pairSession : SenderSession := newSession systematic pairPadded 7 pairConfig FileMeta.default none

theorem length_pairPadded : pairPadded.length = 56404 * 88 := by
  rw [pairPadded, length_padToSymbols, pairPayload, List.length_replicate]
  rfl

theorem pairPadded_fits : Encodable pairPadded (Encoder.packetMtu pairConfig.codec) :=
  encodable_of_budget (List.ne_nil_of_length_pos (by rw [length_pairPadded]; decide))
    (by rw [length_pairPadded]; decide)

theorem pair_symbols :
    (pairSession.objectMeta.blocks.map fun b => b.numSourceSymbols.toNat) = [28202, 28202] := by
  refine (encodedMeta_symbols Systematic.withDefaults pairPadded_fits).trans ?_
  rw [blockSizes, symbolLength_packetMtu, length_pairPadded]
  rfl

theorem pair_made : openSession systematic pairPayload 7 pairConfig FileMeta.default none =
    .ok (.ok pairSession) := by
  have count := congrArg List.length pair_symbols
  have total := congrArg List.sum pair_symbols
  rw [List.length_map] at count
  have opened := @newInner_of_fits systematic pairPayload pairConfig 7 FileMeta.default none rfl
    pairPadded_fits.nonempty
  apply opened
  · exact (congrArg (fun n => minimumSize n false) count).trans_le (by decide)
  · exact lt_of_eq_of_lt total (by decide)

theorem pair_unspent {interval : U32} {frames : List Frame} {rest : Nat}
    (few : frames.length ≤ 2 ^ 23)
    (spent : 0 < rest → Exhausted (pairSession.setDescriptorInterval interval) frames) : rest = 0 := by
  refine unspent (fun b member => ?_) few spent
  have symbols : b.numSourceSymbols.toNat ∈ [28202, 28202] := by
    rw [SenderSession.setDescriptorInterval_objectMeta] at member
    rw [← pair_symbols]
    exact List.mem_map_of_mem member
  rw [List.mem_pair, or_self] at symbols
  rw [symbols]
  decide

theorem pair_plan : pairSession.sourcePlan.length = 56404 := by
  have ready := ready_of_open Systematic.packetizes pair_made
  rw [ready.plan_length, ObjectMeta.totalSymbols, pair_symbols]
  rfl

theorem pair_emits {interval : U32} {clock : List U64} {s' : SenderSession} {frames : List Frame}
    {rest : Nat} (run : (pairSession.setDescriptorInterval interval).run crc32 clock =
      .ok (s', frames.map .ok ++ List.replicate rest (.error .symbolIdSpaceExhausted))) :
    ∃ encs, Emits crc32 (pairSession.setDescriptorInterval interval) encs 0 0 frames := by
  obtain ⟨encs, s'', again, more, -, drawn, -, emits, -⟩ :=
    @run_emits systematic crc32 Systematic.packetizes _ _ _ _ _ _ _ pair_made interval rfl clock
  rw [run, Except.ok.injEq, Prod.mk.injEq] at drawn
  have same := congrArg (List.filterMap Except.toOption) drawn.2
  rw [filterMap_drawn, filterMap_drawn] at same
  exact ⟨encs, same ▸ emits⟩

theorem sender_never_repeats_pair :
    ∃ fresh, openSession systematic pairPayload 7 pairConfig FileMeta.default none = .ok (.ok fresh) ∧
      fresh.objectMeta.blocks.length = 2 ∧ fresh.sourcePlan.length = 56404 ∧
      ∃ s', ∃ frames : List Frame,
        (fresh.setDescriptorInterval 2).run Library.Digest.crc32 (List.replicate 112900 5) =
          .ok (s', frames.map .ok) ∧
        (dataIds frames).Nodup ∧ (dataIds frames).take 56404 = fresh.sourcePlan ∧
        ((dataIds frames).drop 56404).length = 46 := by
  obtain ⟨-, -, -, s', frames, rest, run, count, fresh, -, -, -, exhausted⟩ :=
    @sender_never_repeats systematic Library.Digest.crc32 Systematic.packetizes _ _ _ _ _ _ _ pair_made 2
      rfl (List.replicate 112900 5)
  obtain ⟨encs, emits⟩ := pair_emits run
  rw [List.length_replicate] at count
  obtain rfl := pair_unspent (by omega) exhausted
  rw [List.replicate_zero, List.append_nil] at run
  rw [Nat.add_zero] at count
  have beat : beatOf (pairSession.setDescriptorInterval 2) = 2 := beatOf_setDescriptorInterval ..
  have counted := emits.count_data le_rfl (by omega)
  rw [List.take_length, beat, length_beats_zero Nat.two_pos, count, if_neg (by decide)] at counted
  have ids : (dataIds frames).length = 56450 := by omega
  have source := fresh.source
  rw [ids, SenderSession.setDescriptorInterval_sourcePlan, pair_plan,
    @List.take_of_length_le _ 56450 pairSession.sourcePlan (by rw [pair_plan]; decide)] at source
  have blocks := congrArg List.length pair_symbols
  rw [List.length_map] at blocks
  refine ⟨_, pair_made, blocks, pair_plan, s', frames, run, fresh.distinct, source, ?_⟩
  rw [List.length_drop, ids]

end AirFerry.Proof
