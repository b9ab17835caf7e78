import AirFerry.Library.Cadence
import AirFerry.Library.RoundRobin
import AirFerry.Proof.DescriptorCodec
import AirFerry.TransferEngine.Sender

/-!
# What a sender emits

A session stands at `(sent, emitted)`: so many data frames, so many frames. `dataId` is the symbol
that the next data frame carries.
-/

namespace AirFerry.Proof
open Library Library.Cadence Library.RoundRobin QrProtocol RaptorqCore TransferEngine

variable {R : Raptorq} {crc32 : Bytes → U32}

/-! ## The source plan -/

structure Numbered (m : ObjectMeta) : Prop where
  sbn : ∀ i b, m.blocks[i]? = some b → b.sbn = BitVec.ofNat 32 i
  few : m.blocks.length < 2 ^ 32

theorem Numbered.sbn_toNat {m : ObjectMeta} (numbered : Numbered m) {i : Nat} {b : SourceBlockMeta}
    (found : m.blocks[i]? = some b) : b.sbn.toNat = i := by
  obtain ⟨inside, -⟩ := List.getElem?_eq_some_iff.mp found
  rw [numbered.sbn i b found, BitVec.toNat_ofNat]
  exact Nat.mod_eq_of_lt (inside.trans numbered.few)

theorem Numbered.mem_iff {m : ObjectMeta} (numbered : Numbered m) {b : SourceBlockMeta} :
    b ∈ m.blocks ↔ m.blocks[b.sbn.toNat]? = some b := by
  constructor
  · intro member
    obtain ⟨i, found⟩ := List.getElem?_of_mem member
    rwa [numbered.sbn_toNat found]
  · exact List.mem_of_getElem?

theorem Numbered.nodup {m : ObjectMeta} (numbered : Numbered m) : m.blocks.Nodup := by
  rw [List.nodup_iff_injective_getElem]
  intro i j same
  dsimp only at same
  have first := numbered.sbn_toNat (List.getElem?_eq_getElem i.isLt)
  have second := numbered.sbn_toNat (List.getElem?_eq_getElem j.isLt)
  rw [same, second] at first
  exact Fin.ext first.symm

theorem le_foldl_max {sizes : List Nat} {acc n : Nat} (h : n = acc ∨ n ∈ sizes) :
    n ≤ sizes.foldl max acc := by
  induction sizes generalizing acc n with
  | nil =>
      rcases h with rfl | member
      · exact le_rfl
      · cases member
  | cons size rest ih =>
      rw [List.foldl_cons]
      rcases h with rfl | member
      · exact (le_max_left n size).trans (ih (Or.inl rfl))
      · rcases List.mem_cons.mp member with rfl | member
        · exact (le_max_right acc n).trans (ih (Or.inl rfl))
        · exact ih (Or.inr member)

def symbolsOf (b : SourceBlockMeta) : Nat := b.numSourceSymbols.toNat

def planId (entry : SourceBlockMeta × Nat) : U32 × U32 := (entry.1.sbn, BitVec.ofNat 32 entry.2)

def planEntries (m : ObjectMeta) : List (SourceBlockMeta × Nat) :=
  rounds symbolsOf m.blocks ((m.blocks.map symbolsOf).foldl max 0)

theorem buildSourcePlan_eq (m : ObjectMeta) : buildSourcePlan m = (planEntries m).map planId := by
  simp only [planEntries, rounds, List.map_flatMap, served, List.map_map]
  rfl

theorem mem_planEntries {m : ObjectMeta} {entry : SourceBlockMeta × Nat} :
    entry ∈ planEntries m ↔ entry.1 ∈ m.blocks ∧ entry.2 < symbolsOf entry.1 := by
  rw [planEntries, mem_rounds]
  constructor
  · rintro ⟨member, -, inside⟩
    exact ⟨member, inside⟩
  · rintro ⟨member, inside⟩
    exact ⟨member, lt_of_lt_of_le inside (le_foldl_max (Or.inr (List.mem_map_of_mem member))), inside⟩

theorem planId_injOn {m : ObjectMeta} (numbered : Numbered m) {first second : SourceBlockMeta × Nat}
    (early : first ∈ planEntries m) (late : second ∈ planEntries m) (same : planId first = planId second) :
    first = second := by
  obtain ⟨b, i⟩ := first
  obtain ⟨c, j⟩ := second
  obtain ⟨memberB, smallI⟩ := mem_planEntries.mp early
  obtain ⟨memberC, smallJ⟩ := mem_planEntries.mp late
  obtain ⟨sameSbn, sameEsi⟩ := Prod.mk.inj same
  dsimp only at memberB smallI memberC smallJ sameSbn sameEsi
  have blocks : b = c := by
    have found := numbered.mem_iff.mp memberB
    rw [sameSbn, numbered.mem_iff.mp memberC] at found
    exact (Option.some.inj found).symm
  have values := congrArg BitVec.toNat sameEsi
  rw [BitVec.toNat_ofNat, BitVec.toNat_ofNat, Nat.mod_eq_of_lt (smallI.trans b.numSourceSymbols.isLt),
    Nat.mod_eq_of_lt (smallJ.trans c.numSourceSymbols.isLt)] at values
  rw [blocks, values]

structure SourceOrder (m : ObjectMeta) (plan : List (U32 × U32)) : Prop where
  distinct : plan.Nodup
  complete : ∀ sbn esi, (sbn, esi) ∈ plan ↔
    ∃ b, m.blocks[sbn.toNat]? = some b ∧ esi.toNat < b.numSourceSymbols.toNat
  rounds : plan.Pairwise fun early late => early.2.toNat ≤ late.2.toNat
  length : plan.length = m.totalSymbols

theorem sourceOrder {m : ObjectMeta} (numbered : Numbered m) : SourceOrder m (buildSourcePlan m) := by
  have values : ∀ entry ∈ planEntries m, (planId entry).2.toNat = entry.2 := by
    rintro ⟨b, i⟩ member
    exact Nat.mod_eq_of_lt ((mem_planEntries.mp member).2.trans b.numSourceSymbols.isLt)
  rw [buildSourcePlan_eq]
  refine ⟨?_, ?_, ?_, ?_⟩
  · refine List.Nodup.map_on ?_ (nodup_rounds numbered.nodup _)
    intro first early second late same
    exact planId_injOn numbered early late same
  · intro sbn esi
    rw [List.mem_map]
    constructor
    · rintro ⟨⟨b, i⟩, member, same⟩
      have value := values _ member
      obtain ⟨inBlocks, inside⟩ := mem_planEntries.mp member
      rw [same] at value
      obtain ⟨rfl, -⟩ := Prod.mk.inj same
      exact ⟨b, numbered.mem_iff.mp inBlocks, by rw [value]; exact inside⟩
    · rintro ⟨b, found, inside⟩
      refine ⟨(b, esi.toNat), mem_planEntries.mpr ⟨List.mem_of_getElem? found, inside⟩, ?_⟩
      have number : b.sbn = sbn := BitVec.eq_of_toNat_eq (numbered.sbn_toNat found)
      rw [planId, number, BitVec.ofNat_toNat, BitVec.setWidth_eq]
  · rw [List.pairwise_map]
    refine List.Pairwise.imp_of_mem ?_ (pairwise_rounds _)
    intro early late first second order
    rwa [values early first, values late second]
  · rw [List.length_map, planEntries, length_rounds_of_le]
    · rfl
    · intro b member
      exact le_foldl_max (Or.inr (List.mem_map_of_mem member))

/-! ## A session that was made -/

/-- What construction leaves for good, `encs` being the upstream block encoders. -/
structure Ready (s : SenderSession) (encs : List SourceBlockEncoder) : Prop where
  numbered : Numbered s.objectMeta
  serves : ∀ sbn : U32, ∀ enc, encs[sbn.toNat]? = some enc →
    ∃ m, s.encoder.Serves sbn enc m ∧ s.objectMeta.blocks[sbn.toNat]? = some m
  count : s.objectMeta.blocks.length = encs.length
  nonempty : encs ≠ []
  symbols_pos : ∀ enc ∈ encs, 1 ≤ enc.sourcePackets.length
  packet_size : ∀ enc ∈ encs, ∀ esi : U32,
    esi.toNat < enc.sourcePackets.length ∨ esi.toNat < 2 ^ 24 → ∀ sbn,
      (enc.packet sbn esi).data.length = s.config.codec.symbolSize.toNat
  symbolSize : s.objectMeta.symbolSize = s.config.codec.symbolSize
  plan : s.sourcePlan = buildSourcePlan s.objectMeta
  total_lt : s.objectMeta.totalSymbols < 2 ^ 32
  total : s.totalK = BitVec.ofNat 32 s.objectMeta.totalSymbols
  payload : ∃ p, Descriptor.buildPayloadInner s.objectMeta s.fileMeta s.segmentMeta = .ok p
  segment : ∀ segment, s.segmentMeta = some segment →
    segment.validate s.sessionId s.fileMeta = .ok ()

def openSession (R : Raptorq) (payload : Bytes) (sessionId : U128) (config : SenderConfig)
    (fileMeta : FileMeta) : Option SegmentMeta → Exec (Except TransferEngine.Error SenderSession)
  | none => SenderSession.new R payload sessionId config fileMeta
  | some segment => SenderSession.newSegment R payload sessionId config fileMeta segment

theorem packetMtu_toNat (config : Config) :
    (Encoder.packetMtu config).toNat = config.symbolSize.toNat + 4 := by
  have upper := config.legal.upper
  simp only [maxSymbolSize] at upper
  rw [Encoder.packetMtu, BitVec.toNat_ofNat, payloadIdSize]
  exact Nat.mod_eq_of_lt (by omega)

theorem packet_length (config : Config) :
    (Encoder.packetMtu config).toNat - (Encoder.packetMtu config).toNat % 8 =
      config.symbolSize.toNat := by
  have aligned := config.legal.aligned
  rw [packetMtu_toNat]
  omega

theorem newSegment_ok {payload : Bytes} {sessionId : U128} {config : SenderConfig}
    {fileMeta : FileMeta} {segment : SegmentMeta} {s : SenderSession}
    (made : SenderSession.newSegment R payload sessionId config fileMeta segment = .ok (.ok s)) :
    fileMeta.compressedSize = BitVec.ofNat 64 payload.length ∧ fileMeta.compressedSizeKnown = true ∧
      segment.validate sessionId fileMeta = .ok () ∧
      SenderSession.newInner R payload sessionId config fileMeta (some segment) = .ok (.ok s) := by
  unfold SenderSession.newSegment at made
  split at made
  · cases made
  rename_i agrees
  push Not at agrees
  split at made
  · cases made
  · rename_i valid
    exact ⟨agrees.1, agrees.2, valid, made⟩

def newSession (R : Raptorq) (padded : Bytes) (sessionId : U128) (config : SenderConfig)
    (fileMeta : FileMeta) (segmentMeta : Option SegmentMeta) : SenderSession :=
  let mtu := Encoder.packetMtu config.codec
  let encoder := Encoder.ofBlocks R padded config.codec (R.config padded mtu)
    (R.blockEncoders padded mtu)
  { config, sessionId, encoder, objectMeta := encoder.objectMeta, fileMeta, segmentMeta,
    totalK := BitVec.ofNat 32 encoder.objectMeta.totalSymbols,
    sourcePlan := buildSourcePlan encoder.objectMeta,
    sourceCursor := 0, repairCursor := 0, frameIndex := 0, descriptorInterval := 17 }

theorem newInner_ok {payload : Bytes} {sessionId : U128} {config : SenderConfig}
    {fileMeta : FileMeta} {segmentMeta : Option SegmentMeta} {s : SenderSession}
    (made : SenderSession.newInner R payload sessionId config fileMeta segmentMeta = .ok (.ok s)) :
    padToSymbols payload config.codec ≠ [] ∧ config.validate = .ok () ∧
      s = newSession R (padToSymbols payload config.codec) sessionId config fileMeta segmentMeta ∧
      (∃ p, Descriptor.buildPayloadInner s.objectMeta fileMeta segmentMeta = .ok p) ∧
      s.objectMeta.totalSymbols < 2 ^ 32 := by
  unfold SenderSession.newInner at made
  split at made
  · cases made
  rename_i valid
  by_cases empty : padToSymbols payload config.codec = []
  · rw [empty, Encoder.new_nil] at made
    cases made
  rw [Encoder.new_eq empty] at made
  simp only at made
  split at made
  · cases made
  rename_i p built
  cases sum : sumU32 ((newSession R (padToSymbols payload config.codec) sessionId config fileMeta
      segmentMeta).objectMeta.blocks.map fun b => b.numSourceSymbols.toNat) with
  | error fault =>
      rw [newSession] at sum
      rw [sum] at made
      cases made
  | ok total =>
      obtain ⟨rfl, small⟩ := sumU32_ok sum
      rw [newSession] at sum
      rw [sum] at made
      cases made
      exact ⟨empty, valid, rfl, ⟨p, built⟩, small⟩

theorem openSession_ok {payload : Bytes} {sessionId : U128} {config : SenderConfig}
    {fileMeta : FileMeta} {segmentMeta : Option SegmentMeta} {s : SenderSession}
    (made : openSession R payload sessionId config fileMeta segmentMeta = .ok (.ok s)) :
    SenderSession.newInner R payload sessionId config fileMeta segmentMeta = .ok (.ok s) ∧
      ∀ segment, segmentMeta = some segment → segment.validate sessionId fileMeta = .ok () := by
  cases segmentMeta with
  | none => exact ⟨made, fun segment h => by cases h⟩
  | some segment =>
      obtain ⟨-, -, valid, made⟩ := newSegment_ok made
      exact ⟨made, fun other h => by cases h; exact valid⟩

theorem packet_size {mtu : U16} {data : Bytes} (packetizes : R.Packetizes) (wide : 64 ≤ mtu.toNat)
    {enc : SourceBlockEncoder} (member : enc ∈ R.blockEncoders data mtu) {sbn : U8} {esi : U32}
    (small : esi.toNat < enc.sourcePackets.length ∨ esi.toNat < 2 ^ 24) :
    (enc.packet sbn esi).data.length = mtu.toNat - mtu.toNat % 8 := by
  unfold SourceBlockEncoder.packet
  by_cases source : esi.toNat < enc.sourcePackets.length
  · rw [dif_pos source]
    exact packetizes.source_size data mtu wide enc member _ (List.getElem_mem source)
  · rw [dif_neg source]
    exact packetizes.repair_size data mtu wide enc member _ (by omega)

theorem ready_of_open (packetizes : R.Packetizes) {payload : Bytes} {sessionId : U128}
    {config : SenderConfig} {fileMeta : FileMeta} {segmentMeta : Option SegmentMeta}
    {s : SenderSession}
    (made : openSession R payload sessionId config fileMeta segmentMeta = .ok (.ok s)) :
    Ready s (R.blockEncoders (padToSymbols payload config.codec)
      (Encoder.packetMtu config.codec)) := by
  obtain ⟨inner, valid⟩ := openSession_ok made
  obtain ⟨nonempty, -, rfl, ⟨p, built⟩, total⟩ := newInner_ok inner
  have wide : 64 ≤ (Encoder.packetMtu config.codec).toNat := by
    have lower := config.codec.legal.lower
    simp only [minSymbolSize] at lower
    rw [packetMtu_toNat]
    omega
  have upper := config.codec.legal.upper
  simp only [maxSymbolSize] at upper
  have room := (buildPayloadInner_ok upper built).1
  generalize blocks : R.blockEncoders (padToSymbols payload config.codec)
    (Encoder.packetMtu config.codec) = encs at *
  have count : (newSession R (padToSymbols payload config.codec) sessionId config fileMeta
      segmentMeta).objectMeta.blocks.length = encs.length := by
    rw [← blocks]
    exact ObjectMeta.length_blocks_fromEncoder ..
  have described : ∀ i enc, encs[i]? = some enc → ∃ m, (newSession R (padToSymbols payload
      config.codec) sessionId config fileMeta segmentMeta).objectMeta.blocks[i]? = some m ∧
      m.sbn = BitVec.ofNat 32 i ∧ m.numSourceSymbols.toNat = enc.sourcePackets.length := by
    intro i enc found
    rw [← blocks] at found
    refine ⟨_, ObjectMeta.blocks_fromEncoder found, rfl, ?_⟩
    rw [BitVec.toNat_ofNat]
    exact Nat.mod_eq_of_lt (packetizes.symbols_lt _ _ wide enc (List.mem_of_getElem? found))
  have cached : ∀ (i : Nat) enc, encs[i]? = some enc → (newSession R (padToSymbols
      payload config.codec) sessionId config fileMeta segmentMeta).encoder.blocks[i]? =
        some ⟨enc, enc.sourcePackets⟩ := by
    intro i enc found
    rw [← blocks] at found
    simp [newSession, Encoder.ofBlocks, found]
  exact {
    numbered := {
      sbn := by
        intro i b found
        obtain ⟨inside, -⟩ := List.getElem?_eq_some_iff.mp found
        rw [count] at inside
        obtain ⟨m, same, number, -⟩ := described i _ (List.getElem?_eq_getElem inside)
        rw [found] at same
        cases same
        exact number
      few := by
        rw [minimumSize] at room
        omega }
    serves := by
      intro sbn enc found
      obtain ⟨m, block, -, symbols⟩ := described _ _ found
      exact ⟨m, ⟨cached _ _ found, block, symbols⟩, block⟩
    count := count
    nonempty := by
      rw [← blocks]
      exact packetizes.blocks _ _ nonempty wide
    symbols_pos := by
      intro enc member
      rw [← blocks] at member
      exact packetizes.symbols_pos _ _ wide enc member
    packet_size := by
      intro enc member esi small sbn
      rw [← blocks] at member
      rw [packet_size packetizes wide member small]
      exact packet_length config.codec
    symbolSize := rfl
    plan := rfl
    total_lt := total
    total := rfl
    payload := ⟨p, built⟩
    segment := valid }

/-! ## One frame -/

def atFrame (s : SenderSession) (sent emitted : Nat) : SenderSession :=
  { s with
    sourceCursor := min sent s.sourcePlan.length
    repairCursor := sent - s.sourcePlan.length
    frameIndex := BitVec.ofNat 64 emitted }

def repairId (m : ObjectMeta) (cursor : Nat) : Option (U32 × U32) :=
  (m.blocks[cursor % m.blocks.length]?).bind fun b =>
    let esi := b.numSourceSymbols.toNat + cursor / m.blocks.length
    if esi < 2 ^ 24 then some (b.sbn, BitVec.ofNat 32 esi) else none

def dataId (s : SenderSession) (sent : Nat) : Option (U32 × U32) :=
  if sent < s.sourcePlan.length then s.sourcePlan[sent]?
  else repairId s.objectMeta (sent - s.sourcePlan.length)

theorem repairSymbolId_eq {m : ObjectMeta} (nonempty : 0 < m.blocks.length) (cursor : Nat) :
    repairSymbolId m.blocks cursor = .ok (repairId m cursor) := by
  have inside : cursor % m.blocks.length < m.blocks.length := Nat.mod_lt _ nonempty
  have found : m.blocks[cursor % m.blocks.length]? = some m.blocks[cursor % m.blocks.length] :=
    List.getElem?_eq_getElem inside
  unfold repairSymbolId
  simp only [bind, Except.bind, pure, Except.pure, index_of_lt inside, repairId, found,
    Option.bind_some]
  generalize m.blocks[cursor % m.blocks.length] = b
  by_cases wide : 2 ^ 32 ≤ cursor / m.blocks.length
  · rw [if_pos wide, if_neg (by omega)]
  rw [if_neg wide]
  by_cases over32 : b.numSourceSymbols.toNat + cursor / m.blocks.length < 2 ^ 32
  · simp only [checkedAddU32_of_lt over32]
  · rw [checkedAddU32, if_neg over32]
    simp only
    rw [if_neg (by omega)]

theorem repairId_some {m : ObjectMeta} {cursor : Nat} {id : U32 × U32} (h : repairId m cursor = some id) :
    ∃ b, m.blocks[cursor % m.blocks.length]? = some b ∧ id.1 = b.sbn ∧
      id.2.toNat = b.numSourceSymbols.toNat + cursor / m.blocks.length ∧ id.2.toNat < 2 ^ 24 := by
  simp only [repairId, Option.bind_eq_some_iff, Option.ite_none_right_eq_some] at h
  obtain ⟨b, found, small, same⟩ := h
  cases same
  have value : (BitVec.ofNat 32 (b.numSourceSymbols.toNat + cursor / m.blocks.length)).toNat =
      b.numSourceSymbols.toNat + cursor / m.blocks.length := by
    rw [BitVec.toNat_ofNat]
    exact Nat.mod_eq_of_lt (by omega)
  exact ⟨b, found, rfl, value, by rw [value]; exact small⟩

variable {s : SenderSession} {encs : List SourceBlockEncoder}

theorem Ready.blocks_pos (ready : Ready s encs) : 0 < s.objectMeta.blocks.length := by
  rw [ready.count]
  exact List.length_pos_iff.mpr ready.nonempty

theorem Ready.plan_nonempty (ready : Ready s encs) : s.sourcePlan ≠ [] := by
  have first := List.getElem?_eq_getElem (List.length_pos_iff.mpr ready.nonempty)
  obtain ⟨m, serves, found⟩ := ready.serves 0 _ first
  have positive := ready.symbols_pos _ (List.mem_of_getElem? first)
  rw [← serves.symbols] at positive
  rw [ready.plan]
  apply List.ne_nil_of_mem
  exact ((sourceOrder ready.numbered).complete 0 0).mpr ⟨m, found, positive⟩

theorem Ready.plan_length (ready : Ready s encs) : s.sourcePlan.length = s.objectMeta.totalSymbols := by
  rw [ready.plan]
  exact (sourceOrder ready.numbered).length

theorem Ready.dataId_some (ready : Ready s encs) {sent : Nat} {id : U32 × U32}
    (h : dataId s sent = some id) :
    ∃ enc, encs[id.1.toNat]? = some enc ∧
      ((sent < s.sourcePlan.length ∧ id.2.toNat < enc.sourcePackets.length) ∨
        (s.sourcePlan.length ≤ sent ∧ enc.sourcePackets.length ≤ id.2.toNat ∧
          id.2.toNat < 2 ^ 24)) := by
  have encoderOf : ∀ {b}, s.objectMeta.blocks[id.1.toNat]? = some b →
      ∃ enc, encs[id.1.toNat]? = some enc ∧
        b.numSourceSymbols.toNat = enc.sourcePackets.length := by
    intro b found
    obtain ⟨inside, -⟩ := List.getElem?_eq_some_iff.mp found
    rw [ready.count] at inside
    have located := List.getElem?_eq_getElem inside
    obtain ⟨m, serves, same⟩ := ready.serves id.1 _ located
    rw [found] at same
    cases same
    exact ⟨_, located, serves.symbols⟩
  unfold dataId at h
  split at h
  · rename_i early
    rw [ready.plan] at h
    obtain ⟨b, found, inside⟩ := ((sourceOrder ready.numbered).complete id.1 id.2).mp
      (List.mem_of_getElem? h)
    obtain ⟨enc, located, symbols⟩ := encoderOf found
    exact ⟨enc, located, Or.inl ⟨early, by rwa [← symbols]⟩⟩
  · rename_i late
    obtain ⟨b, found, sbn, esi, small⟩ := repairId_some h
    have number := ready.numbered.sbn_toNat found
    rw [← number, ← sbn] at found
    obtain ⟨enc, located, symbols⟩ := encoderOf found
    have beyond : enc.sourcePackets.length ≤ id.2.toNat := by
      rw [esi, symbols]
      exact Nat.le_add_right ..
    exact ⟨enc, located, Or.inr ⟨not_lt.mp late, beyond, small⟩⟩

theorem nextSymbolId_some (ready : Ready s encs) {sent emitted : Nat} {id : U32 × U32}
    (due : dataId s sent = some id) :
    (atFrame s sent emitted).nextSymbolId = .ok (atFrame s (sent + 1) emitted, .ok id) := by
  have blocks := ready.blocks_pos
  unfold SenderSession.nextSymbolId
  unfold dataId at due
  split at due
  · rename_i early
    have place : min sent s.sourcePlan.length = sent := min_eq_left early.le
    have next : min (sent + 1) s.sourcePlan.length = sent + 1 := min_eq_left early
    have none : sent + 1 - s.sourcePlan.length = sent - s.sourcePlan.length := by omega
    simp only [atFrame, place, next, none, if_pos early, index_of_getElem? due, bind, Except.bind,
      pure, Except.pure]
  · rename_i late
    have place : min sent s.sourcePlan.length = s.sourcePlan.length := min_eq_right (not_lt.mp late)
    have next : min (sent + 1) s.sourcePlan.length = s.sourcePlan.length := by omega
    have cursor : sent + 1 - s.sourcePlan.length = sent - s.sourcePlan.length + 1 := by omega
    obtain ⟨b, found, -, esi, small⟩ := repairId_some due
    have few := ready.numbered.few
    have bounded : sent - s.sourcePlan.length + 1 < 2 ^ 64 := by
      have quotient : (sent - s.sourcePlan.length) / s.objectMeta.blocks.length < 2 ^ 24 := by omega
      rw [Nat.div_lt_iff_lt_mul blocks] at quotient
      omega
    simp only [atFrame, place, next, cursor, lt_irrefl, if_false, repairSymbolId_eq blocks, due,
      checkedAdd_of_lt bounded, bind, Except.bind, pure, Except.pure]

theorem nextSymbolId_none (ready : Ready s encs) {sent emitted : Nat} (spent : dataId s sent = none) :
    (atFrame s sent emitted).nextSymbolId =
      .ok (atFrame s sent emitted, .error .symbolIdSpaceExhausted) := by
  unfold SenderSession.nextSymbolId
  unfold dataId at spent
  split at spent
  · rename_i early
    rw [List.getElem?_eq_getElem early] at spent
    cases spent
  · rename_i late
    have place : min sent s.sourcePlan.length = s.sourcePlan.length := min_eq_right (not_lt.mp late)
    simp only [atFrame, place, lt_irrefl, if_false, repairSymbolId_eq ready.blocks_pos, spent, bind,
      Except.bind, pure, Except.pure]

theorem Ready.fetchSymbol (ready : Ready s encs) {sbn esi : U32} {enc : SourceBlockEncoder}
    (found : encs[sbn.toNat]? = some enc)
    (small : esi.toNat < enc.sourcePackets.length ∨
      enc.sourcePackets.length ≤ esi.toNat ∧ esi.toNat < 2 ^ 24) :
    s.fetchSymbol sbn esi = .ok (.ok (.new sbn esi (enc.packet (sbn.setWidth 8) esi).data)) := by
  obtain ⟨m, serves, located⟩ := ready.serves sbn enc found
  unfold SenderSession.fetchSymbol
  simp only [index_of_getElem? located, bind, Except.bind, pure, Except.pure, serves.symbols]
  by_cases source : esi.toNat < enc.sourcePackets.length
  · simp only [if_pos source, serves.sourceSymbol source, SourceBlockEncoder.packet, dif_pos source]
  · have later : enc.sourcePackets.length ≤ esi.toNat ∧ esi.toNat < 2 ^ 24 := by omega
    have offset : (esi - m.numSourceSymbols).toNat = esi.toNat - enc.sourcePackets.length := by
      rw [BitVec.toNat_sub_of_le (by rw [BitVec.le_def, serves.symbols]; exact later.1),
        serves.symbols]
    have whole : enc.sourcePackets.length + (esi.toNat - enc.sourcePackets.length) = esi.toNat := by
      omega
    rw [if_neg source, serves.repairSymbols (by omega)]
    simp only [offset, whole, SourceBlockEncoder.packet, dif_neg source, BitVec.ofNat_toNat,
      BitVec.setWidth_eq]
    rfl

def descriptorAt (s : SenderSession) (emitted : Nat) : Prop :=
  emitted % 2 ^ 64 % max s.descriptorInterval.toNat 1 = 0

instance (s : SenderSession) (emitted : Nat) : Decidable (descriptorAt s emitted) :=
  inferInstanceAs (Decidable (_ = _))

theorem descriptorAt_zero (s : SenderSession) : descriptorAt s 0 := by
  unfold descriptorAt
  exact Nat.zero_mod _

theorem descriptorDue_atFrame (s : SenderSession) (sent emitted : Nat) :
    (atFrame s sent emitted).descriptorDue = true ↔ descriptorAt s emitted := by
  simp only [SenderSession.descriptorDue, atFrame, descriptorAt, BitVec.toNat_ofNat, decide_eq_true_eq]
  constructor
  · rintro (first | ⟨-, multiple⟩)
    · have value := congrArg BitVec.toNat first
      rw [BitVec.toNat_ofNat] at value
      rw [value]
      exact Nat.zero_mod _
    · exact multiple
  · intro multiple
    by_cases first : emitted % 2 ^ 64 = 0
    · left
      apply BitVec.eq_of_toNat_eq
      rw [BitVec.toNat_ofNat, first]
      rfl
    · exact Or.inr ⟨Nat.pos_of_ne_zero first, multiple⟩

def descriptorOf (crc32 : Bytes → U32) (s : SenderSession) (payload : Bytes) (emitted : Nat)
    (nowMs : U64) : Frame :=
  Frame.build crc32 s.sessionId flagDescriptor 0 0 (BitVec.ofNat 32 s.objectMeta.blocks.length)
    s.totalK s.objectMeta.symbolSize (BitVec.ofNat 64 (emitted + 1)) nowMs payload

def dataOf (crc32 : Bytes → U32) (s : SenderSession) (enc : SourceBlockEncoder) (id : U32 × U32)
    (emitted : Nat) (nowMs : U64) : Frame :=
  Frame.build crc32 s.sessionId 0 id.1 id.2 (BitVec.ofNat 32 s.objectMeta.blocks.length) s.totalK
    s.config.codec.symbolSize (BitVec.ofNat 64 (emitted + 1)) nowMs
    (enc.packet (id.1.setWidth 8) id.2).data

theorem frameIndex_succ (s : SenderSession) (sent emitted : Nat) :
    { atFrame s sent emitted with frameIndex := (atFrame s sent emitted).frameIndex + 1 } =
      atFrame s sent (emitted + 1) := by
  simp only [atFrame, BitVec.ofNat_add]
  rfl

theorem Ready.descriptorFrame (ready : Ready s encs) {payload : Bytes} {nowMs : U64}
    (built : Descriptor.buildPayloadInner s.objectMeta s.fileMeta s.segmentMeta = .ok payload)
    (sent emitted : Nat) :
    (atFrame s sent (emitted + 1)).descriptorFrame crc32 nowMs =
      .ok (.ok (descriptorOf crc32 s payload emitted nowMs)) := by
  have total : sumU32 (s.objectMeta.blocks.map fun b => b.numSourceSymbols.toNat) =
      .ok s.objectMeta.totalSymbols := sumU32_of_lt ready.total_lt
  have counted := ready.total
  unfold SenderSession.descriptorFrame
  simp only [atFrame]
  cases segmented : s.segmentMeta with
  | none =>
      rw [segmented] at built
      simp only [Descriptor.buildFrame, Descriptor.buildPayload, built, total, bind, Except.bind, pure,
        Except.pure, descriptorOf, counted]
  | some segment =>
      rw [segmented] at built
      simp only [Descriptor.buildSegmentFrame, Descriptor.buildSegmentPayload,
        ready.segment segment segmented, built, total, bind, Except.bind, pure, Except.pure,
        descriptorOf, counted]

theorem nextFrame_descriptor (ready : Ready s encs) {payload : Bytes} {sent emitted : Nat} {nowMs : U64}
    (built : Descriptor.buildPayloadInner s.objectMeta s.fileMeta s.segmentMeta = .ok payload)
    (due : descriptorAt s emitted) :
    (atFrame s sent emitted).nextFrame crc32 nowMs =
      .ok (atFrame s sent (emitted + 1), .ok (descriptorOf crc32 s payload emitted nowMs)) := by
  have plan : (atFrame s sent emitted).sourcePlan ≠ [] := ready.plan_nonempty
  unfold SenderSession.nextFrame
  simp only [if_neg plan, if_pos ((descriptorDue_atFrame s sent emitted).mpr due), frameIndex_succ,
    ready.descriptorFrame built, bind, Except.bind, pure, Except.pure]

theorem nextFrame_data (ready : Ready s encs) {sent emitted : Nat} {nowMs : U64} {id : U32 × U32}
    {enc : SourceBlockEncoder} (due : ¬ descriptorAt s emitted) (next : dataId s sent = some id)
    (found : encs[id.1.toNat]? = some enc) :
    (atFrame s sent emitted).nextFrame crc32 nowMs =
      .ok (atFrame s (sent + 1) (emitted + 1), .ok (dataOf crc32 s enc id emitted nowMs)) := by
  have plan : (atFrame s sent emitted).sourcePlan ≠ [] := ready.plan_nonempty
  have fetched : (atFrame s (sent + 1) emitted).fetchSymbol id.1 id.2 =
      .ok (.ok (.new id.1 id.2 (enc.packet (id.1.setWidth 8) id.2).data)) := by
    obtain ⟨enc', found', range⟩ := ready.dataId_some next
    rw [found] at found'
    cases found'
    exact ready.fetchSymbol found (by omega)
  unfold SenderSession.nextFrame
  simp only [if_neg plan, if_neg (mt (descriptorDue_atFrame s sent emitted).mp due),
    nextSymbolId_some ready next, fetched, frameIndex_succ, bind, Except.bind, pure, Except.pure]
  simp only [atFrame, Symbol.new, dataOf, BitVec.ofNat_add]
  rfl

theorem nextFrame_spent (ready : Ready s encs) {sent emitted : Nat} {nowMs : U64}
    (due : ¬ descriptorAt s emitted) (spent : dataId s sent = none) :
    (atFrame s sent emitted).nextFrame crc32 nowMs =
      .ok (atFrame s sent emitted, .error .symbolIdSpaceExhausted) := by
  have plan : (atFrame s sent emitted).sourcePlan ≠ [] := ready.plan_nonempty
  unfold SenderSession.nextFrame
  simp only [if_neg plan, if_neg (mt (descriptorDue_atFrame s sent emitted).mp due),
    nextSymbolId_none ready spent, bind, Except.bind, pure, Except.pure]

/-! ## A run -/

def isData (f : Frame) : Bool := decide (f.header.flags &&& flagDescriptor = 0)

def frameId (f : Frame) : U32 × U32 := (f.header.sbn, f.header.esi)

def dataIds (frames : List Frame) : List (U32 × U32) := (frames.filter isData).map frameId

/-- The frames that a session at `(sent, emitted)` emits one after the other. -/
inductive Emits (crc32 : Bytes → U32) (s : SenderSession) (encs : List SourceBlockEncoder) :
    Nat → Nat → List Frame → Prop
  | stop {sent emitted : Nat} : Emits crc32 s encs sent emitted []
  | descriptor {sent emitted : Nat} {payload : Bytes} {frames : List Frame} (nowMs : U64)
      (due : descriptorAt s emitted)
      (built : Descriptor.buildPayloadInner s.objectMeta s.fileMeta s.segmentMeta = .ok payload)
      (later : Emits crc32 s encs sent (emitted + 1) frames) :
      Emits crc32 s encs sent emitted (descriptorOf crc32 s payload emitted nowMs :: frames)
  | data {sent emitted : Nat} {id : U32 × U32} {enc : SourceBlockEncoder} {frames : List Frame}
      (nowMs : U64) (due : ¬ descriptorAt s emitted) (next : dataId s sent = some id)
      (found : encs[id.1.toNat]? = some enc)
      (later : Emits crc32 s encs (sent + 1) (emitted + 1) frames) :
      Emits crc32 s encs sent emitted (dataOf crc32 s enc id emitted nowMs :: frames)

theorem Emits.shape {sent emitted : Nat} {frames : List Frame} (emits : Emits crc32 s encs sent emitted frames)
    {f : Frame} (member : f ∈ frames) :
    (∃ payload n nowMs,
        Descriptor.buildPayloadInner s.objectMeta s.fileMeta s.segmentMeta = .ok payload ∧
        f = descriptorOf crc32 s payload n nowMs) ∨
      ∃ sent id enc n nowMs, dataId s sent = some id ∧ encs[id.1.toNat]? = some enc ∧
        f = dataOf crc32 s enc id n nowMs := by
  induction emits with
  | stop => cases member
  | descriptor nowMs due built later ih =>
      rcases List.mem_cons.mp member with rfl | member
      · exact Or.inl ⟨_, _, nowMs, built, rfl⟩
      · exact ih member
  | data nowMs due next found later ih =>
      rcases List.mem_cons.mp member with rfl | member
      · exact Or.inr ⟨_, _, _, _, nowMs, next, found, rfl⟩
      · exact ih member

/-- A data frame is due, and no symbol is left for it. -/
def Spent (s : SenderSession) (sent emitted : Nat) : Prop :=
  ¬ descriptorAt s emitted ∧ dataId s sent = none

theorem isData_descriptorOf (payload : Bytes) (emitted : Nat) (nowMs : U64) :
    isData (descriptorOf crc32 s payload emitted nowMs) = false := by
  apply decide_eq_false
  change ¬ flagDescriptor &&& flagDescriptor = 0
  decide

theorem isData_dataOf (enc : SourceBlockEncoder) (id : U32 × U32) (emitted : Nat) (nowMs : U64) :
    isData (dataOf crc32 s enc id emitted nowMs) = true := by
  apply decide_eq_true
  change (0 : U8) &&& flagDescriptor = 0
  decide

@[simp] theorem dataIds_descriptorOf (payload : Bytes) (emitted : Nat) (nowMs : U64)
    (frames : List Frame) :
    dataIds (descriptorOf crc32 s payload emitted nowMs :: frames) = dataIds frames := by
  rw [dataIds, List.filter_cons_of_neg (by rw [isData_descriptorOf]; decide), dataIds]

@[simp] theorem dataIds_dataOf (enc : SourceBlockEncoder) (id : U32 × U32) (emitted : Nat) (nowMs : U64)
    (frames : List Frame) :
    dataIds (dataOf crc32 s enc id emitted nowMs :: frames) = id :: dataIds frames := by
  rw [dataIds, List.filter_cons_of_pos (isData_dataOf ..), List.map_cons, dataIds]
  rfl

theorem run_spent (ready : Ready s encs) {sent emitted : Nat} (spent : Spent s sent emitted)
    (clock : List U64) :
    (atFrame s sent emitted).run crc32 clock = .ok (atFrame s sent emitted,
      List.replicate clock.length (.error .symbolIdSpaceExhausted)) := by
  induction clock with
  | nil => rfl
  | cons nowMs later ih =>
      rw [SenderSession.run, nextFrame_spent ready spent.1 spent.2]
      simp only [bind, Except.bind, ih, pure, Except.pure]
      rfl

theorem run_atFrame (ready : Ready s encs) (sent emitted : Nat) (clock : List U64) :
    ∃ frames rest, (atFrame s sent emitted).run crc32 clock =
        .ok (atFrame s (sent + (dataIds frames).length) (emitted + frames.length),
          frames.map .ok ++ List.replicate rest (.error .symbolIdSpaceExhausted)) ∧
      frames.length + rest = clock.length ∧ Emits crc32 s encs sent emitted frames ∧
      (0 < rest → Spent s (sent + (dataIds frames).length) (emitted + frames.length)) := by
  induction clock generalizing sent emitted with
  | nil => exact ⟨[], 0, rfl, rfl, .stop, fun h => absurd h (lt_irrefl 0)⟩
  | cons nowMs later ih =>
      by_cases due : descriptorAt s emitted
      · obtain ⟨payload, built⟩ := ready.payload
        obtain ⟨frames, rest, run, count, emits, spent⟩ := ih sent (emitted + 1)
        have place : emitted + (frames.length + 1) = emitted + 1 + frames.length := by omega
        refine ⟨_, rest, ?_, ?_, .descriptor nowMs due built emits, ?_⟩
        · rw [SenderSession.run, nextFrame_descriptor ready built due]
          simp only [bind, Except.bind, run, pure, Except.pure, dataIds_descriptorOf,
            List.length_cons, place, List.map_cons, List.cons_append]
        · simp only [List.length_cons]
          omega
        · rw [dataIds_descriptorOf, List.length_cons, place]
          exact spent
      cases next : dataId s sent with
      | none =>
          refine ⟨[], later.length + 1, run_spent ready ⟨due, next⟩ (nowMs :: later), ?_, .stop,
            fun _ => ⟨due, next⟩⟩
          simp
      | some id =>
          obtain ⟨enc, found, -⟩ := ready.dataId_some next
          obtain ⟨frames, rest, run, count, emits, spent⟩ := ih (sent + 1) (emitted + 1)
          have place : emitted + (frames.length + 1) = emitted + 1 + frames.length := by omega
          have counted : sent + ((dataIds frames).length + 1) =
              sent + 1 + (dataIds frames).length := by omega
          refine ⟨_, rest, ?_, ?_, .data nowMs due next found emits, ?_⟩
          · rw [SenderSession.run, nextFrame_data ready due next found]
            simp only [bind, Except.bind, run, pure, Except.pure, dataIds_dataOf, List.length_cons,
              place, counted, List.map_cons, List.cons_append]
          · simp only [List.length_cons]
            omega
          · rw [dataIds_dataOf, List.length_cons, List.length_cons, place, counted]
            exact spent

theorem mem_frames_of_drawn {frames : List Frame} {rest : Nat} {reason : TransferEngine.Error} {f : Frame}
    (member : Except.ok f ∈ frames.map .ok ++ List.replicate rest (.error reason)) : f ∈ frames := by
  rcases List.mem_append.mp member with found | found
  · obtain ⟨g, inFrames, same⟩ := List.mem_map.mp found
    cases same
    exact inFrames
  · cases List.eq_of_mem_replicate found

theorem filterMap_drawn (frames : List Frame) (rest : Nat) (reason : TransferEngine.Error) :
    (frames.map Except.ok ++ List.replicate rest (Except.error reason)).filterMap Except.toOption =
      frames := by
  rw [List.filterMap_append, List.filterMap_map, List.filterMap_replicate_of_none rfl, List.append_nil]
  exact List.filterMap_some

/-! ## Where the data frames are -/

def beatOf (s : SenderSession) : Nat := max s.descriptorInterval.toNat 1

theorem beatOf_pos (s : SenderSession) : 0 < beatOf s := lt_of_lt_of_le Nat.one_pos (le_max_right ..)

theorem beatOf_setDescriptorInterval (s : SenderSession) (interval : U32) :
    beatOf (s.setDescriptorInterval interval) = max interval.toNat 1 := by
  unfold beatOf SenderSession.setDescriptorInterval
  by_cases zero : interval = 0
  · rw [if_pos zero, zero]
    rfl
  · rw [if_neg zero]

theorem Emits.isData_iff {sent emitted : Nat} {frames : List Frame}
    (emits : Emits crc32 s encs sent emitted frames) {i : Nat} {f : Frame} (found : frames[i]? = some f) :
    isData f = false ↔ descriptorAt s (emitted + i) := by
  induction emits generalizing i with
  | stop => cases found
  | descriptor nowMs due built later ih =>
      cases i with
      | zero =>
          cases found
          exact iff_of_true (isData_descriptorOf ..) due
      | succ i =>
          rw [Nat.add_comm i 1, ← Nat.add_assoc]
          exact ih found
  | data nowMs due next located later ih =>
      cases i with
      | zero =>
          cases found
          exact iff_of_false (by rw [isData_dataOf]; exact Bool.noConfusion) due
      | succ i =>
          rw [Nat.add_comm i 1, ← Nat.add_assoc]
          exact ih found

theorem Emits.dataId_at {sent emitted : Nat} {frames : List Frame}
    (emits : Emits crc32 s encs sent emitted frames) {i : Nat} {f : Frame} (found : frames[i]? = some f)
    (data : isData f = true) :
    dataId s (sent + (dataIds (frames.take i)).length) = some (frameId f) := by
  induction emits generalizing i with
  | stop => cases found
  | descriptor nowMs due built later ih =>
      cases i with
      | zero =>
          cases found
          rw [isData_descriptorOf] at data
          cases data
      | succ i =>
          rw [List.take_succ_cons, dataIds_descriptorOf]
          exact ih found
  | data nowMs due next located later ih =>
      cases i with
      | zero =>
          cases found
          exact next
      | succ i =>
          rw [List.take_succ_cons, dataIds_dataOf, List.length_cons, Nat.add_comm (dataIds _).length 1,
            ← Nat.add_assoc]
          exact ih found

theorem dataIds_append (first second : List Frame) :
    dataIds (first ++ second) = dataIds first ++ dataIds second := by
  rw [dataIds, List.filter_append, List.map_append, dataIds, dataIds]

theorem Emits.count_data {frames : List Frame} (emits : Emits crc32 s encs 0 0 frames) {n : Nat}
    (inside : n ≤ frames.length) (narrow : n ≤ 2 ^ 64) :
    (dataIds (frames.take n)).length + (beats (beatOf s) 0 n).length = n := by
  induction n with
  | zero => rfl
  | succ n ih =>
      have earlier := ih (Nat.le_of_succ_le inside) (Nat.le_of_succ_le narrow)
      have found := List.getElem?_eq_getElem (Nat.lt_of_succ_le inside)
      have marked := emits.isData_iff found
      rw [Nat.zero_add, descriptorAt, Nat.mod_eq_of_lt (Nat.lt_of_succ_le narrow)] at marked
      rw [List.take_add_one, found, Option.toList_some, dataIds_append, List.length_append, beats_succ,
        List.length_append]
      by_cases due : n % beatOf s = 0
      · have silent : dataIds [frames[n]] = [] := by
          rw [dataIds, List.filter_cons_of_neg (by rw [marked.mpr due]; exact Bool.noConfusion)]
          rfl
        rw [silent, if_pos due, List.length_nil, List.length_singleton]
        omega
      · have carried : (dataIds [frames[n]]).length = 1 := by
          have data : isData frames[n] = true := eq_true_of_ne_false (mt marked.mp due)
          rw [dataIds, List.filter_cons_of_pos data]
          rfl
        rw [carried, if_neg due, List.length_nil]
        omega

theorem Emits.first_round {frames : List Frame} (emits : Emits crc32 s encs 0 0 frames) {j : Nat}
    (planned : j < s.sourcePlan.length) (early : j + 1 < beatOf s) (narrow : j + 1 < 2 ^ 64)
    (inside : j + 1 < frames.length) :
    ∃ f, frames[j + 1]? = some f ∧ isData f = true ∧ s.sourcePlan[j]? = some (frameId f) := by
  have found := List.getElem?_eq_getElem inside
  have data : isData frames[j + 1] = true := by
    refine eq_true_of_ne_false fun descriptor => Nat.succ_ne_zero j ?_
    have due := (emits.isData_iff found).mp descriptor
    rw [descriptorAt, Nat.zero_add, Nat.mod_eq_of_lt narrow] at due
    exact (Nat.mod_eq_of_lt early).symm.trans due
  have counted := emits.count_data inside.le narrow.le
  rw [length_beats_zero (beatOf_pos s), Nat.div_eq_of_lt early, Nat.mod_eq_of_lt early,
    if_pos (Nat.succ_pos j)] at counted
  have carried := emits.dataId_at found data
  rw [Nat.zero_add, show (dataIds (frames.take (j + 1))).length = j by omega, dataId,
    if_pos planned] at carried
  exact ⟨_, found, data, carried⟩

end AirFerry.Proof
