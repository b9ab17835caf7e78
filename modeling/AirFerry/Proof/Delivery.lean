import Mathlib.Data.List.TakeWhile
import AirFerry.Proof.Buffering
import AirFerry.Proof.Receivable

/-!
# Frames of one sender

A receiver that only takes frames of one session, in any order and any number of times, holds symbols
of that session's block encoders and nothing else.
-/

namespace AirFerry.Proof
open Library Library.Incremental QrProtocol RaptorqCore TransferEngine ReceiverSession

variable {E : Env} {s : SenderSession} {encs : List SourceBlockEncoder} {info : DescriptorInfo}

/-- A frame that `next_frame` returns in some run from the start of the session. -/
def Drawn (crc32 : Bytes → U32) (s : SenderSession) (f : Frame) : Prop :=
  ∃ clock s' outs, s.run crc32 clock = .ok (s', outs) ∧ .ok f ∈ outs

structure Broadcast (E : Env) (s : SenderSession) (encs : List SourceBlockEncoder)
    (info : DescriptorInfo) : Prop where
  ready : Ready s encs
  start : s = atFrame s 0 0
  object : info.objectMeta = s.objectMeta
  valid : ValidDescriptor E.raptorq s.sessionId info
  read : ∀ p, Descriptor.buildPayloadInner s.objectMeta s.fileMeta s.segmentMeta = .ok p →
    Descriptor.parsePayload p = .ok (some info)

def Genuine (encs : List SourceBlockEncoder) (x : Symbol) : Prop :=
  ∃ enc, encs[x.id.sbn.toNat]? = some enc ∧ x.id.esi.toNat < 2 ^ 24 ∧
    x.data = (enc.packet (x.id.sbn.setWidth 8) x.id.esi).data

theorem Broadcast.symbols_le (b : Broadcast E s encs info) {sbn : U32} {enc : SourceBlockEncoder}
    (found : encs[sbn.toNat]? = some enc) : enc.sourcePackets.length ≤ maxSourceSymbolsPerBlock := by
  obtain ⟨m, serves, located⟩ := b.ready.serves sbn enc found
  have valid := b.valid.objectMeta
  rw [b.object] at valid
  rw [← serves.symbols]
  exact (valid.block _ _ located).symbols_le

theorem Genuine.fits (b : Broadcast E s encs info) {x : Symbol} (genuine : Genuine encs x) :
    Fits info.objectMeta x := by
  obtain ⟨enc, found, small, data⟩ := genuine
  refine ⟨?_, small, ?_⟩
  · rw [b.object, b.ready.count]
    exact (List.getElem?_eq_some_iff.mp found).1
  · rw [b.object, b.ready.symbolSize, data]
    exact b.ready.packet_size enc (List.mem_of_getElem? found) _ (Or.inr small) _

inductive Carries (E : Env) (s : SenderSession) (encs : List SourceBlockEncoder) (info : DescriptorInfo)
    (f : Frame) : Prop
  | descriptor (flagged : f.header.flags &&& flagDescriptor ≠ 0)
      (valid : validDescriptor E.raptorq f = some info)
  | symbol (data : f.header.flags &&& flagDescriptor = 0) (genuine : Genuine encs (symbolOf f))
      (size : f.header.symbolSize = s.config.codec.symbolSize)

theorem Drawn.carries (b : Broadcast E s encs info) {f : Frame} (drawn : Drawn E.crc32 s f) :
    f.header.sessionId = s.sessionId ∧ Carries E s encs info f := by
  obtain ⟨clock, s', outs, run, member⟩ := drawn
  rw [b.start] at run
  obtain ⟨frames, rest, emitted, -, emits, -⟩ := @run_atFrame E.crc32 s encs b.ready 0 0 clock
  rw [run] at emitted
  cases emitted
  rcases emits.shape (mem_frames_of_drawn member) with ⟨p, n, nowMs, built, rfl⟩ | ⟨sent, id, enc, n, nowMs, next, found, rfl⟩
  · refine ⟨rfl, .descriptor ?_ ?_⟩
    · change ¬ flagDescriptor &&& flagDescriptor = 0
      decide
    · refine validDescriptor_of_valid (b.read p built) ?_ b.valid
      rw [b.object]
      exact b.ready.geometry p n nowMs
  · refine ⟨rfl, .symbol ?_ ⟨enc, found, ?_, rfl⟩ rfl⟩
    · change (0 : U8) &&& flagDescriptor = 0
      decide
    · obtain ⟨enc', found', source | repair⟩ := b.ready.dataId_some next
      · have few := b.symbols_le found'
        simp only [maxSourceSymbolsPerBlock] at few
        change id.2.toNat < _
        omega
      · exact repair.2.2

def Stage.Faithful (encs : List SourceBlockEncoder) (info : DescriptorInfo) : Stage → Prop
  | .waiting cache => ∀ key data, cache.lookup key = some data →
      Genuine encs (Symbol.new key.1 key.2 data)
  | .recovering m described log => m = info.objectMeta ∧
      described = some (info.fileMeta, info.segment) ∧ ∀ x ∈ log, Genuine encs x

def Stage.Confirmed : Stage → Prop
  | .waiting _ => False
  | .recovering .. => True

theorem lookup_bufferFrame_some {cache : Cache} {f : Frame} {key : U32 × U32} {data : Bytes}
    (found : (bufferFrame cache f).lookup key = some data) :
    cache.lookup key = some data ∨ (key = coordinate f ∧ data = f.payload) := by
  unfold bufferFrame at found
  split at found
  · exact Or.inl found
  split at found
  · exact Or.inl found
  · by_cases same : key = coordinate f
    · subst same
      have stored : (cache.insert (coordinate f) f.payload).lookup (coordinate f) = some data := found
      rw [AList.lookup_insert, Option.some.injEq] at stored
      exact Or.inr ⟨rfl, stored.symm⟩
    · have stored : (cache.insert (coordinate f) f.payload).lookup key = some data := found
      rw [AList.lookup_insert_ne same] at stored
      exact Or.inl stored

theorem mem_offer {R : Raptorq} {m : ObjectMeta} {log : List Symbol} {x y : Symbol}
    (member : y ∈ offer R m log x) : y ∈ log ∨ y = x := by
  unfold offer at member
  split at member
  · rcases List.mem_append.mp member with old | new
    · exact Or.inl old
    · exact Or.inr (List.mem_singleton.mp new)
  · exact Or.inl member

theorem Stage.faithful_next {stage : Stage} (faithful : stage.Faithful encs info) {f : Frame}
    (own : f.header.sessionId = s.sessionId) (carries : Carries E s encs info f) :
    (stage.next E s.sessionId f).Faithful encs info ∧
      ((stage.next E s.sessionId f).Confirmed ↔ stage.Confirmed ∨ isData f = false) := by
  cases carries with
  | descriptor flagged valid =>
      have kind : isData f = false := decide_eq_false flagged
      unfold Stage.next
      rw [if_neg (not_not.mpr own), if_pos flagged, valid]
      cases stage with
      | waiting cache =>
          refine ⟨⟨rfl, rfl, fun x member => ?_⟩, ⟨fun _ => Or.inr kind, fun _ => trivial⟩⟩
          exact faithful _ _ (mem_replayed.mp member).2
      | recovering m described log =>
          obtain ⟨same, rfl, genuine⟩ := faithful
          exact ⟨⟨same, rfl, genuine⟩, ⟨fun _ => Or.inr kind, fun _ => trivial⟩⟩
  | symbol data genuine size =>
      have kind : ¬ isData f = false := by
        rw [Bool.not_eq_false]
        exact decide_eq_true data
      rw [Stage.next_data own data, or_iff_left kind]
      cases stage with
      | waiting cache =>
          refine ⟨fun key payload found => ?_, Iff.rfl⟩
          rcases lookup_bufferFrame_some found with old | ⟨rfl, rfl⟩
          · exact faithful key payload old
          · exact genuine
      | recovering m described log =>
          refine ⟨⟨faithful.1, faithful.2.1, fun x member => ?_⟩, Iff.rfl⟩
          rcases mem_offer member with old | rfl
          · exact faithful.2.2 x old
          · exact genuine

theorem Stage.faithful_run (frames : List (WireFrame E.crc32)) (stage : Stage)
    (faithful : stage.Faithful encs info)
    (carries : ∀ f ∈ frames, f.1.header.sessionId = s.sessionId ∧ Carries E s encs info f.1) :
    (stage.run E s.sessionId frames).Faithful encs info ∧
      ((stage.run E s.sessionId frames).Confirmed ↔
        stage.Confirmed ∨ ∃ f ∈ frames, isData f.1 = false) := by
  induction frames generalizing stage with
  | nil =>
      refine ⟨faithful, ?_⟩
      simp only [List.not_mem_nil, false_and, exists_false, or_false]
      rfl
  | cons f rest ih =>
      obtain ⟨here, later⟩ := List.forall_mem_cons.mp carries
      obtain ⟨kept, first⟩ := Stage.faithful_next faithful here.1 here.2
      obtain ⟨final, confirmed⟩ := ih _ kept later
      refine ⟨final, ?_⟩
      rw [List.exists_mem_cons_iff, ← or_assoc, ← first]
      exact confirmed

theorem Stage.faithful_empty : Stage.Faithful encs info (.waiting ∅) := by
  intro key data found
  cases found

theorem Matches.isMetaConfirmed_iff {sessionId : U128} {r : ReceiverSession E} {stage : Stage}
    (matched : Matches sessionId r stage) : r.isMetaConfirmed = true ↔ stage.Confirmed := by
  cases stage with
  | waiting cache =>
      rw [ReceiverSession.isMetaConfirmed, matched.2.metaConfirmed]
      exact ⟨fun h => absurd h (by decide), False.elim⟩
  | recovering m described log => exact ⟨fun _ => trivial, fun _ => matched.2.1⟩

section
variable {R : Raptorq} {padded : Bytes} {config : Config} {log : List Symbol}

theorem packetsOf_genuine (genuine : ∀ x ∈ log, Genuine encs x) {i : Nat} (small : i < 2 ^ 32)
    {enc : SourceBlockEncoder} (found : encs[i]? = some enc) :
    ∀ p ∈ packetsOf (BitVec.ofNat 32 i) log,
      ∃ esi : U32, esi.toNat < 2 ^ 24 ∧ p = enc.packet ((BitVec.ofNat 32 i).setWidth 8) esi := by
  intro p member
  obtain ⟨x, filtered, rfl⟩ := List.mem_map.mp member
  obtain ⟨inLog, same⟩ := List.mem_filter.mp filtered
  have same : x.id.sbn = BitVec.ofNat 32 i := of_decide_eq_true same
  obtain ⟨enc', found', range, data⟩ := genuine x inLog
  rw [same, toNat_ofNat_of_lt small, found, Option.some.injEq] at found'
  subst found'
  refine ⟨x.id.esi, range, ?_⟩
  rw [same] at data
  rw [Symbol.packet, same, data]
  rfl

theorem decoded_block (defaults : R.WithDefaults) (decodes : R.DecodesBlocks)
    (fits : Encodable padded (Encoder.packetMtu config))
    (genuine : ∀ x ∈ log, Genuine (R.blockEncoders padded (Encoder.packetMtu config)) x) {i : Nat}
    {enc : SourceBlockEncoder} (found : (R.blockEncoders padded (Encoder.packetMtu config))[i]? = some enc) :
    ∃ b, (encodedMeta R padded config).blocks[i]? = some b ∧ ∀ bytes,
      (Decoder.blockOf R (encodedMeta R padded config) log b).decoded = some bytes →
        bytes = enc.block := by
  have partition := defaults.partition padded _ fits
  have located : (blockSizes padded (Encoder.packetMtu config))[i]? =
      some enc.sourcePackets.length := by
    rw [← partition, List.getElem?_map, found]
    rfl
  have few := fits.blocks
  have inside := (List.getElem?_eq_some_iff.mp located).1
  refine ⟨blockMeta config i enc.sourcePackets.length, ?_, fun bytes answer => ?_⟩
  · rw [encodedMeta_blocks defaults fits, List.getElem?_mapIdx, located]
    rfl
  · have length : (blockMeta config i enc.sourcePackets.length).blockLength =
        BitVec.ofNat 64 (enc.sourcePackets.length * symbolLength (Encoder.packetMtu config)) := by
      rw [symbolLength_packetMtu]
      rfl
    have number : ((BitVec.ofNat 32 i).setWidth 8 : U8) = BitVec.ofNat 8 i := by
      apply BitVec.eq_of_toNat_eq
      simp only [BitVec.toNat_setWidth, BitVec.toNat_ofNat]
      omega
    have packets := packetsOf_genuine genuine (by omega) found
    rw [number] at packets
    refine decodes padded _ fits i enc found _ packets bytes ?_
    rw [← encodedMeta_oti defaults fits, ← length, ← number]
    exact answer

theorem assemble_genuine (defaults : R.WithDefaults) (splits : R.SplitsData)
    (decodes : R.DecodesBlocks) (fits : Encodable padded (Encoder.packetMtu config))
    (whole : padded.length % config.symbolSize.toNat = 0) (small : padded.length < 2 ^ 64)
    (genuine : ∀ x ∈ log, Genuine (R.blockEncoders padded (Encoder.packetMtu config)) x)
    (complete : (Decoder.ofLog R (encodedMeta R padded config) log).isComplete = true) :
    (Decoder.ofLog R (encodedMeta R padded config) log).assemble = some padded := by
  have blocks : (encodedMeta R padded config).blocks.map (fun b =>
      (Decoder.blockOf R (encodedMeta R padded config) log b).decoded.getD []) =
        (R.blockEncoders padded (Encoder.packetMtu config)).map SourceBlockEncoder.block := by
    apply List.ext_getElem?
    intro i
    rw [List.getElem?_map, List.getElem?_map]
    cases found : (R.blockEncoders padded (Encoder.packetMtu config))[i]? with
    | none =>
        rw [List.getElem?_eq_none_iff] at found
        have short : (encodedMeta R padded config).blocks[i]? = none :=
          List.getElem?_eq_none ((ObjectMeta.length_blocks_fromEncoder ..).trans_le found)
        rw [short]
        rfl
    | some enc =>
        obtain ⟨b, located, exact⟩ := decoded_block defaults decodes fits genuine found
        obtain ⟨bytes, answer⟩ := Option.isSome_iff_exists.mp
          (Decoder.isComplete_ofLog.mp complete b (List.mem_of_getElem? located))
        rw [located, Option.map_some, Option.map_some, answer, Option.getD_some, exact bytes answer]
  have content := splits padded _ fits
    (by rw [symbolLength_packetMtu]; exact whole)
  have transfer := @encodedMeta_transferLength R padded config small
  rw [Decoder.assemble, if_pos complete, Decoder.ofLog, List.flatMap_def, List.map_map]
  simp only [Function.comp_def]
  rw [blocks, content, transfer, List.take_length]

end

def Settled (R : Raptorq) (m : ObjectMeta) (log : List Symbol) (id : SymbolId) : Prop :=
  (Decoder.ofLog R m log).isComplete = true ∨ ∃ x ∈ log, x.id = id

theorem Settled.grow {R : Raptorq} {m : ObjectMeta} {log later : List Symbol} {id : SymbolId}
    (settled : Settled R m log id) (grown : log <+: later) : Settled R m later id := by
  rcases settled with complete | ⟨x, member, same⟩
  · left
    rw [Decoder.isComplete_of_prefix grown complete]
    exact complete
  · exact Or.inr ⟨x, grown.subset member, same⟩

theorem settled_offer {R : Raptorq} {m : ObjectMeta} {log : List Symbol} {x : Symbol} (fits : Fits m x) :
    Settled R m (offer R m log x) x.id := by
  by_cases accepts : Accepts R m log x
  · exact Or.inr ⟨x, by rw [offer, if_pos accepts]; simp, rfl⟩
  · rw [offer, if_neg accepts]
    by_cases complete : (Decoder.ofLog R m log).isComplete = true
    · exact Or.inl complete
    · right
      have old : x.id.esi ∈ receivedOf log x.id.sbn := by
        by_contra fresh
        exact accepts ⟨fits, Bool.not_eq_true _ ▸ complete, fresh⟩
      obtain ⟨y, member, same⟩ := List.mem_map.mp (mem_receivedOf.mp old)
      exact ⟨y, member, same⟩

theorem Stage.settled_run {sessionId : U128} {m : ObjectMeta}
    {described : Option (FileMeta × Option SegmentMeta)} {log later : List Symbol}
    {frames : List (WireFrame E.crc32)}
    (run : Stage.run E sessionId frames (.recovering m described log) = .recovering m described later)
    {f : WireFrame E.crc32} (member : f ∈ frames) (own : f.1.header.sessionId = sessionId)
    (data : f.1.header.flags &&& flagDescriptor = 0) (fits : Fits m (symbolOf f.1)) :
    Settled E.raptorq m later (symbolOf f.1).id := by
  obtain ⟨pre, post, rfl⟩ := List.append_of_mem member
  obtain ⟨d₁, log₁, first, -, -⟩ := Stage.recovering_run sessionId m described pre log
  obtain ⟨d₂, log₂, last, grown, -⟩ := Stage.recovering_run sessionId m d₁ post
    (offer E.raptorq m log₁ (symbolOf f.1))
  have step := Stage.next_data (E := E) own data (.recovering m d₁ log₁)
  have whole : Stage.run E sessionId (pre ++ f :: post) (.recovering m described log) =
      .recovering m d₂ log₂ := by
    rw [Stage.run_append, first, ← last]
    exact congrArg (Stage.run E sessionId post) step
  rw [whole] at run
  cases run
  exact (settled_offer fits).grow grown

theorem exists_first {α : Type} (p : α → Bool) {xs : List α} (some : ∃ x ∈ xs, p x = false) :
    ∃ x later, xs = xs.takeWhile p ++ x :: later ∧ p x = false := by
  induction xs with
  | nil =>
      obtain ⟨x, member, -⟩ := some
      cases member
  | cons y rest ih =>
      by_cases passes : p y = true
      · obtain ⟨x, member, fails⟩ := some
        have inside : x ∈ rest := by
          rcases List.mem_cons.mp member with rfl | inside
          · rw [passes] at fails
            cases fails
          · exact inside
        obtain ⟨z, later, split, last⟩ := ih ⟨x, inside, fails⟩
        refine ⟨z, later, ?_, last⟩
        rw [List.takeWhile_cons_of_pos passes, List.cons_append, ← split]
      · refine ⟨y, rest, ?_, by simpa using passes⟩
        rw [List.takeWhile_cons_of_neg passes]
        rfl

theorem Carries.of_data {f : Frame} (carries : Carries E s encs info f) (data : isData f = true) :
    f.header.flags &&& flagDescriptor = 0 ∧ Genuine encs (symbolOf f) ∧
      f.header.symbolSize = s.config.codec.symbolSize := by
  cases carries with
  | descriptor flagged valid => exact absurd (of_decide_eq_true data) flagged
  | symbol plain genuine size => exact ⟨plain, genuine, size⟩

theorem Carries.of_descriptor {f : Frame} (carries : Carries E s encs info f)
    (kind : isData f = false) :
    f.header.flags &&& flagDescriptor ≠ 0 ∧ validDescriptor E.raptorq f = some info := by
  cases carries with
  | descriptor flagged valid => exact ⟨flagged, valid⟩
  | symbol plain genuine size => exact absurd plain (of_decide_eq_false kind)

theorem Broadcast.settles (b : Broadcast E s encs info) {frames : List (WireFrame E.crc32)}
    (carries : ∀ f ∈ frames, f.1.header.sessionId = s.sessionId ∧ Carries E s encs info f.1)
    (descriptor : ∃ f ∈ frames, isData f.1 = false)
    (room : ((frames.takeWhile fun f => isData f.1).map fun f => coordinate f.1).toFinset.card ≤
      preMetaCacheMax s.config.codec.symbolSize) :
    ∃ log, (Stage.waiting ∅).run E s.sessionId frames =
        .recovering info.objectMeta (some (info.fileMeta, info.segment)) log ∧
      (∀ x ∈ log, Fits info.objectMeta x) ∧
      ∀ f ∈ frames, isData f.1 = true → Settled E.raptorq info.objectMeta log (symbolOf f.1).id := by
  obtain ⟨d, post, split, kind⟩ := exists_first (fun f : WireFrame E.crc32 => isData f.1) descriptor
  have early : ∀ f ∈ frames.takeWhile (fun f => isData f.1), f ∈ frames ∧ isData f.1 = true :=
    fun f member => ⟨(List.takeWhile_prefix _).subset member,
      @List.mem_takeWhile_imp _ (fun f => isData f.1) frames f member⟩
  generalize frames.takeWhile (fun f => isData f.1) = pre at *
  have inFrames : d ∈ frames := by rw [split]; simp
  obtain ⟨own, shape⟩ := carries d inFrames
  obtain ⟨flagged, valid⟩ := shape.of_descriptor kind
  -- the cache, the descriptor, and what follows it
  have buffers : Buffers E s.sessionId pre := by
    apply buffers_of_few
    · exact fun f member => (carries f (early f member).1).1
    · exact fun f member => ((carries f (early f member).1).2.of_data (early f member).2).1
    · intro f member
      rw [((carries f (early f member).1).2.of_data (early f member).2).2.2]
      exact room
  obtain ⟨cache, buffered, lookups⟩ := buffered_run buffers
  obtain ⟨described, log, last, grown, kept⟩ := @Stage.recovering_run E s.sessionId info.objectMeta
    (some (info.fileMeta, info.segment)) post (replayed info.objectMeta (E.drain cache.entries))
  rw [kept (Option.some_ne_none _)] at last
  have run : (Stage.waiting ∅).run E s.sessionId frames =
      .recovering info.objectMeta (some (info.fileMeta, info.segment)) log := by
    rw [split, Stage.run_append, buffered, ← last]
    exact congrArg (Stage.run E s.sessionId post) (Stage.next_descriptor own flagged valid cache)
  have faithful : Stage.Faithful encs info (.recovering info.objectMeta
      (some (info.fileMeta, info.segment)) log) := by
    rw [← run]
    exact (Stage.faithful_run frames _ Stage.faithful_empty carries).1
  refine ⟨log, run, fun x member => (faithful.2.2 x member).fits b, ?_⟩
  intro f member data
  obtain ⟨mine, shape⟩ := carries f member
  obtain ⟨plain, genuine, -⟩ := shape.of_data data
  rw [split] at member
  rcases List.mem_append.mp member with before | after
  · have replay := exists_replayed lookups before (genuine.fits b) fun first found => by
      have chosen := early first (List.mem_of_find?_eq_some found)
      exact (((carries first chosen.1).2.of_data chosen.2).2.1.fits b).size
    exact Settled.grow (Or.inr replay) grown
  · rcases List.mem_cons.mp after with rfl | after
    · rw [data] at kind
      cases kind
    · exact Stage.settled_run last after mine plain (genuine.fits b)

/-- Once the descriptor and every source symbol are in, the object is there, unless the cap of the
cache refused some of them before the descriptor. -/
theorem Broadcast.completes (b : Broadcast E s encs info) (source : E.raptorq.DecodesFromSource)
    {frames : List (WireFrame E.crc32)}
    (carries : ∀ f ∈ frames, f.1.header.sessionId = s.sessionId ∧ Carries E s encs info f.1)
    (descriptor : ∃ f ∈ frames, isData f.1 = false)
    (sources : ∀ id ∈ s.sourcePlan, ∃ f ∈ frames, isData f.1 = true ∧ frameId f.1 = id)
    (room : ((frames.takeWhile fun f => isData f.1).map fun f => coordinate f.1).toFinset.card ≤
      preMetaCacheMax s.config.codec.symbolSize) :
    ∃ log, (Stage.waiting ∅).run E s.sessionId frames =
        .recovering info.objectMeta (some (info.fileMeta, info.segment)) log ∧
      (Decoder.ofLog E.raptorq info.objectMeta log).isComplete = true := by
  obtain ⟨log, run, fits, settled⟩ := b.settles carries descriptor room
  refine ⟨log, run, ?_⟩
  have order := (sourceOrder b.ready.numbered).complete
  rw [← b.ready.plan] at order
  by_contra incomplete
  apply incomplete
  rw [Decoder.isComplete_ofLog]
  intro block member
  apply Decoder.decoded_of_source b.valid.objectMeta source fits member
  intro esi small
  have located := b.valid.objectMeta.position member
  rw [b.object] at located
  have value : (BitVec.ofNat 32 esi).toNat = esi :=
    toNat_ofNat_of_lt (small.trans block.numSourceSymbols.isLt)
  obtain ⟨f, inside, data, same⟩ := sources (block.sbn, BitVec.ofNat 32 esi)
    ((order _ _).mpr ⟨block, located, by rw [value]; exact small⟩)
  rcases settled f inside data with done | ⟨x, held, id⟩
  · exact absurd done incomplete
  · refine ⟨x, held, ?_, ?_⟩
    · rw [id]
      exact congrArg Prod.fst same
    · rw [id, ← value]
      exact congrArg (fun pair : U32 × U32 => pair.2.toNat) same

end AirFerry.Proof
