import AirFerry.Proof.Assembly
import AirFerry.Proof.HostSender
import AirFerry.Proof.Receivable

/-!
# Segments of one sender

The segments that a host cuts fit together up to the filename: a descriptor keeps as much of it as
fits beside its block table, and the table of the last segment may be shorter than the others'.
-/

namespace AirFerry.Proof
open Library Library.Pieces QrProtocol RaptorqCore TransferEngine TransferAssembler

section
variable {sha256 : Bytes → Octets 32} {calls : Nat → Call} {n i : Nat} {seen : List Nat}
  {a : TransferAssembler}

def holding (a : TransferAssembler) (calls : Nat → Call) (n : Nat) (seen : List Nat) :
    TransferAssembler :=
  { a with
    segments := slots (fun i => (calls i).bytes) n seen
    segmentMeta := slots (fun i => (calls i).seg) n seen
    receivedCount := (slots (fun i => (calls i).bytes) n seen).countP Option.isSome }

/-- `Ok(true)` for the first delivery of a segment, and `Ok(false)` for every other. -/
def deliveries : List Nat → List Nat → List (Except TransferEngine.Error Bool)
  | _, [] => []
  | seen, i :: later => .ok (decide (i ∉ seen)) :: deliveries (i :: seen) later

theorem addCall_new (inside : i < n) (place : (calls i).seg.segmentIndex.toNat = i)
    (accepts : (holding a calls n seen).Accepts sha256 (calls i).seg (calls i).fileMeta (calls i).bytes)
    (small : n < 2 ^ 32) (new : i ∉ seen) :
    addCall sha256 (holding a calls n seen) (calls i) =
      .ok (holding a calls n (i :: seen), .ok true) := by
  have empty : (slots (fun i => (calls i).bytes) n seen)[i]? = some none := by
    rw [getElem?_slots inside, if_neg new]
  have counted := countP_set empty (calls i).bytes
  have bytes := @set_slots _ (fun i => (calls i).bytes) n i seen inside
  have segs := @set_slots _ (fun i => (calls i).seg) n i seen inside
  rw [bytes] at counted
  have room : (slots (fun i => (calls i).bytes) n seen).countP Option.isSome + 1 < 2 ^ 32 := by
    have below := countP_lt_of_empty empty
    rw [length_slots] at below
    omega
  rw [addCall, addSegment_of_accepts accepts]
  unfold storeSegment
  simp only [holding, place, index_of_getElem? empty, addU32_of_lt room, bind, Except.bind, pure,
    Except.pure]
  rw [bytes, segs, counted]

theorem addCall_repeated (inside : i < n) (place : (calls i).seg.segmentIndex.toNat = i)
    (accepts : (holding a calls n seen).Accepts sha256 (calls i).seg (calls i).fileMeta (calls i).bytes)
    (old : i ∈ seen) :
    addCall sha256 (holding a calls n seen) (calls i) =
      .ok (holding a calls n (i :: seen), .ok false) := by
  have stored : (slots (fun i => (calls i).bytes) n seen)[i]? = some (some (calls i).bytes) := by
    rw [getElem?_slots inside, if_pos old]
  have described : (slots (fun i => (calls i).seg) n seen)[i]? = some (some (calls i).seg) := by
    rw [getElem?_slots inside, if_pos old]
  have kept : holding a calls n (i :: seen) = holding a calls n seen := by
    simp only [holding, slots_cons_of_mem old]
  rw [addCall, addSegment_of_accepts accepts, kept]
  unfold storeSegment
  simp only [holding, place, index_of_getElem? stored, index_of_getElem? described, bind, Except.bind,
    pure, Except.pure, ne_eq, not_true_eq_false, if_false]

theorem addCall_delivers (inside : i < n) (place : (calls i).seg.segmentIndex.toNat = i)
    (accepts : (holding a calls n seen).Accepts sha256 (calls i).seg (calls i).fileMeta (calls i).bytes)
    (small : n < 2 ^ 32) :
    addCall sha256 (holding a calls n seen) (calls i) =
      .ok (holding a calls n (i :: seen), .ok (decide (i ∉ seen))) := by
  by_cases old : i ∈ seen
  · rw [addCall_repeated inside place accepts old, decide_eq_false (not_not.mpr old)]
  · rw [addCall_new inside place accepts small old, decide_eq_true old]

theorem afterCalls_holding (place : ∀ i < n, (calls i).seg.segmentIndex.toNat = i)
    (accepts : ∀ i < n, ∀ seen, (holding a calls n seen).Accepts sha256 (calls i).seg
      (calls i).fileMeta (calls i).bytes)
    (small : n < 2 ^ 32) (order : List Nat) (inside : ∀ i ∈ order, i < n) (seen : List Nat) :
    afterCalls sha256 (holding a calls n seen) (order.map calls) =
      .ok (holding a calls n (order.reverse ++ seen), deliveries seen order) := by
  induction order generalizing seen with
  | nil => rfl
  | cons i later ih =>
      obtain ⟨here, rest⟩ := List.forall_mem_cons.mp inside
      have head := addCall_delivers here (place i here) (accepts i here seen) small
      have tail := ih rest (i :: seen)
      rw [List.reverse_cons, List.append_assoc]
      exact Run.run_cons head tail

end

structure FitTogether (sha256 : Bytes → Octets 32) (payload : Bytes) (n : Nat)
    (calls : Nat → Call) : Prop where
  small : payload.length ≤ maxInMemoryAssemblyBytes
  index : ∀ i < n, (calls i).seg.segmentIndex.toNat = i
  count : ∀ i < n, (calls i).seg.segmentCount.toNat = n
  range : ∀ i < n, InRange (calls i).seg (calls i).fileMeta (BitVec.ofNat 64 payload.length)
  root : ∀ i < n, ∀ j < n, (calls i).seg.rootSessionId = (calls j).seg.rootSessionId
  rootDigest : ∀ i < n, ∀ j < n, (calls i).seg.rootSha256 = (calls j).seg.rootSha256
  size : ∀ i < n, (calls i).bytes.length = (calls i).fileMeta.compressedSize.toNat
  digest : ∀ i < n, sha256 (calls i).bytes = (calls i).seg.rawSha256
  bytes : ∀ i < n, (calls i).bytes = piece segmentRawBytes payload i

/-- An assembler made from any of the descriptors takes any deliveries of the segments: the first of
each is new, and once all are in, the payload is back. -/
def AlwaysAssembles (sha256 : Bytes → Octets 32) (payload : Bytes) (n : Nat)
    (calls : Nat → Call) : Prop :=
  ∀ first < n, ∃ a, TransferAssembler.new (calls first).seg (calls first).fileMeta = .ok a ∧
    ∀ order : List Nat, (∀ i ∈ order, i < n) →
      ∃ b, afterCalls sha256 a (order.map calls) = .ok (b, deliveries [] order) ∧
        (b.isComplete = true ↔ ∀ i < n, i ∈ order) ∧
        (b.isComplete = true → b.reassemble = some payload)

section
variable {sha256 : Bytes → Octets 32} {payload : Bytes} {calls : Nat → Call} {n first i : Nat}
  {seen : List Nat}

theorem FitTogether.length (fit : FitTogether sha256 payload n calls) :
    (BitVec.ofNat 64 payload.length).toNat = payload.length := by
  have small := fit.small
  simp only [maxInMemoryAssemblyBytes] at small
  exact toNat_ofNat_of_lt (by omega)

theorem FitTogether.new (fit : FitTogether sha256 payload n calls) (inside : first < n) :
    TransferAssembler.new (calls first).seg (calls first).fileMeta =
      .ok (holding (empty (calls first).seg (calls first).fileMeta) calls n []) := by
  have range := fit.range first inside
  refine new_ok_iff.mpr ⟨by rw [range.root]; exact range, ?_⟩
  simp only [holding, slots_nil, empty, fit.count first inside, List.countP_replicate, Option.isSome_none,
    Bool.false_eq_true, if_false]

theorem FitTogether.accepts_iff (fit : FitTogether sha256 payload n calls) (start : first < n)
    (inside : i < n) :
    (holding (empty (calls first).seg (calls first).fileMeta) calls n seen).Accepts sha256 (calls i).seg
        (calls i).fileMeta (calls i).bytes ↔
      (calls i).fileMeta.filename = (calls first).fileMeta.filename := by
  constructor
  · exact fun accepts => accepts.filename
  · intro filename
    have range : InRange (calls i).seg (calls i).fileMeta (calls first).seg.rootOriginalSize := by
      rw [(fit.range first start).root]
      exact fit.range i inside
    have count : (calls i).seg.segmentCount = (calls first).seg.segmentCount := by
      apply BitVec.eq_of_toNat_eq
      rw [fit.count i inside, fit.count first start]
    exact ⟨fit.root i inside first start, count, fit.rootDigest i inside first start, filename, range,
      fit.size i inside, fit.digest i inside⟩

theorem FitTogether.complete_iff (fit : FitTogether sha256 payload n calls) (start : first < n) :
    (holding (empty (calls first).seg (calls first).fileMeta) calls n seen).isComplete = true ↔
      ∀ i < n, i ∈ seen := by
  have total : (empty (calls first).seg (calls first).fileMeta).totalSegments.toNat = n :=
    fit.count first start
  rw [isComplete, holding, decide_eq_true_iff, total, countP_slots_eq_iff]

theorem FitTogether.reassemble (fit : FitTogether sha256 payload n calls) (start : first < n)
    (full : ∀ i < n, i ∈ seen) :
    (holding (empty (calls first).seg (calls first).fileMeta) calls n seen).reassemble = some payload := by
  have range := fit.range first start
  have complete := (fit.complete_iff start).mpr full
  have root : (holding (empty (calls first).seg (calls first).fileMeta) calls n
      seen).rootCompressedSize = BitVec.ofNat 64 payload.length := range.root
  have enough : payload.length ≤ n * segmentRawBytes := by
    obtain ⟨positive, count⟩ := expectedSegmentCount_eq_some range.count_pos range.expected
    rw [fit.length] at positive count
    rw [fit.count first start] at count
    simp only [segmentRawBytes, maxObjectBytes, maxSymbolSize] at count ⊢
    omega
  have pieces : (List.range n).map (fun i => (calls i).bytes) =
      (List.range n).map (piece segmentRawBytes payload) :=
    List.map_congr_left fun i inside => fit.bytes i (List.mem_range.mp inside)
  have collected : collect (holding (empty (calls first).seg (calls first).fileMeta) calls n
      seen).segments = some ((List.range n).map (piece segmentRawBytes payload)) := by
    rw [← pieces]
    exact collect_slots full
  have small := fit.small
  rw [← fit.length] at small
  unfold TransferAssembler.reassemble
  rw [if_neg (not_not.mpr complete), root, if_neg (not_lt.mpr small), collected]
  simp only [flatten_pieces_of_le enough]
  rw [if_neg (not_not.mpr fit.length.symm)]

theorem FitTogether.assembles_iff (fit : FitTogether sha256 payload n calls) :
    AlwaysAssembles sha256 payload n calls ↔
      ∀ i < n, ∀ j < n, (calls i).fileMeta.filename = (calls j).fileMeta.filename := by
  constructor
  · intro assembles i inside j start
    obtain ⟨a, made, every⟩ := assembles j start
    obtain ⟨b, run, -⟩ := every [i] (by simpa using inside)
    rw [fit.new start] at made
    cases made
    obtain ⟨c, result, rest, step, last, outs⟩ := Run.run_cons_inv run
    cases last
    by_contra differs
    have named := @FitTogether.accepts_iff sha256 payload calls n j i [] fit start inside
    obtain ⟨e, refused⟩ := addSegment_of_refused (mt named.mp differs)
    have refused : addCall sha256 _ (calls i) = .ok (_, .error e) := refused
    rw [refused] at step
    cases step
    cases outs
  · intro filenames first start
    refine ⟨_, fit.new start, fun order inside => ?_⟩
    have small : n < 2 ^ 32 := by
      have wide := (calls first).seg.segmentCount.isLt
      rwa [fit.count first start] at wide
    have run := afterCalls_holding fit.index (fun i inside seen =>
      (fit.accepts_iff start inside).mpr (filenames i inside first start)) small order inside []
    rw [List.append_nil] at run
    have complete := @FitTogether.complete_iff sha256 payload calls n first order.reverse fit start
    refine ⟨_, run, ?_, fun done => fit.reassemble start (complete.mp done)⟩
    rw [complete]
    simp only [List.mem_reverse]

end

theorem Emits.descriptor_payload {crc32 : Bytes → U32} {s : SenderSession}
    {encs : List SourceBlockEncoder} {sent emitted : Nat} {frames : List Frame} {f : Frame}
    (emits : Emits crc32 s encs sent emitted frames) (member : f ∈ frames) (kind : isData f = false) :
    Descriptor.buildPayloadInner s.objectMeta s.fileMeta s.segmentMeta = .ok f.payload := by
  rcases emits.shape member with ⟨payload, n, nowMs, built, rfl⟩ | ⟨_, id, enc, n, nowMs, -, -, rfl⟩
  · exact built
  · rw [isData_dataOf] at kind
    cases kind

theorem Emits.starts {crc32 : Bytes → U32} {s : SenderSession} {encs : List SourceBlockEncoder}
    {frames : List Frame} (emits : Emits crc32 s encs 0 0 frames) (some : frames ≠ []) :
    ∃ f later, frames = f :: later ∧ isData f = false := by
  cases emits with
  | stop => exact absurd rfl some
  | descriptor nowMs due built later => exact ⟨_, _, rfl, isData_descriptorOf ..⟩
  | data nowMs due next found later => exact absurd (descriptorAt_zero s) due

variable {E : Env} {c : CffiSender} {i : Nat}

/-- `parse_payload` reads this from every descriptor frame of segment `i`, and `next_frame` starts
with one. -/
def Announces (E : Env) (c : CffiSender) (i : Nat) (seg : SegmentMeta) (fileMeta : FileMeta) : Prop :=
  ∃ c', c.selectSegment E (BitVec.ofNat 32 i) = .ok (c', .ok ()) ∧
    ∀ clock, ∃ s outs, c'.session.run E.crc32 clock = .ok (s, outs) ∧
      (clock ≠ [] → ∃ f later, outs = .ok f :: later ∧ isData f = false) ∧
      ∀ f, .ok f ∈ outs → isData f = false →
        ∃ m, Descriptor.parsePayload f.payload = .ok (some ⟨m, fileMeta, some seg⟩)

def nameRoom (c : CffiSender) (i : Nat) : Nat :=
  min 255 (c.config.codec.symbolSize.toNat -
    minimumSize (blockCount c.config.codec.symbolSize.toNat (Host.slice c i).length) true)

def hostCall (E : Env) (c : CffiSender) (i : Nat) : Call where
  seg := Host.segment E c i
  fileMeta := carried (Host.fileMeta c i) (cutName c.filename (nameRoom c i))
  bytes := Host.slice c i

theorem Prepared.selects (defaults : E.raptorq.WithDefaults) (prepared : Prepared E c)
    (inside : i < c.segmentCount.toNat) :
    ∃ c', c.selectSegment E (BitVec.ofNat 32 i) = .ok (c', .ok ()) ∧
      openSession E.raptorq (Host.slice c i) (Host.childId c i) c.config (Host.fileMeta c i)
        (Host.segmentMeta E c i) = .ok (.ok c'.session) := by
  have opens := prepared.opens defaults inside
  have built := prepared.build_eq (E := E) inside
  rw [opens] at built
  unfold Host.build at built
  refine ⟨{ c with segmentIndex := BitVec.ofNat 32 i, session := _ }, ?_, opens⟩
  unfold CffiSender.selectSegment
  rw [prepared.index_toNat inside, if_neg (not_le.mpr inside)]
  simp only [built, bind, Except.bind, pure, Except.pure]
  rfl

theorem Prepared.announces (packetizes : E.raptorq.Packetizes) (defaults : E.raptorq.WithDefaults)
    (prepared : Prepared E c) (several : 1 < c.segmentCount.toNat) (inside : i < c.segmentCount.toNat) :
    Announces E c i (hostCall E c i).seg (hostCall E c i).fileMeta := by
  obtain ⟨c', selected, made⟩ := prepared.selects defaults inside
  have ready := ready_of_open packetizes made
  obtain ⟨-, -, file, segment, object⟩ := openSession_fields made
  have segmented : Host.segmentMeta E c i = some (Host.segment E c i) := if_neg (not_le.mpr several)
  have blocks := length_blocks_encodedMeta defaults (prepared.encodable inside)
  have upper := c.config.codec.legal.upper
  refine ⟨c', selected, fun clock => ?_⟩
  obtain ⟨frames, rest, run, count, emits, spent⟩ := @run_atFrame E.crc32 c'.session _ ready 0 0 clock
  rw [← openSession_atFrame made] at run
  refine ⟨_, _, run, fun nonempty => ?_, fun f member kind => ?_⟩
  · have drawn : frames ≠ [] := by
      rintro rfl
      have left : 0 < rest := by
        rw [List.length_nil, Nat.zero_add] at count
        rw [count]
        exact List.length_pos_iff.mpr nonempty
      exact (spent left).1 (descriptorAt_zero _)
    obtain ⟨f, later, rfl, kind⟩ := emits.starts drawn
    exact ⟨f, _, rfl, kind⟩
  · have built := emits.descriptor_payload (mem_frames_of_drawn member) kind
    rw [file, segment, object, segmented] at built
    have read := (buildPayloadInner_ok upper built).2.2
    refine ⟨encodedMeta E.raptorq (padToSymbols (Host.slice c i) c.config.codec) c.config.codec, ?_⟩
    rw [read, hostCall, nameRoom, ← blocks]
    rfl

theorem inRange_of_valid {seg : SegmentMeta} {child : U128} {fileMeta : FileMeta}
    (valid : seg.Valid child fileMeta) : InRange seg fileMeta seg.rootOriginalSize where
  count_pos := by
    have inside := valid.index_lt
    omega
  count_le := valid.count_le
  expected := by
    have positive := valid.root_pos
    have count := valid.count_eq
    unfold expectedSegmentCount
    rw [if_neg (by omega)]
    simp only
    rw [← count, if_pos seg.segmentCount.isLt, BitVec.ofNat_toNat, BitVec.setWidth_eq]
  index_lt := valid.index_lt
  root := rfl
  offset := valid.offset_eq
  length_le := valid.size_le

theorem Prepared.fitTogether (prepared : Prepared E c) (several : 1 < c.segmentCount.toNat) :
    FitTogether E.sha256 c.payload c.segmentCount.toNat (hostCall E c) where
  small := prepared.payload_le
  index := fun i inside => prepared.index_toNat inside
  count := fun i inside => rfl
  range := by
    intro i inside
    have valid := @Sliced.segment_valid E c i prepared.toSliced (not_le.mpr several) inside
    have range := inRange_of_valid valid
    exact ⟨range.count_pos, range.count_le, range.expected, range.index_lt, range.root, range.offset,
      range.length_le⟩
  root := fun i _ j _ => rfl
  rootDigest := fun i _ j _ => rfl
  size := by
    intro i inside
    have small := (prepared.length_slice inside).2.2.2
    have whole := segmentRawBytes_lt
    have length : (BitVec.ofNat 64 (Host.slice c i).length).toNat = (Host.slice c i).length :=
      toNat_ofNat_of_lt (by omega)
    exact length.symm
  digest := fun i _ => rfl
  bytes := fun i _ => rfl

theorem nameRoom_le {j : Nat} (shorter : (Host.slice c j).length ≤ (Host.slice c i).length) :
    nameRoom c i ≤ nameRoom c j := by
  have blocks := blockCount_mono c.config.codec.symbolSize.toNat shorter
  simp only [nameRoom, minimumSize]
  omega

theorem Sliced.nameRoom_bounds (sliced : Sliced c) (inside : i < c.segmentCount.toNat) :
    nameRoom c 0 ≤ nameRoom c i ∧ nameRoom c i ≤ nameRoom c (c.segmentCount.toNat - 1) ∧
      (i ≠ c.segmentCount.toNat - 1 → nameRoom c i = nameRoom c 0) := by
  have first := (sliced.length_slice (Nat.zero_lt_of_lt inside)).2.2
  have here := (sliced.length_slice inside).2.2
  have last := (sliced.length_slice (Nat.sub_one_lt_of_lt inside)).2.2
  rw [Nat.zero_mul] at first
  have order : i * segmentRawBytes ≤ (c.segmentCount.toNat - 1) * segmentRawBytes :=
    Nat.mul_le_mul_right _ (by omega)
  refine ⟨nameRoom_le (by omega), nameRoom_le (by omega), fun earlier => ?_⟩
  have next : (i + 1) * segmentRawBytes ≤ (c.segmentCount.toNat - 1) * segmentRawBytes :=
    Nat.mul_le_mul_right _ (by omega)
  have beyond := (sliced.length_slice (Nat.sub_one_lt_of_lt inside)).2.1
  rw [Nat.succ_mul] at next
  exact le_antisymm (nameRoom_le (by omega)) (nameRoom_le (by omega))

/-- Every prefix of the filename that fits beside the last block table fits beside the first. -/
def NameFits (c : CffiSender) : Prop :=
  ∀ part rest, c.filename = part ++ rest →
    (Utf8.encode part).length ≤ nameRoom c (c.segmentCount.toNat - 1) →
      (Utf8.encode part).length ≤ nameRoom c 0

theorem hostCall_filename (E : Env) (c : CffiSender) (i : Nat) :
    (hostCall E c i).fileMeta.filename = cutName c.filename (nameRoom c i) := rfl

theorem Prepared.nameFits_iff (prepared : Prepared E c) :
    NameFits c ↔ ∀ i < c.segmentCount.toNat, ∀ j < c.segmentCount.toNat,
      (hostCall E c i).fileMeta.filename = (hostCall E c j).fileMeta.filename := by
  have inside := prepared.index_lt
  have first : 0 < c.segmentCount.toNat := by omega
  have last : c.segmentCount.toNat - 1 < c.segmentCount.toNat := by omega
  have rooms := (prepared.nameRoom_bounds first).2.1
  have ends : NameFits c ↔ cutName c.filename (nameRoom c 0) =
      cutName c.filename (nameRoom c (c.segmentCount.toNat - 1)) := (cutName_eq_iff _ rooms).symm
  rw [ends]
  constructor
  · intro same
    have all : ∀ i < c.segmentCount.toNat,
        cutName c.filename (nameRoom c i) = cutName c.filename (nameRoom c 0) := by
      intro i inside
      by_cases final : i = c.segmentCount.toNat - 1
      · rw [final, same]
      · rw [(prepared.nameRoom_bounds inside).2.2 final]
    intro i here j there
    rw [hostCall_filename, hostCall_filename, all i here, all j there]
  · intro all
    have same := all 0 first _ last
    rwa [hostCall_filename, hostCall_filename] at same

theorem segments_assemble_iff (packetizes : E.raptorq.Packetizes) (defaults : E.raptorq.WithDefaults)
    (host : HostSender E c) (several : 1 < c.segmentCount.toNat) :
    ∃ calls : Nat → Call,
      (∀ i < c.segmentCount.toNat, Announces E c i (calls i).seg (calls i).fileMeta ∧
        (calls i).bytes = Host.slice c i) ∧
      (AlwaysAssembles E.sha256 c.payload c.segmentCount.toNat calls ↔ NameFits c) := by
  have prepared := host.prepared
  refine ⟨hostCall E c, fun i inside => ?_, ?_⟩
  · exact ⟨prepared.announces packetizes defaults several inside, rfl⟩
  · rw [prepared.nameFits_iff, (prepared.fitTogether several).assembles_iff]

def zeros : Bytes := List.replicate (segmentRawBytes + 1) 0

theorem length_zeros : zeros.length = segmentRawBytes + 1 := List.length_replicate ..

theorem new_zeros (filename : String) (symbolSize : U32) (codec : Config)
    (legal : Config.new symbolSize = .ok codec)
    (fits : minimumSize (blockCount codec.symbolSize.toNat segmentRawBytes) true ≤
      codec.symbolSize.toNat) :
    ∃ c, CffiSender.new reference zeros filename 0 20 symbolSize = .ok (.ok c) ∧
      c.segmentCount.toNat = 2 ∧ c.filename = filename ∧ c.config.codec = codec ∧
      (Host.slice c 0).length = segmentRawBytes ∧ (Host.slice c 1).length = 1 := by
  have size := length_zeros
  have nonempty : zeros ≠ [] := List.ne_nil_of_length_pos (by rw [size]; exact Nat.succ_pos _)
  have budget : segmentRawBytes + 1 ≤ maxOriginalBytes := by decide
  have first : (piece segmentRawBytes zeros 0).length = segmentRawBytes := by
    rw [length_piece, pieceLength, Nat.zero_mul, size]
    omega
  obtain ⟨c, made, payload, name, config⟩ := @new_of_fits reference
    Systematic.withDefaults zeros filename 0 20 _ _ nonempty (by rw [size]; exact budget) legal rfl
    (by rw [first]; exact fits)
  have count := (prepared_of_new made).1.count
  rw [payload, size, Nat.add_sub_cancel, Nat.div_self segmentRawBytes_pos] at count
  refine ⟨c, made, count, name, config, ?_, ?_⟩
  · rw [Host.slice, payload, first]
  · rw [Host.slice, payload, length_piece, pieceLength, Nat.one_mul, size, Nat.add_sub_cancel_left]
    exact min_eq_left segmentRawBytes_pos

theorem wide_legal : LegalSymbolSize 1024 := by decide

def wideCodec : Config := { symbolSize := 1024, legal := wide_legal }

def narrowCodec : Config := { symbolSize := 208, legal := by decide }

theorem segments_assemble_zeros :
    ∃ c, CffiSender.new reference zeros "a.txt" 0 20 1024 = .ok (.ok c) ∧ ∃ calls : Nat → Call,
      (∀ i < c.segmentCount.toNat, Announces reference c i (calls i).seg (calls i).fileMeta ∧
        (calls i).bytes = Host.slice c i) ∧
      (AlwaysAssembles reference.sha256 c.payload c.segmentCount.toNat calls ↔ NameFits c) := by
  obtain ⟨c, made, count, -⟩ :=
    new_zeros "a.txt" 1024 wideCodec rfl (by decide)
  exact ⟨c, made, segments_assemble_iff (E := reference) Systematic.packetizes Systematic.withDefaults
    (.new made) (by rw [count]; decide)⟩

theorem long_name_never_assembles :
    ∃ c, CffiSender.new reference zeros "abcdefghij" 0 20 208 = .ok (.ok c) ∧
      1 < c.segmentCount.toNat ∧ ∃ calls : Nat → Call,
        (∀ i < c.segmentCount.toNat, Announces reference c i (calls i).seg (calls i).fileMeta ∧
          (calls i).bytes = Host.slice c i) ∧
        ¬ AlwaysAssembles reference.sha256 c.payload c.segmentCount.toNat calls := by
  obtain ⟨c, made, count, name, config, full, last⟩ :=
    new_zeros "abcdefghij" 208 narrowCodec rfl (by decide)
  have several : 1 < c.segmentCount.toNat := by rw [count]; decide
  have prepared := (prepared_of_new made).1
  refine ⟨c, made, several, hostCall reference c, fun i inside => ⟨prepared.announces
    Systematic.packetizes Systematic.withDefaults several inside, rfl⟩, ?_⟩
  rw [(prepared.fitTogether several).assembles_iff, ← prepared.nameFits_iff]
  intro fits
  have small := fits "abcdefghij" "" (by rw [name]; rfl)
    (by rw [count, nameRoom, last, config]; decide)
  rw [nameRoom, full, config] at small
  exact absurd small (by decide)

end AirFerry.Proof
