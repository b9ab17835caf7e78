import AirFerry.Proof.Reference
import AirFerry.TransferEngine.Assembler

/-!
# Complete assemblers

An assembler is complete when every slot is taken. It can be reassembled exactly when what was
stored has the canonical lengths, which `add_segment` only bounds from above.
-/

namespace AirFerry.Proof
open Library Library.Pieces TransferEngine TransferAssembler

variable {sha256 : Bytes → Octets 32} {a : TransferAssembler}

structure Call where
  seg : SegmentMeta
  fileMeta : FileMeta
  bytes : Bytes

def addCall (sha256 : Bytes → Octets 32) (a : TransferAssembler) (call : Call) :
    Exec (TransferAssembler × Except Error Bool) :=
  a.addSegment sha256 call.seg call.fileMeta call.bytes

/-- `add_segment` puts the bytes of this call in its slot. -/
structure StoresSegment (sha256 : Bytes → Octets 32) (a : TransferAssembler) (call : Call) :
    Prop where
  accepts : a.Accepts sha256 call.seg call.fileMeta call.bytes
  empty : a.segments[call.seg.segmentIndex.toNat]? = some none

structure Sound (a : TransferAssembler) : Prop where
  count_pos : 0 < a.totalSegments.toNat
  expected : expectedSegmentCount a.rootCompressedSize = some a.totalSegments
  segments_length : a.segments.length = a.totalSegments.toNat
  meta_length : a.segmentMeta.length = a.totalSegments.toNat
  received : a.receivedCount = a.segments.countP Option.isSome
  stored_le : ∀ (i : Nat) bytes, a.segments[i]? = some (some bytes) →
    bytes.length ≤ pieceLength segmentRawBytes a.rootCompressedSize.toNat i

def CanonicalLengths (a : TransferAssembler) : Prop :=
  ∀ (i : Nat) bytes, a.segments[i]? = some (some bytes) →
    bytes.length = pieceLength segmentRawBytes a.rootCompressedSize.toNat i

theorem empty_unfilled {seg : SegmentMeta} {fileMeta : FileMeta} {i : Nat} {bytes : Bytes} :
    (empty seg fileMeta).segments[i]? ≠ some (some bytes) := by
  intro found
  cases List.eq_of_mem_replicate (List.mem_of_getElem? found)

theorem sound_empty {seg : SegmentMeta} {fileMeta : FileMeta}
    (range : InRange seg fileMeta seg.rootOriginalSize) : Sound (empty seg fileMeta) where
  count_pos := range.count_pos
  expected := range.expected
  segments_length := List.length_replicate ..
  meta_length := List.length_replicate ..
  received := by
    rw [empty, List.countP_replicate]
    rfl
  stored_le _ _ stored := absurd stored empty_unfilled

def stored (a : TransferAssembler) (call : Call) : TransferAssembler :=
  { a with
    segments := a.segments.set call.seg.segmentIndex.toNat (some call.bytes)
    segmentMeta := a.segmentMeta.set call.seg.segmentIndex.toNat (some call.seg)
    receivedCount := a.receivedCount + 1 }

theorem addCall_stores (sound : Sound a) {call : Call} (stores : StoresSegment sha256 a call) :
    addCall sha256 a call = .ok (stored a call, .ok true) := by
  have room : a.receivedCount + 1 < 2 ^ 32 := by
    have below := countP_lt_of_empty stores.empty
    have bound := a.totalSegments.isLt
    rw [← sound.received, sound.segments_length] at below
    omega
  rw [addCall, addSegment_of_accepts stores.accepts, storeSegment,
    index_of_getElem? stores.empty]
  simp only [bind, Except.bind, pure, Except.pure, addU32_of_lt room]
  rfl

theorem addCall_keeps (sound : Sound a) {call : Call} (refused : ¬ StoresSegment sha256 a call) :
    ∃ result, addCall sha256 a call = .ok (a, result) := by
  by_cases accepts : a.Accepts sha256 call.seg call.fileMeta call.bytes
  · have inside : call.seg.segmentIndex.toNat < a.totalSegments.toNat := by
      rw [← accepts.count]
      exact accepts.range.index_lt
    obtain ⟨slot, found⟩ : ∃ slot, a.segments[call.seg.segmentIndex.toNat]? = some slot :=
      ⟨_, List.getElem?_eq_getElem (by rw [sound.segments_length]; exact inside)⟩
    obtain ⟨known, described⟩ : ∃ known, a.segmentMeta[call.seg.segmentIndex.toNat]? = some known :=
      ⟨_, List.getElem?_eq_getElem (by rw [sound.meta_length]; exact inside)⟩
    cases slot with
    | none => exact absurd ⟨accepts, found⟩ refused
    | some bytes =>
        rw [addCall, addSegment_of_accepts accepts, storeSegment, index_of_getElem? found]
        simp only [bind, Except.bind, pure, Except.pure, index_of_getElem? described]
        split
        · exact ⟨_, rfl⟩
        · exact ⟨_, rfl⟩
  · obtain ⟨e, failed⟩ := addSegment_of_refused accepts
    exact ⟨.error e, failed⟩

theorem segments_stored {call : Call} (stores : StoresSegment sha256 a call) (i : Nat) :
    (stored a call).segments[i]? =
      if call.seg.segmentIndex.toNat = i then some (some call.bytes) else a.segments[i]? := by
  have inside := (List.getElem?_eq_some_iff.mp stores.empty).1
  show (a.segments.set _ _)[i]? = _
  rw [List.getElem?_set]
  by_cases same : call.seg.segmentIndex.toNat = i
  · rw [if_pos same, if_pos same, if_pos inside]
  · rw [if_neg same, if_neg same]

theorem stored_sound (sound : Sound a) {call : Call} (stores : StoresSegment sha256 a call) :
    Sound (stored a call) where
  count_pos := sound.count_pos
  expected := sound.expected
  segments_length := (List.length_set ..).trans sound.segments_length
  meta_length := (List.length_set ..).trans sound.meta_length
  received := by
    show a.receivedCount + 1 = _
    rw [sound.received]
    exact (countP_set stores.empty call.bytes).symm
  stored_le := by
    intro i bytes found
    rw [segments_stored stores] at found
    split at found
    · rename_i same
      cases found
      subst same
      rw [stores.accepts.size]
      exact stores.accepts.range.length_le
    · exact sound.stored_le i bytes found

theorem canonicalLengths_stored {call : Call} (stores : StoresSegment sha256 a call) :
    CanonicalLengths (stored a call) ↔ CanonicalLengths a ∧
      call.bytes.length = segmentRawLen a.rootCompressedSize call.seg.segmentIndex := by
  constructor
  · intro canonical
    constructor
    · intro i bytes found
      refine canonical i bytes ?_
      rw [segments_stored stores, if_neg]
      · exact found
      · rintro rfl
        rw [stores.empty] at found
        cases found
    · apply canonical
      rw [segments_stored stores, if_pos rfl]
  · rintro ⟨canonical, size⟩ i bytes found
    rw [segments_stored stores] at found
    split at found
    · rename_i same
      cases found
      subst same
      exact size
    · exact canonical i bytes found

/-- `reassemble` returns the stored segments in index order, as many bytes as the root has. -/
def Reassembles (a : TransferAssembler) : Prop :=
  ∃ slots : List Bytes, a.segments = slots.map some ∧ a.reassemble = some slots.flatten ∧
    slots.flatten.length = a.rootCompressedSize.toNat

theorem reassembles_iff (sound : Sound a) (complete : a.isComplete = true)
    (small : a.rootCompressedSize.toNat ≤ maxInMemoryAssemblyBytes) :
    Reassembles a ↔ CanonicalLengths a := by
  have full : a.segments.countP Option.isSome = a.segments.length := by
    rw [← sound.received, sound.segments_length]
    simpa [isComplete] using complete
  obtain ⟨slots, collected⟩ := exists_collect_of_full full
  have segments := collect_eq_some_iff.mp collected
  have count : slots.length = a.totalSegments.toNat := by
    rw [← sound.segments_length, segments, List.length_map]
  have found_iff : ∀ (i : Nat) bytes,
      a.segments[i]? = some (some bytes) ↔ slots[i]? = some bytes := by
    intro i bytes
    rw [segments, List.getElem?_map]
    simp
  have total : slots.flatten.length = a.rootCompressedSize.toNat ↔ CanonicalLengths a := by
    have pieces := sum_segmentRawLen sound.count_pos sound.expected
    rw [← count] at pieces
    have whole := length_flatten_eq_iff slots
      (pieceLength segmentRawBytes a.rootCompressedSize.toNat)
      fun i bytes found => sound.stored_le i bytes ((found_iff i bytes).mpr found)
    rw [pieces] at whole
    rw [whole]
    exact forall₂_congr fun i bytes => by rw [found_iff]
  have result : a.reassemble =
      if slots.flatten.length ≠ a.rootCompressedSize.toNat then none else some slots.flatten := by
    unfold reassemble
    rw [if_neg (not_not.mpr complete), if_neg (not_lt.mpr small), collected]
  rw [← total]
  constructor
  · rintro ⟨others, same, -, length⟩
    have equal : others = slots := by
      have both := same.symm.trans segments
      exact List.map_injective_iff.mpr (Option.some_injective _) both
    rw [← equal]
    exact length
  · intro length
    refine ⟨slots, segments, ?_, length⟩
    rw [result, if_neg (not_not.mpr length)]

def afterCalls (sha256 : Bytes → Octets 32) (a : TransferAssembler) (calls : List Call) :
    Exec (TransferAssembler × List (Except Error Bool)) :=
  Run.run (addCall sha256) a calls

theorem addCall_step (sound : Sound a) (call : Call) :
    ∃ b result, addCall sha256 a call = .ok (b, result) ∧ Sound b ∧
      b.rootCompressedSize = a.rootCompressedSize ∧
      (CanonicalLengths b ↔ CanonicalLengths a ∧ (StoresSegment sha256 a call →
        call.bytes.length = segmentRawLen a.rootCompressedSize call.seg.segmentIndex)) := by
  by_cases stores : StoresSegment sha256 a call
  · refine ⟨_, _, addCall_stores sound stores, stored_sound sound stores, rfl, ?_⟩
    rw [canonicalLengths_stored stores]
    exact and_congr_right fun _ => ⟨fun size _ => size, fun size => size stores⟩
  · obtain ⟨result, kept⟩ := addCall_keeps sound stores
    refine ⟨a, result, kept, sound, rfl, ?_⟩
    exact ⟨fun canonical => ⟨canonical, fun taken => absurd taken stores⟩, And.left⟩

/-- Every call so far that stored its bytes stored as many as its slot is long. -/
def StoresCanonical (sha256 : Bytes → Octets 32) (a : TransferAssembler) (calls : List Call) : Prop :=
  ∀ pre call, pre ++ [call] <+: calls → ∃ b outs, afterCalls sha256 a pre = .ok (b, outs) ∧
    (StoresSegment sha256 b call →
      call.bytes.length = segmentRawLen b.rootCompressedSize call.seg.segmentIndex)

theorem afterCalls_sound (sound : Sound a) (fresh : CanonicalLengths a) (calls : List Call) :
    ∃ b outs, afterCalls sha256 a calls = .ok (b, outs) ∧ Sound b ∧
      (CanonicalLengths b ↔ StoresCanonical sha256 a calls) := by
  induction calls using List.reverseRecOn with
  | nil =>
      refine ⟨a, [], rfl, sound, ⟨fun _ pre call inside => ?_, fun _ => fresh⟩⟩
      have short := inside.length_le
      simp at short
  | append_singleton calls call ih =>
      obtain ⟨b, outs, run, middle, canonical⟩ := ih
      obtain ⟨c, result, step, final, -, grown⟩ := addCall_step middle call
      refine ⟨c, outs ++ [result], Run.run_append run (Run.run_cons step rfl), final, ?_⟩
      rw [StoresCanonical, Run.forall_step_concat, grown, canonical, StoresCanonical]
      refine and_congr_right fun _ => ⟨fun size => ⟨b, outs, run, size⟩, ?_⟩
      rintro ⟨b', outs', run', size⟩
      rw [run] at run'
      cases run'
      exact size

theorem complete_reassembles_iff (sha256 : Bytes → Octets 32) (seg : SegmentMeta)
    (fileMeta : FileMeta) (a : TransferAssembler) (created : TransferAssembler.new seg fileMeta = .ok a)
    (calls : List Call) :
    ∃ b outs, afterCalls sha256 a calls = .ok (b, outs) ∧
      (b.isComplete = true → b.rootCompressedSize.toNat ≤ maxInMemoryAssemblyBytes →
        (Reassembles b ↔ StoresCanonical sha256 a calls)) := by
  obtain ⟨range, rfl⟩ := new_ok_iff.mp created
  have fresh : CanonicalLengths (empty seg fileMeta) := fun _ _ found => absurd found empty_unfilled
  obtain ⟨b, outs, run, sound, canonical⟩ := afterCalls_sound (sound_empty range) fresh calls
  refine ⟨b, outs, run, fun complete small => ?_⟩
  rw [reassembles_iff sound complete small, canonical]

def halfRoot : U64 := BitVec.ofNat 64 (segmentRawBytes + 1)

def halfBytes (i : Nat) : Bytes := List.replicate (pieceLength segmentRawBytes halfRoot.toNat i) 0

def halfSegment (i : Nat) : SegmentMeta where
  rootSessionId := 7
  segmentIndex := BitVec.ofNat 32 i
  segmentCount := 2
  originalOffset := BitVec.ofNat 64 (i * segmentRawBytes)
  rootOriginalSize := halfRoot
  rootSha256 := Digest.sha256 (halfBytes 0 ++ halfBytes 1)
  rawSha256 := Digest.sha256 (halfBytes i)

def halfFile (i : Nat) : FileMeta where
  filename := "a.txt"
  originalSize := halfRoot
  crc32 := 0
  compression := QrProtocol.compressionNone
  compressedSize := BitVec.ofNat 64 (pieceLength segmentRawBytes halfRoot.toNat i)
  compressedSizeKnown := true
  crc32Known := false

def halfCall (i : Nat) : Call := { seg := halfSegment i, fileMeta := halfFile i, bytes := halfBytes i }

def halfEmpty : TransferAssembler := empty (halfSegment 0) (halfFile 0)

theorem half_range : InRange (halfSegment 0) (halfFile 0) halfRoot ∧
    InRange (halfSegment 1) (halfFile 1) halfRoot :=
  ⟨⟨by decide, by decide, by decide, by decide, rfl, by decide, by decide⟩,
    ⟨by decide, by decide, by decide, by decide, rfl, by decide, by decide⟩⟩

theorem length_halfBytes (i : Nat) : (halfBytes i).length = pieceLength segmentRawBytes halfRoot.toNat i :=
  List.length_replicate

theorem half_size (i : Nat) : (halfBytes i).length = (halfFile i).compressedSize.toNat := by
  have small : pieceLength segmentRawBytes halfRoot.toNat i ≤ segmentRawBytes := min_le_right ..
  have whole : segmentRawBytes < 2 ^ 64 := by decide
  rw [length_halfBytes]
  exact (toNat_ofNat_of_lt (by omega)).symm

theorem half_digest (i : Nat) : Digest.sha256 (halfCall i).bytes = (halfCall i).seg.rawSha256 := rfl

theorem half_stores :
    StoresSegment Digest.sha256 halfEmpty (halfCall 1) ∧
      StoresSegment Digest.sha256 (stored halfEmpty (halfCall 1)) (halfCall 0) := by
  obtain ⟨first, last⟩ := half_range
  exact ⟨⟨⟨rfl, rfl, rfl, rfl, last, half_size 1, half_digest 1⟩, rfl⟩,
    ⟨⟨rfl, rfl, rfl, rfl, first, half_size 0, half_digest 0⟩, rfl⟩⟩

theorem half_run : afterCalls Digest.sha256 halfEmpty [halfCall 1, halfCall 0] =
    .ok (stored (stored halfEmpty (halfCall 1)) (halfCall 0), [.ok true, .ok true]) := by
  obtain ⟨last, first⟩ := half_stores
  have sound : Sound halfEmpty := sound_empty half_range.1
  exact Run.run_cons (addCall_stores sound last)
    (Run.run_cons (addCall_stores (stored_sound sound last) first) rfl)

theorem half_canonical : StoresCanonical Digest.sha256 halfEmpty [halfCall 1, halfCall 0] := by
  intro pre call inside
  have fresh : CanonicalLengths halfEmpty := fun _ _ found => absurd found empty_unfilled
  obtain ⟨b, outs, run, -⟩ := afterCalls_sound (sound_empty half_range.1) fresh pre
  refine ⟨b, outs, run, fun stores => ?_⟩
  rw [← stores.accepts.range.root]
  have listed : call ∈ [halfCall 1, halfCall 0] := inside.subset (by simp)
  rcases List.mem_pair.mp listed with rfl | rfl
  · exact length_halfBytes 1
  · exact length_halfBytes 0

theorem complete_reassembles_half :
    ∃ b outs, afterCalls Digest.sha256 halfEmpty [halfCall 1, halfCall 0] = .ok (b, outs) ∧
      b.isComplete = true ∧ Reassembles b ∧ b.segments = [some (halfBytes 0), some (halfBytes 1)] ∧
      b.reassemble = some (List.replicate (segmentRawBytes + 1) 0) := by
  obtain ⟨b, outs, run, reassembles⟩ := complete_reassembles_iff Digest.sha256 (halfSegment 0)
    (halfFile 0) halfEmpty (new_ok_iff.mpr ⟨half_range.1, rfl⟩) [halfCall 1, halfCall 0]
  obtain ⟨rfl, -⟩ := Prod.mk.inj (Except.ok.inj (half_run.symm.trans run))
  have whole := (reassembles rfl (by decide)).mpr half_canonical
  refine ⟨_, outs, run, rfl, whole, rfl, ?_⟩
  obtain ⟨slots, segments, result, -⟩ := whole
  have both : slots = [halfBytes 0, halfBytes 1] :=
    List.map_injective_iff.mpr (Option.some_injective _) segments.symm
  rw [result, both]
  simp only [List.flatten_cons, List.flatten_nil, List.append_nil, halfBytes, ← List.replicate_add]
  rfl

def soleSegment (rootOriginalSize : U64) : SegmentMeta where
  rootSessionId := 7
  segmentIndex := 0
  segmentCount := 1
  originalOffset := 0
  rootOriginalSize := rootOriginalSize
  rootSha256 := Digest.sha256 [1, 2, 3]
  rawSha256 := Digest.sha256 [1, 2, 3]

def soleFile : FileMeta where
  filename := "a.txt"
  originalSize := 3
  crc32 := 0x55BC801D
  compression := QrProtocol.compressionNone
  compressedSize := 3
  compressedSizeKnown := true
  crc32Known := true

def soleCall (rootOriginalSize : U64) : Call :=
  { seg := soleSegment rootOriginalSize, fileMeta := soleFile, bytes := [1, 2, 3] }

theorem short_segment_never_reassembles :
    ∃ a b, TransferAssembler.new (soleSegment 4) soleFile = .ok a ∧
      (soleSegment 4).validate (QrProtocol.SessionId.deriveSegment 7 0) soleFile = .ok () ∧
      addCall Digest.sha256 a (soleCall 4) = .ok (b, .ok true) ∧ b.isComplete = true ∧
      b.rootCompressedSize.toNat ≤ maxInMemoryAssemblyBytes ∧ b.reassemble = none := by
  have range : InRange (soleSegment 4) soleFile 4 :=
    ⟨by decide, by decide, by decide, by decide, rfl, by decide, by decide⟩
  have stores : StoresSegment Digest.sha256 (empty (soleSegment 4) soleFile) (soleCall 4) :=
    ⟨⟨rfl, rfl, rfl, rfl, range, rfl, rfl⟩, rfl⟩
  refine ⟨_, _, new_ok_iff.mpr ⟨range, rfl⟩, ?_, addCall_stores (sound_empty range) stores, ?_, ?_, ?_⟩
  · exact SegmentMeta.validate_ok_iff.mpr
      ⟨by decide, by decide, by decide, by decide, by decide, rfl, by decide, by decide, rfl⟩
  · rfl
  · decide
  · rfl

end AirFerry.Proof
