import AirFerry.Proof.Assembly

/-!
# The order of an assembler's calls

The first call that stores a segment wins. Calls for different segments do not see one another, so
their order does not matter.
-/

namespace AirFerry.Proof
open Library Library.Pieces TransferEngine TransferAssembler

variable {sha256 : Bytes → Octets 32} {a : TransferAssembler} {call : Call}

structure SlotDescribed (sha256 : Bytes → Octets 32) (rootSize : U64) (i : Nat) (bytes : Bytes)
    (seg : SegmentMeta) : Prop where
  index : seg.segmentIndex.toNat = i
  offset : seg.originalOffset.toNat = i * segmentRawBytes
  digest : sha256 bytes = seg.rawSha256
  length_le : bytes.length ≤ segmentRawLen rootSize seg.segmentIndex

structure Parallel (sha256 : Bytes → Octets 32) (a : TransferAssembler) : Prop extends Sound a where
  filled_iff : ∀ i : Nat, (∃ bytes, a.segments[i]? = some (some bytes)) ↔
    ∃ seg, a.segmentMeta[i]? = some (some seg)
  described : ∀ (i : Nat) bytes seg, a.segments[i]? = some (some bytes) →
    a.segmentMeta[i]? = some (some seg) → SlotDescribed sha256 a.rootCompressedSize i bytes seg

theorem parallel_empty {seg : SegmentMeta} {fileMeta : FileMeta}
    (range : InRange seg fileMeta seg.rootOriginalSize) : Parallel sha256 (empty seg fileMeta) where
  toSound := sound_empty range
  filled_iff := by
    intro i
    constructor
    · rintro ⟨bytes, found⟩
      exact absurd found empty_unfilled
    · rintro ⟨seg, found⟩
      cases (List.eq_of_mem_replicate (List.mem_of_getElem? found))
  described _ _ _ found := absurd found empty_unfilled

theorem segmentMeta_stored (sound : Sound a) (stores : StoresSegment sha256 a call) (i : Nat) :
    (stored a call).segmentMeta[i]? =
      if call.seg.segmentIndex.toNat = i then some (some call.seg) else a.segmentMeta[i]? := by
  have inside := (List.getElem?_eq_some_iff.mp stores.empty).1
  rw [sound.segments_length, ← sound.meta_length] at inside
  show (a.segmentMeta.set _ _)[i]? = _
  rw [List.getElem?_set]
  by_cases same : call.seg.segmentIndex.toNat = i
  · rw [if_pos same, if_pos same, if_pos inside]
  · rw [if_neg same, if_neg same]

theorem parallel_stored (parallel : Parallel sha256 a) (stores : StoresSegment sha256 a call) :
    Parallel sha256 (stored a call) where
  toSound := stored_sound parallel.toSound stores
  filled_iff := by
    intro i
    rw [segments_stored stores, segmentMeta_stored parallel.toSound stores]
    by_cases same : call.seg.segmentIndex.toNat = i
    · rw [if_pos same, if_pos same]
      exact iff_of_true ⟨_, rfl⟩ ⟨_, rfl⟩
    · rw [if_neg same, if_neg same]
      exact parallel.filled_iff i
  described := by
    intro i bytes seg found known
    rw [segments_stored stores] at found
    rw [segmentMeta_stored parallel.toSound stores] at known
    by_cases same : call.seg.segmentIndex.toNat = i
    · rw [if_pos same] at found known
      cases found
      cases known
      have accepts := stores.accepts
      refine ⟨same, ?_, accepts.digest, ?_⟩
      · rw [accepts.range.offset, same]
      · rw [accepts.size]
        exact accepts.range.length_le
    · rw [if_neg same] at found known
      exact parallel.described i bytes seg found known

open Classical in
noncomputable def afterCall (sha256 : Bytes → Octets 32) (a : TransferAssembler) (call : Call) :
    TransferAssembler :=
  if StoresSegment sha256 a call then stored a call else a

theorem afterCall_stores (stores : StoresSegment sha256 a call) :
    afterCall sha256 a call = stored a call := if_pos stores

theorem afterCall_keeps (refused : ¬ StoresSegment sha256 a call) : afterCall sha256 a call = a :=
  if_neg refused

theorem addCall_eq (parallel : Parallel sha256 a) (call : Call) :
    ∃ result, addCall sha256 a call = .ok (afterCall sha256 a call, result) ∧
      Parallel sha256 (afterCall sha256 a call) ∧
      (result ≠ .ok true → afterCall sha256 a call = a) := by
  by_cases stores : StoresSegment sha256 a call
  · rw [afterCall_stores stores]
    exact ⟨_, addCall_stores parallel.toSound stores, parallel_stored parallel stores,
      fun refused => absurd rfl refused⟩
  · obtain ⟨result, kept⟩ := addCall_keeps parallel.toSound stores
    rw [afterCall_keeps stores]
    exact ⟨result, kept, parallel, fun _ => rfl⟩

theorem afterCalls_eq (parallel : Parallel sha256 a) (calls : List Call) :
    ∃ outs, afterCalls sha256 a calls = .ok (calls.foldl (afterCall sha256) a, outs) ∧
      Parallel sha256 (calls.foldl (afterCall sha256) a) := by
  induction calls generalizing a with
  | nil => exact ⟨[], rfl, parallel⟩
  | cons call rest ih =>
      obtain ⟨result, head, middle, -⟩ := addCall_eq parallel call
      obtain ⟨outs, tail, final⟩ := ih middle
      exact ⟨result :: outs, Run.run_cons head tail, final⟩

theorem slot_afterCall (parallel : Parallel sha256 a) (call : Call) {i : Nat} {bytes : Bytes}
    (filled : a.segments[i]? = some (some bytes)) :
    (afterCall sha256 a call).segments[i]? = some (some bytes) ∧
      (afterCall sha256 a call).segmentMeta[i]? = a.segmentMeta[i]? := by
  by_cases stores : StoresSegment sha256 a call
  · have other : ¬ call.seg.segmentIndex.toNat = i := by
      rintro rfl
      have empty := stores.empty
      rw [filled] at empty
      cases empty
    rw [afterCall_stores stores, segments_stored stores, segmentMeta_stored parallel.toSound stores,
      if_neg other, if_neg other]
    exact ⟨filled, rfl⟩
  · rw [afterCall_keeps stores]
    exact ⟨filled, rfl⟩

theorem slot_afterCalls (parallel : Parallel sha256 a) (calls : List Call) {i : Nat} {bytes : Bytes}
    (filled : a.segments[i]? = some (some bytes)) :
    (calls.foldl (afterCall sha256) a).segments[i]? = some (some bytes) ∧
      (calls.foldl (afterCall sha256) a).segmentMeta[i]? = a.segmentMeta[i]? := by
  induction calls generalizing a with
  | nil => exact ⟨filled, rfl⟩
  | cons call rest ih =>
      obtain ⟨kept, known⟩ := slot_afterCall parallel call filled
      obtain ⟨-, -, middle, -⟩ := addCall_eq parallel call
      obtain ⟨later, same⟩ := ih middle kept
      exact ⟨later, same.trans known⟩

theorem stores_stored_iff {other : Call} (stores : StoresSegment sha256 a call)
    (apart : call.seg.segmentIndex ≠ other.seg.segmentIndex) :
    StoresSegment sha256 (stored a call) other ↔ StoresSegment sha256 a other := by
  have places : ¬ call.seg.segmentIndex.toNat = other.seg.segmentIndex.toNat :=
    fun same => apart (BitVec.eq_of_toNat_eq same)
  constructor
  · rintro ⟨accepts, empty⟩
    rw [segments_stored stores, if_neg places] at empty
    exact ⟨⟨accepts.root, accepts.count, accepts.rootDigest, accepts.filename, accepts.range,
      accepts.size, accepts.digest⟩, empty⟩
  · rintro ⟨accepts, empty⟩
    refine ⟨⟨accepts.root, accepts.count, accepts.rootDigest, accepts.filename, accepts.range,
      accepts.size, accepts.digest⟩, ?_⟩
    rw [segments_stored stores, if_neg places]
    exact empty

theorem stored_comm {other : Call} (apart : call.seg.segmentIndex ≠ other.seg.segmentIndex) :
    stored (stored a call) other = stored (stored a other) call := by
  have places : call.seg.segmentIndex.toNat ≠ other.seg.segmentIndex.toNat :=
    fun same => apart (BitVec.eq_of_toNat_eq same)
  simp only [stored, List.set_comm _ _ places]

theorem afterCall_comm {other : Call} (apart : call.seg.segmentIndex ≠ other.seg.segmentIndex) :
    afterCall sha256 (afterCall sha256 a call) other =
      afterCall sha256 (afterCall sha256 a other) call := by
  by_cases first : StoresSegment sha256 a call
  · by_cases second : StoresSegment sha256 a other
    · rw [afterCall_stores first, afterCall_stores second,
        afterCall_stores ((stores_stored_iff first apart).mpr second),
        afterCall_stores ((stores_stored_iff second apart.symm).mpr first), stored_comm apart]
    · rw [afterCall_stores first, afterCall_keeps second, afterCall_stores first,
        afterCall_keeps (mt (stores_stored_iff first apart).mp second)]
  · by_cases second : StoresSegment sha256 a other
    · rw [afterCall_keeps first, afterCall_stores second,
        afterCall_keeps (mt (stores_stored_iff second apart.symm).mp first)]
    · rw [afterCall_keeps first, afterCall_keeps second, afterCall_keeps first]

def Agree (calls : List Call) : Prop :=
  ∀ call ∈ calls, ∀ other ∈ calls, call.seg.segmentIndex = other.seg.segmentIndex → call = other

theorem afterCalls_perm {calls others : List Call} (agree : Agree calls) (perm : calls.Perm others)
    (a : TransferAssembler) :
    calls.foldl (afterCall sha256) a = others.foldl (afterCall sha256) a := by
  apply perm.foldl_eq'
  intro call early other late a
  by_cases same : call.seg.segmentIndex = other.seg.segmentIndex
  · rw [agree call early other late same]
  · exact afterCall_comm same

theorem assembler_runs_commute (sha256 : Bytes → Octets 32) {seg : SegmentMeta} {fileMeta : FileMeta}
    {a : TransferAssembler} (created : TransferAssembler.new seg fileMeta = .ok a) (calls : List Call) :
    ∃ b outs, afterCalls sha256 a calls = .ok (b, outs) ∧ Parallel sha256 b ∧
      (∀ later, ∃ c outs', afterCalls sha256 b later = .ok (c, outs') ∧
        ∀ (i : Nat) bytes, b.segments[i]? = some (some bytes) →
          c.segments[i]? = some (some bytes) ∧ c.segmentMeta[i]? = b.segmentMeta[i]?) ∧
      (∀ call, ∃ c result, addCall sha256 b call = .ok (c, result) ∧
        (result ≠ .ok true → c = b)) ∧
      ∀ others, calls.Perm others → Agree calls →
        ∃ outs', afterCalls sha256 a others = .ok (b, outs') := by
  obtain ⟨range, rfl⟩ := new_ok_iff.mp created
  have start : Parallel sha256 (empty seg fileMeta) := parallel_empty range
  obtain ⟨outs, run, parallel⟩ := afterCalls_eq start calls
  refine ⟨_, outs, run, parallel, ?_, ?_, ?_⟩
  · intro later
    obtain ⟨outs', run', -⟩ := afterCalls_eq parallel later
    exact ⟨_, outs', run', fun i bytes filled => slot_afterCalls parallel later filled⟩
  · intro call
    obtain ⟨result, step, -, kept⟩ := addCall_eq parallel call
    exact ⟨_, result, step, kept⟩
  · intro others perm agree
    obtain ⟨outs', run', -⟩ := afterCalls_eq start others
    rw [← afterCalls_perm agree perm] at run'
    exact ⟨outs', run'⟩

theorem assembler_runs_commute_half :
    ∃ b outs outs', afterCalls Digest.sha256 halfEmpty [halfCall 1, halfCall 0] = .ok (b, outs) ∧
      afterCalls Digest.sha256 halfEmpty [halfCall 0, halfCall 1] = .ok (b, outs') ∧
      Parallel Digest.sha256 b ∧ b.isComplete = true := by
  obtain ⟨b, outs, run, parallel, -, -, orders⟩ := assembler_runs_commute Digest.sha256
    (new_ok_iff.mpr ⟨half_range.1, rfl⟩) [halfCall 1, halfCall 0]
  have agree : Agree [halfCall 1, halfCall 0] := by
    intro call early other late same
    rcases List.mem_pair.mp early with rfl | rfl <;> rcases List.mem_pair.mp late with rfl | rfl
    · rfl
    · exact absurd same (by decide)
    · exact absurd same (by decide)
    · rfl
  obtain ⟨outs', again⟩ := orders [halfCall 0, halfCall 1] (List.Perm.swap ..) agree
  refine ⟨b, outs, outs', run, again, parallel, ?_⟩
  obtain ⟨rfl, -⟩ := Prod.mk.inj (Except.ok.inj (half_run.symm.trans run))
  rfl

end AirFerry.Proof
