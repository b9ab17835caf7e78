import AirFerry.Proof.Host
import AirFerry.Proof.Reference

/-!
# What the receiver screen has checked

A segmented transfer is compared with its descriptor before it is announced. A single object only is
as far as its decompression goes.
-/

namespace AirFerry.Proof
open Library QrProtocol RaptorqCore TransferEngine ReceiverSession Ios

variable {E : Env} {s : ReceiverSession E}

/-- A finished file with a known CRC is the one its descriptor announced. -/
def Verified (E : Env) (f : Finished) : Prop :=
  f.crc32Known = true → f.output.length = f.originalSize.toNat ∧ E.crc32 f.output = f.crc32

def recoveredStream (s : ReceiverSession E) : Option Bytes :=
  s.assembleRaw.bind fun raw =>
    if s.fileMeta.compressedSizeKnown then
      if s.fileMeta.compressedSize.toNat ≤ raw.length then
        some (raw.take s.fileMeta.compressedSize.toNat)
      else none
    else some raw

/-- The recovered stream holds the file of the descriptor, in what the core leaves unchecked. -/
structure Agrees (s : ReceiverSession E) (raw : Bytes) : Prop where
  stored : s.fileMeta.compression = compressionNone →
    raw.length = s.fileMeta.originalSize.toNat ∧ E.crc32 raw = s.fileMeta.crc32
  compressed : s.fileMeta.compression ≠ compressionNone → ∀ file,
    decompressWithLimit E.codecs raw s.fileMeta.compression s.fileMeta.originalSize.toNat = .ok file →
    file.length = s.fileMeta.originalSize.toNat → E.crc32 file = s.fileMeta.crc32

def Decoded (s : ReceiverSession E) (raw file : Bytes) : Prop :=
  if s.fileMeta.compression = compressionNone then file = raw
  else decompressWithLimit E.codecs raw s.fileMeta.compression s.fileMeta.originalSize.toNat =
      .ok file ∧ file.length = s.fileMeta.originalSize.toNat

theorem agrees_iff (raw : Bytes) :
    Agrees s raw ↔ ∀ file, Decoded s raw file →
      file.length = s.fileMeta.originalSize.toNat ∧ E.crc32 file = s.fileMeta.crc32 := by
  unfold Decoded
  by_cases plain : s.fileMeta.compression = compressionNone
  · simp only [if_pos plain, forall_eq]
    exact ⟨fun h => h.stored plain, fun h => ⟨fun _ => h, fun compressed => absurd plain compressed⟩⟩
  · simp only [if_neg plain]
    constructor
    · intro h file decoded
      exact ⟨decoded.2, h.compressed plain file decoded.1 decoded.2⟩
    · intro h
      exact ⟨fun stored => absurd stored plain, fun _ file decoded size => (h file ⟨decoded, size⟩).2⟩

theorem decompressTrimmed_iff (small : s.fileMeta.originalSize.toNat ≤ maxOriginalBytes)
    (positive : s.fileMeta.compression ≠ compressionNone → 0 < s.fileMeta.originalSize.toNat)
    {raw file : Bytes} : (s.decompressTrimmed raw).2 = .ok (some file) ↔ Decoded s raw file := by
  unfold decompressTrimmed Decoded
  by_cases plain : s.fileMeta.compression = compressionNone
  · simp only [if_pos plain, assembled, Except.ok.injEq, Option.some.injEq]
    exact eq_comm
  have sized := positive plain
  simp only [if_neg plain, if_neg (not_lt.mpr small), if_pos sized]
  cases decompressWithLimit E.codecs raw s.fileMeta.compression s.fileMeta.originalSize.toNat with
  | error reason => simp [assembleFailed]
  | ok v =>
      by_cases other : v.length ≠ s.fileMeta.originalSize.toNat
      · simp only [if_pos (And.intro sized other), assembleFailed, reduceCtorEq, Except.ok.injEq,
          false_iff, not_and]
        rintro rfl
        exact other
      · simp only [if_neg (not_and_of_not_right _ other), assembled, Except.ok.injEq, Option.some.injEq]
        constructor
        · rintro rfl
          exact ⟨rfl, not_not.mp other⟩
        · exact And.left

theorem airferryReceiverAssemble_some {file : Bytes} :
    (airferryReceiverAssemble s).2 = some file ↔ s.assembleResult.2 = .ok (some file) := by
  unfold airferryReceiverAssemble
  split <;> rename_i answer <;> simp [answer]

theorem assemble_iff (live : Live s) (complete : s.isComplete = true)
    (single : airferryReceiverIsSegmented s = false) {file : Bytes} :
    (airferryReceiverAssemble s).2 = some file ↔
      ∃ raw, recoveredStream s = some raw ∧ Decoded s raw file := by
  obtain ⟨info, valid, described, segment⟩ := live.described complete
  rw [airferryReceiverIsSegmented, Option.isSome_eq_false_iff, Option.isNone_iff_eq_none,
    segment] at single
  have small := valid.originalSize_le single
  have positive := valid.originalSize_pos single
  rw [← described] at small positive
  rw [airferryReceiverAssemble_some]
  unfold assembleResult recoveredStream
  cases s.assembleRaw with
  | none => simp [assembled]
  | some raw =>
      simp only [Option.bind_some]
      by_cases known : s.fileMeta.compressedSizeKnown = true
      · simp only [if_pos known]
        by_cases fits : s.fileMeta.compressedSize.toNat ≤ raw.length
        · simp only [if_pos fits, Option.some.injEq, exists_eq_left']
          exact decompressTrimmed_iff small positive
        · simp [if_neg fits, assembleFailed]
      · simp only [if_neg known, Option.some.injEq, exists_eq_left']
        exact decompressTrimmed_iff small positive

theorem verified_segmented {input output : Bytes} {info : NativeSegmentInfo} {pieces : List Bytes}
    (finished : NativeReceiver.finishSegmented E input info = .ok output) :
    Verified E {
      segmented := true, originalSize := info.expectedSize, crc32 := info.expectedCRC,
      crc32Known := info.crcKnown, pieces, output } := by
  unfold NativeReceiver.finishSegmented at finished
  split at finished
  · rename_i file written
    cases finished
    obtain ⟨size, crc⟩ := airferryDecompressStreamToFile_some written
    exact fun known => ⟨size, crc known⟩
  · cases finished

theorem finishSegment_verified (vm : ReceiverViewModel E) (outcomes : Outcomes)
    (native : vm.native = some s) (live : Live s) :
    (∀ left ∈ (vm.finishSegment outcomes s).1.native, Live left) ∧
      ∀ fin ∈ (vm.finishSegment outcomes s).2.finished, Verified E fin := by
  have kept : ∀ left ∈ vm.native, Live left := by
    rw [native]
    rintro _ ⟨⟩
    exact live
  rcases finishSegment_cases vm outcomes s with ⟨-, failed⟩ |
    ⟨info, raw, -, ⟨-, failed⟩ | ⟨a, disk, -, ⟨status, waits⟩ |
      ⟨vm', pieces, output, finished, left, -, -, -, written⟩⟩⟩
  · rw [failed]
    exact ⟨kept, by simp [Handled.nothing]⟩
  · rw [failed]
    exact ⟨kept, by simp⟩
  · rw [waits]
    exact ⟨by simp, by simp⟩
  · rw [finished]
    refine ⟨by simp [left], ?_⟩
    rintro _ ⟨⟩
    exact verified_segmented written

/-- A single object that this payload finishes with a known CRC is what its descriptor announced. -/
def AgreesWhenFinished (vm : ReceiverViewModel E) (input : Outcomes × Bytes) : Prop :=
  ∀ s, Completes vm input.2 s → airferryReceiverIsSegmented s = false → WritesObject input.1 →
    s.fileMeta.crc32Known = true → ∀ raw, recoveredStream s = some raw → Agrees s raw

theorem finish_verified_iff (vm : ReceiverViewModel E) (outcomes : Outcomes)
    (native : vm.native = some s) (live : Live s) (complete : s.isComplete = true) :
    (∀ left ∈ (vm.finishCurrentSession outcomes s).1.native, Live left) ∧
      ((∀ fin ∈ (vm.finishCurrentSession outcomes s).2.finished, Verified E fin) ↔
        (airferryReceiverIsSegmented s = false → WritesObject outcomes →
          s.fileMeta.crc32Known = true → ∀ raw, recoveredStream s = some raw → Agrees s raw)) := by
  unfold ReceiverViewModel.finishCurrentSession
  cases single : airferryReceiverIsSegmented s with
  | true =>
      obtain ⟨left, verified⟩ := finishSegment_verified vm outcomes native live
      refine ⟨left, ?_, fun _ => verified⟩
      rintro - ⟨⟩
  | false =>
      simp only [Bool.false_eq_true, if_false, forall_const]
      rcases finishObject_cases vm outcomes s with ⟨refused, error, recovered, failed⟩ |
        ⟨writes, file, data, finished⟩
      · rw [failed]
        refine ⟨?_, fun _ writes known raw found => ?_, fun _ => by simp⟩
        · rintro _ ⟨⟩
          exact live.failedAssembly error
        · rw [agrees_iff]
          intro file decoded
          have data := (assemble_iff live complete single).mpr ⟨raw, found, decoded⟩
          exact absurd ⟨writes, Option.isSome_iff_exists.mpr ⟨file, data⟩⟩ refused
      · rw [finished]
        refine ⟨by simp [ReceiverViewModel.finish], ?_⟩
        obtain ⟨raw, found, decoded⟩ := (assemble_iff live complete single).mp data
        constructor
        · intro verified _ known other again
          rw [found, Option.some.injEq] at again
          subst again
          rw [agrees_iff]
          intro file' decoded'
          have same := (assemble_iff live complete single).mpr ⟨raw, found, decoded'⟩
          rw [data, Option.some.injEq] at same
          subst same
          exact verified _ rfl known
        · rintro agrees _ ⟨⟩ known
          exact (agrees_iff raw).mp (agrees writes known raw found) file decoded

theorem step_verified_iff (vm : ReceiverViewModel E) (live : ∀ s ∈ vm.native, Live s)
    (input : Outcomes × Bytes) :
    ∃ vm' handled, vm.ingest input.1 input.2 = .ok (vm', handled) ∧
      (∀ s ∈ vm'.native, Live s) ∧
      ((∀ fin ∈ handled.finished, Verified E fin) ↔ AgreesWhenFinished vm input) := by
  obtain ⟨vm', handled, run, passed | ⟨s, key, finishing⟩⟩ := ingest_cases vm live input.1 input.2
  · refine ⟨vm', handled, run, passed.live, ?_⟩
    rw [passed.nothing]
    exact ⟨fun _ s completes => absurd completes (passed.incomplete s), fun _ => by
      simp [Handled.nothing]⟩
  · obtain ⟨status, finish⟩ := finishing.finish
    obtain ⟨left, verified⟩ := finish_verified_iff (finishingOf vm key status s) input.1 rfl
      finishing.live finishing.completes.complete
    rw [← finish] at left verified
    refine ⟨vm', handled, run, left, verified.trans ?_⟩
    constructor
    · intro agrees other completes
      rw [finishing.sole other completes]
      exact agrees
    · intro agrees
      exact agrees s finishing.completes

theorem announced_files_verified_iff (E : Env) (disk : Disk) (inputs : List (Outcomes × Bytes)) :
    ∃ vm outs, screen E disk inputs = .ok (vm, outs) ∧
      ((∀ handled ∈ outs, ∀ fin ∈ handled.finished, Verified E fin) ↔
        EveryStep E disk AgreesWhenFinished inputs) := by
  suffices every : ∃ vm outs, screen E disk inputs = .ok (vm, outs) ∧ (∀ s ∈ vm.native, Live s) ∧
      ((∀ handled ∈ outs, ∀ fin ∈ handled.finished, Verified E fin) ↔
        EveryStep E disk AgreesWhenFinished inputs) by
    obtain ⟨vm, outs, run, -, verified⟩ := every
    exact ⟨vm, outs, run, verified⟩
  induction inputs using List.reverseRecOn with
  | nil =>
      refine ⟨_, [], rfl, by simp [ReceiverViewModel.fresh], ?_⟩
      exact ⟨fun _ => everyStep_nil disk _, fun _ => by simp⟩
  | append_singleton inputs input ih =>
      obtain ⟨vm, outs, run, live, verified⟩ := ih
      obtain ⟨vm', handled, step, left, last⟩ := step_verified_iff vm live input
      refine ⟨vm', outs ++ [handled], screen_concat run step, left, ?_⟩
      rw [everyStep_concat run, ← verified, ← last]
      simp only [List.mem_append, List.mem_singleton, or_imp, forall_and, forall_eq]

def byteMeta : ObjectMeta where
  transferLength := 1
  symbolSize := 64
  otiBytes := ⟨[0, 0, 0, 0, 1, 0, 0, 64, 1, 0, 1, 8], rfl⟩
  blocks := [{ sbn := 0, numSourceSymbols := 1, blockLength := 64 }]

def bytePayload : Bytes :=
  [0xD5, 2, 0, 1, 0, 0, 0, 0, 0, 0, 0, 1, 0, 0, 0, 64] ++ byteMeta.otiBytes.1 ++
    byteMeta.blocks.flatMap Descriptor.blockBytes ++ [0, 0, 0, 0, 0, 0, 0, 0, 1, 0, 0, 0, 0] ++
    List.replicate 7 0

def byteDescriptor : WireFrame reference.crc32 :=
  .build reference.crc32 0 flagDescriptor 0 0 1 1 64 0 0 bytePayload (by decide)

def allWell : Outcomes where
  segmentInfo := true
  assembleRaw := true
  store := true
  concatenate := true
  finishSegmented := true
  assemble := true
  uniqueOutputURL := true
  write := true

def byteScans (outcomes : Outcomes) : List (Outcomes × Bytes) :=
  [(outcomes, byteDescriptor.1.toBytes), (outcomes, (zeroFrame reference 0 0 64 0).1.toBytes)]

def emptyDisk : Disk := fun _ _ => none

def announced (result : Exec (ReceiverViewModel E × List Handled)) : List Finished :=
  match result with
  | .ok (_, outs) => outs.filterMap Handled.finished
  | .error _ => []

def byteFinished : Finished where
  segmented := false
  originalSize := 1
  crc32 := 0
  crc32Known := true
  pieces := [[0]]
  output := [0]

set_option maxRecDepth 20000 in
theorem announced_byte : announced (screen reference emptyDisk (byteScans allWell)) = [byteFinished] := by
  decide +kernel

theorem unverified_byte_announced :
    ∃ vm outs, screen reference emptyDisk (byteScans allWell) = .ok (vm, outs) ∧
      ¬ ∀ handled ∈ outs, ∀ fin ∈ handled.finished, Verified reference fin := by
  have files := announced_byte
  cases run : screen reference emptyDisk (byteScans allWell) with
  | error fault =>
      rw [run] at files
      cases files
  | ok result =>
      obtain ⟨vm, outs⟩ := result
      rw [run] at files
      refine ⟨vm, outs, rfl, fun verified => ?_⟩
      have member : byteFinished ∈ outs.filterMap Handled.finished := by
        rw [show outs.filterMap Handled.finished = [byteFinished] from files]
        exact List.mem_singleton.mpr rfl
      obtain ⟨handled, inside, finished⟩ := List.mem_filterMap.mp member
      have crc := (verified handled inside byteFinished finished rfl).2
      exact absurd crc (by decide +kernel)

end AirFerry.Proof
