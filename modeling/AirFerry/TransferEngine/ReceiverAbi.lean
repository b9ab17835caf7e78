import AirFerry.Library.Hex
import AirFerry.QrProtocol.Streaming
import AirFerry.TransferEngine.Receiver

/-!
# The receiver's C ABI

What the exported functions compute, without the pointers they pass it through.
-/

namespace AirFerry.TransferEngine
open Library QrProtocol

variable {E : Env}

namespace IngestStatus

def ingestError : U64 := 0xFFFFFFFF00000000

def pack (complete accepted : Bool) (mismatchStreak : U32) (receivedSymbols : Nat) : U64 :=
  (if complete then (1 : U64) else 0) ||| (if accepted then (2 : U64) else 0) |||
    ((mismatchStreak.setWidth 64 &&& 0xFFFF) <<< 8) ||| (BitVec.ofNat 64 receivedSymbols <<< 32)

theorem pack_accepted (complete accepted : Bool) (mismatchStreak : U32) (receivedSymbols : Nat) :
    (pack complete accepted mismatchStreak receivedSymbols).getLsbD 1 = accepted := by
  unfold pack
  simp only [BitVec.getLsbD_or, BitVec.getLsbD_shiftLeft]
  cases complete <;> cases accepted <;> simp

theorem getLsbD_of_lt {n i : Nat} (x : BitVec n) (small : x.toNat < 2 ^ i) {j : Nat} (above : i ≤ j) :
    x.getLsbD j = false := by
  rw [BitVec.getLsbD, Nat.testBit_lt_two_pow]
  exact lt_of_lt_of_le small (Nat.pow_le_pow_right Nat.two_pos above)

theorem pack_received (complete accepted : Bool) (mismatchStreak : U32) (receivedSymbols : Nat) :
    (pack complete accepted mismatchStreak receivedSymbols >>> 32).setWidth 32 =
      BitVec.ofNat 32 receivedSymbols := by
  apply BitVec.eq_of_getLsbD_eq
  intro i small
  have flag : ((if complete then 1 else 0 : U64)).getLsbD (32 + i) = false := by
    apply getLsbD_of_lt _ (i := 1) _ (by omega)
    cases complete <;> decide
  have bit : ((if accepted then 2 else 0 : U64)).getLsbD (32 + i) = false := by
    apply getLsbD_of_lt _ (i := 2) _ (by omega)
    cases accepted <;> decide
  have streak : (mismatchStreak.setWidth 64 &&& 0xFFFF : U64).getLsbD (32 + i - 8) = false := by
    apply getLsbD_of_lt _ (i := 16) _ (by omega)
    rw [BitVec.toNat_and]
    exact lt_of_le_of_lt Nat.and_le_right (by decide)
  unfold pack
  rw [BitVec.getLsbD_setWidth, BitVec.getLsbD_ushiftRight]
  simp only [BitVec.getLsbD_or, BitVec.getLsbD_shiftLeft, flag, bit, streak, BitVec.getLsbD_ofNat,
    Nat.add_sub_cancel_left, small, show 32 + i < 64 by omega, show i < 64 by omega,
    show ¬ 32 + i < 32 by omega, decide_true, decide_false, Bool.true_and, Bool.false_or,
    Bool.and_false, Bool.not_false]

theorem pack_complete (complete accepted : Bool) (mismatchStreak : U32) (receivedSymbols : Nat) :
    (pack complete accepted mismatchStreak receivedSymbols).getLsbD 0 = complete := by
  unfold pack
  simp only [BitVec.getLsbD_or, BitVec.getLsbD_shiftLeft]
  cases complete <;> cases accepted <;> simp

theorem pack_streak (complete accepted : Bool) (mismatchStreak : U32) (receivedSymbols : Nat) :
    (pack complete accepted mismatchStreak receivedSymbols >>> 8).setWidth 16 =
      mismatchStreak.setWidth 16 := by
  apply BitVec.eq_of_getLsbD_eq
  intro i small
  have flag : ((if complete then 1 else 0 : U64)).getLsbD (8 + i) = false := by
    apply getLsbD_of_lt _ (i := 1) _ (by omega)
    cases complete <;> decide
  have bit : ((if accepted then 2 else 0 : U64)).getLsbD (8 + i) = false := by
    apply getLsbD_of_lt _ (i := 2) _ (by omega)
    cases accepted <;> decide
  have mask : (0xFFFF : U64).getLsbD i = true := by
    rw [show (0xFFFF : U64) = BitVec.ofNat 64 (2 ^ 16 - 1) from rfl, BitVec.getLsbD_ofNat,
      Nat.testBit_two_pow_sub_one]
    simp only [small, show i < 64 by omega, decide_true, Bool.and_self]
  unfold pack
  rw [BitVec.getLsbD_setWidth, BitVec.getLsbD_ushiftRight]
  simp only [BitVec.getLsbD_or, BitVec.getLsbD_shiftLeft, BitVec.getLsbD_and, BitVec.getLsbD_setWidth,
    flag, bit, mask, Nat.add_sub_cancel_left, small, show 8 + i < 64 by omega, show i < 64 by omega,
    show ¬ 8 + i < 8 by omega, show 8 + i < 32 by omega, decide_true, decide_false, Bool.true_and,
    Bool.false_or, Bool.and_true, Bool.not_true, Bool.not_false, Bool.and_false, Bool.or_false,
    Bool.false_and]

end IngestStatus

def airferryReceiverCreateFromFrame (E : Env) (frameBytes : Bytes) :
    Exec (Option (ReceiverSession E)) := do
  if frameBytes = [] then return none
  match ← Frame.fromBytes E.crc32 frameBytes with
  | .error _ => return none
  | .ok frame => return some (← ReceiverSession.newPending frame.header.sessionId)

def airferryReceiverIngest (s : ReceiverSession E) (frameBytes : Bytes) :
    Exec (ReceiverSession E × U64) := do
  if frameBytes = [] then return (s, IngestStatus.ingestError)
  match ← Frame.fromBytes E.crc32 frameBytes with
  | .error _ => return (s, IngestStatus.ingestError)
  | .ok frame =>
      let prevReceived := s.getProgress.receivedSymbols
      -- the error of a foreign frame is only logged
      let (s, _) ← s.ingest frame
      let p := s.getProgress
      return (s, IngestStatus.pack s.isComplete (prevReceived < p.receivedSymbols)
        p.sessionMismatchStreak p.receivedSymbols)

theorem airferryReceiverIngest_read {s s' : ReceiverSession E} {frameBytes : Bytes} {f : Frame}
    {result : Except Error Bool} (read : Frame.fromBytes E.crc32 frameBytes = .ok (.ok f))
    (ingested : s.ingest f = .ok (s', result)) :
    airferryReceiverIngest s frameBytes = .ok (s', IngestStatus.pack s'.isComplete
      (s.getProgress.receivedSymbols < s'.getProgress.receivedSymbols)
      s'.getProgress.sessionMismatchStreak s'.getProgress.receivedSymbols) := by
  have filled : frameBytes ≠ [] := by
    rintro rfl
    cases read
  unfold airferryReceiverIngest
  simp only [bind, Except.bind, pure, Except.pure, if_neg filled, read, ingested]

/-- `airferry_receiver_assemble_raw`: the recovered bytes without their padding. -/
def airferryReceiverAssembleRaw (s : ReceiverSession E) : Option Bytes :=
  s.assembleRaw.map fun data =>
    let len := s.fileMeta.compressedSize.toNat
    if s.fileMeta.compressedSizeKnown ∧ len ≤ data.length then data.take len else data

def airferryReceiverAssemble (s : ReceiverSession E) : ReceiverSession E × Option Bytes :=
  match s.assembleResult with
  | (s, .ok data) => (s, data)
  | (s, .error _) => (s, none)

def airferryReceiverIsSegmented (s : ReceiverSession E) : Bool := s.segmentMeta.isSome

def airferryReceiverSegmentIndex (s : ReceiverSession E) : U32 :=
  (s.segmentMeta.map SegmentMeta.segmentIndex).getD 0

def airferryReceiverSegmentCount (s : ReceiverSession E) : U32 :=
  (s.segmentMeta.map SegmentMeta.segmentCount).getD 1

def airferryReceiverRootSessionIdLo (s : ReceiverSession E) : U64 :=
  (s.segmentMeta.map fun seg => seg.rootSessionId.setWidth 64).getD 0

def airferryReceiverRootSessionIdHi (s : ReceiverSession E) : U64 :=
  (s.segmentMeta.map fun seg => (seg.rootSessionId.ushiftRight 64).setWidth 64).getD 0

def airferryReceiverRootSha256 (s : ReceiverSession E) : Option (Octets 32) :=
  s.segmentMeta.map SegmentMeta.rootSha256

def eqIgnoreAsciiCase (a b : String) : Bool := a.toLower = b.toLower

/-- `airferry_decompress_stream_to_file`: the file left at the output path when it returns 1. -/
def airferryDecompressStreamToFile (E : Env) (input : Bytes) (compression : U8)
    (maxOutput expectedSize : U64) (expectedCrc : U32) (crcKnown : Bool) (expectedSha : String) :
    Option Bytes :=
  match decompressStreamToFile E.codecs E.crc32 E.sha256 input compression maxOutput.toNat with
  | .error _ => none
  | .ok (output, outcome) =>
      if outcome.outputSize ≠ expectedSize.toNat then none
      else if crcKnown ∧ outcome.crc32 ≠ expectedCrc then none
      else if ¬ eqIgnoreAsciiCase (Hex.encode outcome.sha256.1) expectedSha then none
      else some output

theorem airferryDecompressStreamToFile_some {input : Bytes} {compression : U8}
    {maxOutput expectedSize : U64} {expectedCrc : U32} {crcKnown : Bool} {expectedSha : String}
    {output : Bytes}
    (h : airferryDecompressStreamToFile E input compression maxOutput expectedSize expectedCrc
      crcKnown expectedSha = some output) :
    output.length = expectedSize.toNat ∧ (crcKnown = true → E.crc32 output = expectedCrc) := by
  unfold airferryDecompressStreamToFile at h
  split at h
  · cases h
  · rename_i file outcome decoded
    obtain ⟨-, size, crc, -⟩ := decompressStreamToFile_ok decoded
    split at h
    · cases h
    rename_i sized
    split at h
    · cases h
    rename_i checked
    split at h
    · cases h
    · cases h
      refine ⟨by omega, fun known => ?_⟩
      by_contra differs
      exact checked ⟨known, by rw [crc]; exact differs⟩

/-- The same call with its paths, and the files it leaves. A null argument is `none`. -/
def airferryDecompressStreamToFileOn {crc32 : Bytes → U32} {sha256 : Bytes → Octets 32}
    (host : Streaming.Host crc32 sha256) (disk : Streaming.Disk)
    (inputPath outputPath expectedShaHex : Option String) (compression : U8)
    (maxOutput expectedSize : U64) (expectedCrc : U32) (crcKnown : Bool) : Streaming.Disk × Nat :=
  match inputPath, outputPath, expectedShaHex with
  | some input, some output, some expectedSha =>
      match host.decompressStreamToFile disk input output compression maxOutput with
      | (disk, .error _) => (disk, 0)
      | (disk, .ok outcome) =>
          if outcome.outputSize ≠ expectedSize.toNat then (disk.remove output, 0)
          else if crcKnown ∧ outcome.crc32 ≠ expectedCrc then (disk.remove output, 0)
          else if ¬ eqIgnoreAsciiCase (Hex.encode outcome.sha256.1) expectedSha then
            (disk.remove output, 0)
          else (disk, 1)
  | _, _, _ => (disk, 0)

end AirFerry.TransferEngine
