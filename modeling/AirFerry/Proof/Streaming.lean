import AirFerry.TransferEngine.ReceiverAbi

/-!
# Streaming and in-memory decompression

Both read the same decoder through the same cap. What the reads yield together decides both, so the
chunks, the incremental digests and the buffered writer leave no trace in the result.
-/

namespace AirFerry.Proof
open Library Library.Chunked Library.BufWriter QrProtocol QrProtocol.Streaming TransferEngine

variable {crc32 : Bytes → U32} {sha256 : Bytes → Octets 32}

/-! ## The decoder of a compression tag -/

def decoderFor (codecs : Codecs) (compression : U8) (input : Bytes) : Except String DecodeStream :=
  if compression = compressionZstd then codecs.zstdDecoder input
  else if compression = compressionXz then codecs.xzDecoder input
  else if isKnownCompressionTag compression ∨ input = [] then .ok { bytes := input, failure := none }
  else .error s!"unknown compression algorithm tag {compression.toNat}"

theorem readLimit_lt (maxOutput : U64) : readLimit maxOutput < 2 ^ 64 := by
  unfold readLimit
  omega

theorem length_content_lt (stream : DecodeStream) (maxOutput : U64) :
    (capped stream maxOutput).content.length < 2 ^ 64 :=
  lt_of_le_of_lt (Take.length_content_le _) (readLimit_lt maxOutput)

theorem readCapped_ok_iff {chunking : Chunking} {stream : DecodeStream} {maxOutput : U64} {v : Bytes} :
    Streaming.readCapped chunking stream maxOutput = .ok v ↔
      (capped stream maxOutput).ending = none ∧ (capped stream maxOutput).content = v ∧
        v.length ≤ maxOutput.toNat := by
  rw [Streaming.readCapped, Take.readToEnd_eq]
  cases (capped stream maxOutput).ending with
  | some reason => exact iff_of_false nofun fun both => nomatch both.1
  | none =>
      simp only [List.nil_append, true_and]
      split
      · rename_i long
        refine iff_of_false nofun ?_
        rintro ⟨rfl, short⟩
        omega
      · rename_i short
        rw [Except.ok.injEq]
        constructor
        · rintro rfl
          exact ⟨rfl, not_lt.mp short⟩
        · exact And.left

theorem capped_plain {input : Bytes} (size : input.length < 2 ^ 64) {maxOutput : U64}
    (short : (capped { bytes := input, failure := none } maxOutput).content.length ≤ maxOutput.toNat ∨
      input.length ≤ maxOutput.toNat) :
    (capped { bytes := input, failure := none } maxOutput).content = input ∧
      input.length ≤ maxOutput.toNat := by
  have bound := maxOutput.isLt
  have length : (capped { bytes := input, failure := none } maxOutput).content.length =
      min (min (maxOutput.toNat + 1) (2 ^ 64 - 1)) input.length := List.length_take
  have small : input.length ≤ maxOutput.toNat := by omega
  refine ⟨List.take_of_length_le ?_, small⟩
  change input.length ≤ min (maxOutput.toNat + 1) (2 ^ 64 - 1)
  omega

theorem decompressWithLimit_ok_iff {codecs : Codecs} {chunking : Chunking} {data : Bytes}
    (size : data.length < 2 ^ 64) {compression : U8} {maxOutput : U64} {v : Bytes} :
    Streaming.decompressWithLimit codecs chunking data compression maxOutput = .ok v ↔
      ∃ stream, decoderFor codecs compression data = .ok stream ∧
        Streaming.readCapped chunking stream maxOutput = .ok v := by
  unfold Streaming.decompressWithLimit decoderFor
  by_cases zstd : compression = compressionZstd
  · rw [if_pos zstd, if_pos zstd]
    cases codecs.zstdDecoder data with
    | error reason => exact iff_of_false nofun fun ⟨_, found, _⟩ => nomatch found
    | ok stream => simp only [Except.ok.injEq, exists_eq_left']
  rw [if_neg zstd, if_neg zstd]
  by_cases xz : compression = compressionXz
  · rw [if_pos xz, if_pos xz]
    cases codecs.xzDecoder data with
    | error reason => exact iff_of_false nofun fun ⟨_, found, _⟩ => nomatch found
    | ok stream => simp only [Except.ok.injEq, exists_eq_left']
  rw [if_neg xz, if_neg xz]
  by_cases copied : isKnownCompressionTag compression ∨ data = []
  · have known : ¬ (¬ isKnownCompressionTag compression ∧ data ≠ []) := by
      rintro ⟨unknown, some⟩
      exact copied.elim unknown some
    rw [if_neg known, if_pos copied]
    simp only [Except.ok.injEq, exists_eq_left', readCapped_ok_iff]
    constructor
    · intro whole
      split at whole
      · cases whole
      · rename_i short
        obtain rfl := Except.ok.inj whole
        obtain ⟨content, small⟩ := capped_plain size (Or.inr (not_lt.mp short))
        exact ⟨ite_self none, content, small⟩
    · rintro ⟨-, rfl, short⟩
      obtain ⟨content, small⟩ := capped_plain size (Or.inl short)
      rw [if_neg (not_lt.mpr small), content]
  · have unknown := not_or.mp copied
    rw [if_pos unknown, if_neg copied]
    exact iff_of_false nofun fun ⟨_, found, _⟩ => nomatch found

/-! ## The decode loop -/

section Host

variable {host : Streaming.Host crc32 sha256}

structure Consumed (d : Decoding host) (bytes : Bytes) : Prop where
  hashed : ∃ chunks : List Bytes, chunks.flatten = bytes ∧
    d.crc = chunks.foldl host.crc.update host.crc.new ∧
    d.sha = chunks.foldl host.sha.update host.sha.new
  written : d.written = bytes.length
  within : d.exceeded = false
  stored : d.writer.written = bytes

theorem consumed_start (host : Streaming.Host crc32 sha256) : Consumed host.start [] where
  hashed := ⟨[], rfl, rfl, rfl⟩
  written := rfl
  within := rfl
  stored := rfl

theorem Consumed.chunk {d : Decoding host} {bytes : Bytes} (h : Consumed d bytes) {chunk : Bytes}
    {writer : Writer U8} (wrote : d.writer.writeAll host.output chunk = (writer, .ok ()))
    (small : bytes.length + chunk.length < 2 ^ 64) :
    Consumed { d with
      written := min (d.written + chunk.length) (2 ^ 64 - 1)
      crc := host.crc.update d.crc chunk
      sha := host.sha.update d.sha chunk
      writer } (bytes ++ chunk) where
  hashed := by
    obtain ⟨chunks, whole, crc, sha⟩ := h.hashed
    refine ⟨chunks ++ [chunk], ?_, ?_, ?_⟩
    · rw [List.flatten_append, whole, List.flatten_singleton]
    · rw [crc, List.foldl_append]
      rfl
    · rw [sha, List.foldl_append]
      rfl
  written := by
    rw [h.written, List.length_append]
    exact min_eq_left (by omega)
  within := h.within
  stored := by
    rw [← h.stored]
    exact Writer.writeAll_ok wrote

/-- How `decode` can leave a stream that comes to `bytes` and then ends with `ending`. -/
inductive DecodeEnds (host : Streaming.Host crc32 sha256) (maxOutput : U64) (bytes : Bytes)
    (ending : Option String) : Decoding host × Except String Unit → Prop
  | finished {d : Decoding host} (within : bytes.length ≤ maxOutput.toNat) (ended : ending = none)
      (consumed : Consumed d bytes) : DecodeEnds host maxOutput bytes ending (d, .ok ())
  | exceeded {d : Decoding host} (flag : d.exceeded = true) (long : maxOutput.toNat < bytes.length) :
      DecodeEnds host maxOutput bytes ending (d, .ok ())
  | unreadable {d : Decoding host} {reason : String} (failed : ending ≠ none) :
      DecodeEnds host maxOutput bytes ending (d, .error reason)
  | unwritable {d : Decoding host} {reason : String} (unsteady : ¬ host.output.Steady) :
      DecodeEnds host maxOutput bytes ending (d, .error reason)

theorem decode_ends (host : Streaming.Host crc32 sha256) (maxOutput : U64) (reader : Take U8 String)
    (d : Decoding host) (seen : Bytes) (h : Consumed d seen)
    (within : seen.length ≤ maxOutput.toNat)
    (small : seen.length + reader.content.length < 2 ^ 64) :
    DecodeEnds host maxOutput (seen ++ reader.content) reader.ending
      (host.decode maxOutput reader d) := by
  fun_induction Host.decode host maxOutput reader d generalizing seen with
  | case1 reader d reason step =>
      have spec := @Take.read_spec _ _ host.chunking reader (256 * 1024) fun _ => by decide
      rw [step] at spec
      refine .unreadable ?_
      rw [spec.2]
      exact Option.some_ne_none reason
  | case2 reader d rest step =>
      have spec := @Take.read_spec _ _ host.chunking reader (256 * 1024) fun _ => by decide
      rw [step] at spec
      obtain ⟨content, ending⟩ := spec.2.2 rfl
      rw [content, List.append_nil]
      exact .finished within ending h
  | case3 reader d chunk rest step nonempty written long =>
      have spec := @Take.read_spec _ _ host.chunking reader (256 * 1024) fun _ => by decide
      rw [step] at spec
      refine .exceeded rfl ?_
      have length := congrArg List.length spec.1
      rw [List.length_append] at length
      rw [List.length_append]
      have counted := h.written
      omega
  | case4 reader d chunk rest step nonempty written short crc sha writer reason failed =>
      refine .unwritable fun steady => ?_
      have wrote := Writer.writeAll_steady steady d.writer chunk
      rw [failed] at wrote
      cases wrote
  | case5 reader d chunk rest step nonempty written short crc sha writer wrote ih =>
      have spec := @Take.read_spec _ _ host.chunking reader (256 * 1024) fun _ => by decide
      rw [step] at spec
      obtain ⟨content, ending, -⟩ := spec
      have length := congrArg List.length content
      rw [List.length_append] at length
      have counted := h.written
      rw [content, ← List.append_assoc, ← ending]
      apply ih (seen ++ chunk)
      · exact h.chunk wrote (by omega)
      · rw [List.length_append]
        omega
      · rw [List.length_append]
        omega

theorem ending_reachable {stream : DecodeStream} {maxOutput : U64}
    (ended : (capped (host.reachable stream) maxOutput).ending = none) :
    (capped stream maxOutput).ending = none ∧
      (capped stream maxOutput).content = (capped (host.reachable stream) maxOutput).content := by
  unfold Host.reachable at ended ⊢
  split
  · rename_i kept
    rw [kept] at ended
    exact ⟨ended, rfl⟩
  · rename_i n reason lost
    rw [lost] at ended
    simp only at ended
    split
    · rename_i cut
      rw [if_pos cut] at ended
      have length : (stream.bytes.take n).length = n := List.length_take_of_le cut
      have beyond : readLimit maxOutput ≤ n := by
        by_contra early
        rw [Take.ending] at ended
        change (if (stream.bytes.take n).length < readLimit maxOutput then some reason else none) =
          none at ended
        rw [length, if_pos (not_le.mp early)] at ended
        cases ended
      constructor
      · apply if_neg
        change ¬ stream.bytes.length < readLimit maxOutput
        omega
      · change stream.bytes.take (readLimit maxOutput) =
          (stream.bytes.take n).take (readLimit maxOutput)
        rw [List.take_take, min_eq_left beyond]
    · rename_i whole
      rw [if_neg whole] at ended
      exact ⟨ended, rfl⟩

theorem decodeFrom_ends (host : Streaming.Host crc32 sha256) (stream : DecodeStream)
    (maxOutput : U64) :
    DecodeEnds host maxOutput (capped (host.reachable stream) maxOutput).content
      (capped (host.reachable stream) maxOutput).ending (host.decodeFrom stream maxOutput) := by
  have small := length_content_lt (host.reachable stream) maxOutput
  rw [← Nat.zero_add (List.length _)] at small
  exact decode_ends host maxOutput _ host.start [] (consumed_start host) (Nat.zero_le _) small

theorem decodeInput_cases (host : Streaming.Host crc32 sha256) (input : Bytes) (compression : U8)
    (maxOutput : U64) :
    (∃ stream, decoderFor host.codecs compression input = .ok stream ∧
      host.decodeInput input compression maxOutput = host.decodeFrom stream maxOutput) ∨
    ∃ reason, host.decodeInput input compression maxOutput = (host.start, .error reason) ∧
      (host.inputMetadata = .ok () →
        ∀ stream, decoderFor host.codecs compression input ≠ .ok stream) := by
  unfold decoderFor Host.decodeInput
  by_cases zstd : compression = compressionZstd
  · rw [if_pos zstd, if_pos zstd]
    cases host.codecs.zstdDecoder input with
    | error reason => exact Or.inr ⟨_, rfl, fun _ _ => nofun⟩
    | ok stream => exact Or.inl ⟨stream, rfl, rfl⟩
  rw [if_neg zstd, if_neg zstd]
  by_cases xz : compression = compressionXz
  · rw [if_pos xz, if_pos xz]
    cases host.codecs.xzDecoder input with
    | error reason => exact Or.inr ⟨_, rfl, fun _ _ => nofun⟩
    | ok stream => exact Or.inl ⟨stream, rfl, rfl⟩
  rw [if_neg xz, if_neg xz]
  by_cases copied : isKnownCompressionTag compression ∨ (host.inputMetadata = .ok () ∧ input = [])
  · rw [if_pos copied, if_pos (copied.imp_right And.right)]
    exact Or.inl ⟨_, rfl, rfl⟩
  · rw [if_neg copied]
    refine Or.inr ⟨_, rfl, fun metadata stream found => ?_⟩
    rw [if_neg fun known => copied (known.imp_right fun empty => ⟨metadata, empty⟩)] at found
    cases found

/-! ## The output file -/

theorem abandon_eq (disk : Disk) (outputPath : String) (writer : Writer U8) :
    host.abandon disk outputPath writer = disk.remove outputPath :=
  Function.update_idem _ _ _

theorem store_remove (disk : Disk) (path : String) (contents : Bytes) :
    (disk.store path contents).remove path = disk.remove path :=
  Function.update_idem _ _ _

theorem finish_error {disk disk' : Disk} {outputPath : String}
    {result : Decoding host × Except String Unit} {e : String}
    (h : host.finish disk outputPath result = (disk', .error e)) : disk' = disk.remove outputPath := by
  obtain ⟨d, ended⟩ := result
  cases ended with
  | error reason =>
      cases h
      exact abandon_eq disk outputPath d.writer
  | ok _ =>
      rw [Host.finish] at h
      split at h
      · cases h
        exact abandon_eq disk outputPath d.writer
      · split at h
        · cases h
          exact abandon_eq disk outputPath _
        · cases h

theorem finish_stores {disk disk' : Disk} {outputPath : String}
    {result : Decoding host × Except String Unit} {outcome : DecompressStreamOutcome}
    (h : host.finish disk outputPath result = (disk', .ok outcome)) :
    ∃ contents, disk' = disk.store outputPath contents := by
  obtain ⟨d, ended⟩ := result
  cases ended with
  | error reason => cases h
  | ok _ =>
      rw [Host.finish] at h
      split at h
      · cases h
      · split at h
        · cases h
        · cases h
          exact ⟨_, rfl⟩

def outcomeOf (crc32 : Bytes → U32) (sha256 : Bytes → Octets 32) (v : Bytes) :
    DecompressStreamOutcome :=
  { outputSize := v.length, crc32 := crc32 v, sha256 := sha256 v }

theorem Consumed.outcome {d : Decoding host} {bytes : Bytes} (h : Consumed d bytes) :
    ({ outputSize := d.written, crc32 := host.crc.finalize d.crc,
        sha256 := host.sha.finalize d.sha } : DecompressStreamOutcome) =
      outcomeOf crc32 sha256 bytes := by
  obtain ⟨chunks, rfl, crc, sha⟩ := h.hashed
  rw [h.written, crc, sha, host.crc.finalize_chunks, host.sha.finalize_chunks]
  rfl

theorem finish_ok {disk disk' : Disk} {outputPath : String} {maxOutput : U64} {bytes : Bytes}
    {ending : Option String} {result : Decoding host × Except String Unit}
    {outcome : DecompressStreamOutcome} (ends : DecodeEnds host maxOutput bytes ending result)
    (h : host.finish disk outputPath result = (disk', .ok outcome)) :
    ending = none ∧ bytes.length ≤ maxOutput.toNat ∧ disk' = disk.store outputPath bytes ∧
      outcome = outcomeOf crc32 sha256 bytes := by
  cases ends with
  | finished within ended consumed =>
      rw [Host.finish, consumed.within, if_neg Bool.false_ne_true] at h
      split at h
      · cases h
      · rename_i writer flushed
        cases h
        rw [Writer.flush_ok flushed, consumed.stored]
        exact ⟨ended, within, rfl, consumed.outcome⟩
  | exceeded flag =>
      rw [Host.finish, if_pos flag] at h
      cases h
  | unreadable => cases h
  | unwritable => cases h

theorem finish_steady {disk : Disk} {outputPath : String} {maxOutput : U64} {bytes : Bytes}
    {result : Decoding host × Except String Unit} (steady : host.output.Steady)
    (ends : DecodeEnds host maxOutput bytes none result) (within : bytes.length ≤ maxOutput.toNat) :
    host.finish disk outputPath result =
      (disk.store outputPath bytes, .ok (outcomeOf crc32 sha256 bytes)) := by
  cases ends with
  | @finished d _ _ consumed =>
      have synced := Writer.flush_steady steady d.writer
      rw [Host.finish, consumed.within, if_neg Bool.false_ne_true]
      split
      · rename_i failed
        rw [failed] at synced
        cases synced
      · rename_i writer flushed
        rw [Writer.flush_ok flushed, consumed.stored, consumed.outcome]
  | exceeded flag long => exact absurd within (not_le.mpr long)
  | unreadable failed => exact absurd rfl failed
  | unwritable unsteady => exact absurd steady unsteady

/-! ## The whole call -/

def Creates (host : Streaming.Host crc32 sha256) (disk : Disk) (inputPath : String) : Prop :=
  host.openInput = .ok () ∧ disk inputPath ≠ none ∧ host.createOutput = .ok ()

/-- No file that the call created is left: the output is gone, or nothing was touched. -/
def Cleaned (host : Streaming.Host crc32 sha256) (disk : Disk) (inputPath outputPath : String)
    (disk' : Disk) : Prop :=
  (Creates host disk inputPath ∧ disk' = disk.remove outputPath) ∨
    (¬ Creates host disk inputPath ∧ disk' = disk)

theorem decompressStreamToFile_created {disk : Disk} {inputPath outputPath : String}
    {compression : U8} {maxOutput : U64} (created : Creates host disk inputPath) :
    host.decompressStreamToFile disk inputPath outputPath compression maxOutput =
      host.finish (disk.store outputPath []) outputPath
        (host.decodeInput (((disk.store outputPath []) inputPath).getD []) compression maxOutput) := by
  obtain ⟨opened, present, create⟩ := created
  obtain ⟨bytes, found⟩ := Option.ne_none_iff_exists'.mp present
  unfold Host.decompressStreamToFile
  simp only [opened, found, create]

theorem decompressStreamToFile_uncreated {disk : Disk} {inputPath : String}
    (uncreated : ¬ Creates host disk inputPath) (outputPath : String) (compression : U8)
    (maxOutput : U64) :
    ∃ reason, host.decompressStreamToFile disk inputPath outputPath compression maxOutput =
      (disk, .error reason) := by
  unfold Host.decompressStreamToFile
  split
  · exact ⟨_, rfl⟩
  · exact ⟨_, rfl⟩
  · rename_i opened found
    split
    · exact ⟨_, rfl⟩
    · rename_i create
      refine absurd ⟨opened, ?_, create⟩ uncreated
      rw [found]
      exact Option.some_ne_none _

/-- The input is a file of its own. Its length is a `u64`, as every file's is. -/
structure Separate (disk : Disk) (inputPath outputPath : String) (bytes : Bytes) : Prop where
  distinct : inputPath ≠ outputPath
  present : disk inputPath = some bytes
  size : bytes.length < 2 ^ 64

structure Undisturbed (host : Streaming.Host crc32 sha256) (disk : Disk)
    (inputPath outputPath : String) (bytes : Bytes) : Prop
    extends Separate disk inputPath outputPath bytes where
  openInput : host.openInput = .ok ()
  createOutput : host.createOutput = .ok ()
  inputMetadata : host.inputMetadata = .ok ()
  inputLost : host.inputLost = none
  output : host.output.Steady

variable {disk disk' : Disk} {inputPath outputPath : String} {bytes : Bytes} {compression : U8}
  {maxOutput : U64} {outcome : DecompressStreamOutcome}

theorem store_store (disk : Disk) (path : String) (before after : Bytes) :
    (disk.store path before).store path after = disk.store path after :=
  Function.update_idem _ _ _

theorem Separate.input (h : Separate disk inputPath outputPath bytes) :
    ((disk.store outputPath []) inputPath).getD [] = bytes := by
  rw [Disk.store, Function.update_of_ne h.distinct, h.present]
  rfl

theorem decompressStreamToFile_ok (h : Separate disk inputPath outputPath bytes)
    (run : host.decompressStreamToFile disk inputPath outputPath compression maxOutput =
      (disk', .ok outcome)) (chunking : Chunking) :
    ∃ v, Streaming.decompressWithLimit host.codecs chunking bytes compression maxOutput = .ok v ∧
      v.length ≤ maxOutput.toNat ∧ disk' = disk.store outputPath v ∧
      outcome = outcomeOf crc32 sha256 v := by
  by_cases created : Creates host disk inputPath
  · rw [decompressStreamToFile_created created, h.input] at run
    rcases decodeInput_cases host bytes compression maxOutput with
      ⟨stream, found, decoded⟩ | ⟨reason, failed, -⟩
    · rw [decoded] at run
      obtain ⟨ended, within, stored, reported⟩ := finish_ok (decodeFrom_ends host stream maxOutput) run
      obtain ⟨ended', content⟩ := ending_reachable ended
      rw [← content] at within stored reported
      refine ⟨_, ?_, within, stored.trans (store_store _ _ _ _), reported⟩
      exact (decompressWithLimit_ok_iff h.size).mpr
        ⟨stream, found, readCapped_ok_iff.mpr ⟨ended', rfl, within⟩⟩
    · rw [failed] at run
      cases run
  · obtain ⟨reason, failed⟩ :=
      decompressStreamToFile_uncreated created outputPath compression maxOutput
    rw [failed] at run
    cases run

theorem decompressStreamToFile_of_ok (h : Undisturbed host disk inputPath outputPath bytes)
    {chunking : Chunking} {v : Bytes}
    (whole : Streaming.decompressWithLimit host.codecs chunking bytes compression maxOutput = .ok v) :
    host.decompressStreamToFile disk inputPath outputPath compression maxOutput =
      (disk.store outputPath v, .ok (outcomeOf crc32 sha256 v)) := by
  have created : Creates host disk inputPath := by
    refine ⟨h.openInput, ?_, h.createOutput⟩
    rw [h.present]
    exact Option.some_ne_none bytes
  obtain ⟨stream, found, read⟩ := (decompressWithLimit_ok_iff h.size).mp whole
  obtain ⟨ended, rfl, within⟩ := readCapped_ok_iff.mp read
  have kept : host.reachable stream = stream := by
    rw [Host.reachable, h.inputLost]
  have ends := decodeFrom_ends host stream maxOutput
  rw [kept, ended] at ends
  rw [decompressStreamToFile_created created, h.input]
  rcases decodeInput_cases host bytes compression maxOutput with
    ⟨stream', found', decoded⟩ | ⟨reason, -, refused⟩
  · obtain rfl := Except.ok.inj (found.symm.trans found')
    rw [decoded]
    rw [finish_steady h.output ends within, store_store]
  · exact absurd found (refused h.inputMetadata stream)

theorem decompressStreamToFile_error {e : String}
    (run : host.decompressStreamToFile disk inputPath outputPath compression maxOutput =
      (disk', .error e)) : Cleaned host disk inputPath outputPath disk' := by
  by_cases created : Creates host disk inputPath
  · rw [decompressStreamToFile_created created] at run
    exact Or.inl ⟨created, (finish_error run).trans (store_remove _ _ _)⟩
  · obtain ⟨reason, failed⟩ :=
      decompressStreamToFile_uncreated created outputPath compression maxOutput
    rw [failed] at run
    cases run
    exact Or.inr ⟨created, rfl⟩

theorem decompressStreamToFile_stores
    (run : host.decompressStreamToFile disk inputPath outputPath compression maxOutput =
      (disk', .ok outcome)) :
    Creates host disk inputPath ∧ ∃ contents, disk' = disk.store outputPath contents := by
  by_cases created : Creates host disk inputPath
  · rw [decompressStreamToFile_created created] at run
    obtain ⟨contents, stored⟩ := finish_stores run
    exact ⟨created, contents, stored.trans (store_store _ _ _ _)⟩
  · obtain ⟨reason, failed⟩ :=
      decompressStreamToFile_uncreated created outputPath compression maxOutput
    rw [failed] at run
    cases run

/-! ## The exported function -/

structure AsExpected (crc32 : Bytes → U32) (sha256 : Bytes → Octets 32) (expectedSize : U64)
    (expectedCrc : U32) (crcKnown : Bool) (expectedSha : String) (v : Bytes) : Prop where
  size : v.length = expectedSize.toNat
  crc : crcKnown = true → crc32 v = expectedCrc
  sha : eqIgnoreAsciiCase (Hex.encode (sha256 v).1) expectedSha = true

theorem airferryDecompressStreamToFileOn_ok (expectedSize : U64) (expectedCrc : U32)
    (crcKnown : Bool) (expectedSha : String)
    (run : host.decompressStreamToFile disk inputPath outputPath compression maxOutput =
      (disk', .ok outcome)) :
    (airferryDecompressStreamToFileOn host disk (some inputPath) (some outputPath)
        (some expectedSha) compression maxOutput expectedSize expectedCrc crcKnown = (disk', 1) ∧
      outcome.outputSize = expectedSize.toNat ∧
      (crcKnown = true → outcome.crc32 = expectedCrc) ∧
      eqIgnoreAsciiCase (Hex.encode outcome.sha256.1) expectedSha = true) ∨
    airferryDecompressStreamToFileOn host disk (some inputPath) (some outputPath) (some expectedSha)
      compression maxOutput expectedSize expectedCrc crcKnown = (disk'.remove outputPath, 0) := by
  unfold airferryDecompressStreamToFileOn
  simp only [run]
  by_cases size : outcome.outputSize ≠ expectedSize.toNat
  · exact Or.inr (if_pos size)
  rw [if_neg size]
  by_cases crc : crcKnown = true ∧ outcome.crc32 ≠ expectedCrc
  · exact Or.inr (if_pos crc)
  rw [if_neg crc]
  by_cases sha : ¬ eqIgnoreAsciiCase (Hex.encode outcome.sha256.1) expectedSha = true
  · exact Or.inr (if_pos sha)
  rw [if_neg sha]
  refine Or.inl ⟨rfl, not_not.mp size, fun known => ?_, not_not.mp sha⟩
  by_contra differs
  exact crc ⟨known, differs⟩

theorem airferryDecompressStreamToFileOn_cases {expectedSize : U64} {expectedCrc : U32}
    {crcKnown : Bool} {expectedSha : String} {status : Nat}
    (call : airferryDecompressStreamToFileOn host disk (some inputPath) (some outputPath)
      (some expectedSha) compression maxOutput expectedSize expectedCrc crcKnown = (disk', status)) :
    (status = 0 ∧ Cleaned host disk inputPath outputPath disk') ∨
      (status = 1 ∧ ∀ bytes, Separate disk inputPath outputPath bytes → ∀ chunking,
        ∃ v, Streaming.decompressWithLimit host.codecs chunking bytes compression maxOutput = .ok v ∧
          disk' = disk.store outputPath v ∧
          AsExpected crc32 sha256 expectedSize expectedCrc crcKnown expectedSha v) := by
  cases run : host.decompressStreamToFile disk inputPath outputPath compression maxOutput with
  | mk left result =>
      cases result with
      | error e =>
          unfold airferryDecompressStreamToFileOn at call
          simp only [run] at call
          cases call
          exact Or.inl ⟨rfl, decompressStreamToFile_error run⟩
      | ok outcome =>
          rcases airferryDecompressStreamToFileOn_ok expectedSize expectedCrc crcKnown expectedSha run
            with ⟨accepted, size, crc, sha⟩ | refused
          · rw [accepted] at call
            cases call
            refine Or.inr ⟨rfl, fun bytes separate chunking => ?_⟩
            obtain ⟨v, whole, -, stored, rfl⟩ := decompressStreamToFile_ok separate run chunking
            exact ⟨v, whole, stored, size, crc, sha⟩
          · rw [refused] at call
            cases call
            obtain ⟨created, contents, rfl⟩ := decompressStreamToFile_stores run
            exact Or.inl ⟨rfl, Or.inl ⟨created, store_remove _ _ _⟩⟩

/-! ## The closed forms -/

theorem readCapped_closed (chunking : Chunking) (stream : DecodeStream) {maxOutput : U64}
    (notLargest : maxOutput.toNat < 2 ^ 64 - 1) :
    Streaming.readCapped chunking stream maxOutput =
      QrProtocol.readCapped stream maxOutput.toNat := by
  have limit : readLimit maxOutput = maxOutput.toNat + 1 := min_eq_left notLargest
  have content : (capped stream maxOutput).content = stream.bytes.take (maxOutput.toNat + 1) := by
    rw [← limit]
    rfl
  have ending : (capped stream maxOutput).ending =
      if stream.bytes.length < maxOutput.toNat + 1 then stream.failure else none := by
    rw [← limit]
    rfl
  rw [Streaming.readCapped, QrProtocol.readCapped, Take.readToEnd_eq, content, ending]
  by_cases short : stream.bytes.length ≤ maxOutput.toNat
  · rw [if_pos (Nat.lt_succ_of_le short), if_pos short, List.take_of_length_le (by omega)]
    cases stream.failure with
    | some reason => rfl
    | none => exact if_neg (not_lt.mpr short)
  · rw [if_neg (by omega), if_neg short]
    apply if_pos
    rw [List.nil_append, List.length_take_of_le (by omega)]
    omega

theorem decompressWithLimit_closed (codecs : Codecs) (chunking : Chunking) (data : Bytes)
    (compression : U8) {maxOutput : U64} (notLargest : maxOutput.toNat < 2 ^ 64 - 1) :
    Streaming.decompressWithLimit codecs chunking data compression maxOutput =
      QrProtocol.decompressWithLimit codecs data compression maxOutput.toNat := by
  unfold Streaming.decompressWithLimit QrProtocol.decompressWithLimit
  by_cases zstd : compression = compressionZstd
  · rw [if_pos zstd, if_pos zstd]
    cases codecs.zstdDecoder data with
    | error reason => rfl
    | ok stream => exact readCapped_closed chunking stream notLargest
  rw [if_neg zstd, if_neg zstd]
  by_cases xz : compression = compressionXz
  · rw [if_pos xz, if_pos xz]
    cases codecs.xzDecoder data with
    | error reason => rfl
    | ok stream => exact readCapped_closed chunking stream notLargest
  · rw [if_neg xz, if_neg xz]

theorem decodeToFile_ok_iff {stream : DecodeStream} {maxOutput : Nat} {v : Bytes} :
    QrProtocol.decodeToFile crc32 sha256 stream maxOutput = .ok (v, outcome) ↔
      QrProtocol.readCapped stream maxOutput = .ok v ∧ outcome = outcomeOf crc32 sha256 v := by
  unfold QrProtocol.decodeToFile QrProtocol.readCapped
  split
  · cases stream.failure with
    | some reason => exact iff_of_false nofun fun both => nomatch both.1
    | none =>
        simp only [Except.ok.injEq, Prod.mk.injEq]
        constructor
        · rintro ⟨rfl, rfl⟩
          exact ⟨rfl, rfl⟩
        · rintro ⟨rfl, rfl⟩
          exact ⟨rfl, rfl⟩
  · exact iff_of_false nofun fun both => nomatch both.1

theorem closed_ok_iff {codecs : Codecs} {input : Bytes} {maxOutput : Nat} {v : Bytes} :
    QrProtocol.decompressStreamToFile codecs crc32 sha256 input compression maxOutput =
        .ok (v, outcome) ↔
      QrProtocol.decompressWithLimit codecs input compression maxOutput = .ok v ∧
        outcome = outcomeOf crc32 sha256 v := by
  unfold QrProtocol.decompressStreamToFile QrProtocol.decompressWithLimit
  by_cases zstd : compression = compressionZstd
  · rw [if_pos zstd, if_pos zstd]
    cases codecs.zstdDecoder input with
    | error reason => exact iff_of_false nofun fun both => nomatch both.1
    | ok stream => exact decodeToFile_ok_iff
  rw [if_neg zstd, if_neg zstd]
  by_cases xz : compression = compressionXz
  · rw [if_pos xz, if_pos xz]
    cases codecs.xzDecoder input with
    | error reason => exact iff_of_false nofun fun both => nomatch both.1
    | ok stream => exact decodeToFile_ok_iff
  rw [if_neg xz, if_neg xz]
  by_cases copied : isKnownCompressionTag compression ∨ input = []
  · have known : ¬ (¬ isKnownCompressionTag compression ∧ input ≠ []) := by
      rintro ⟨unknown, some⟩
      exact copied.elim unknown some
    have copy : QrProtocol.readCapped { bytes := input, failure := none } maxOutput = .ok v ↔
        (if maxOutput < input.length then .error "payload exceeds size limit"
          else Except.ok input) = .ok v := by
      by_cases short : input.length ≤ maxOutput
      · rw [QrProtocol.readCapped, if_pos short, if_neg (not_lt.mpr short)]
      · rw [QrProtocol.readCapped, if_neg short, if_pos (not_le.mp short)]
        exact iff_of_false nofun nofun
    rw [if_pos copied, if_neg known, decodeToFile_ok_iff, copy]
  · rw [if_neg copied, if_pos (not_or.mp copied)]
    exact iff_of_false nofun fun both => nomatch both.1

theorem decompressStreamToFile_refines (h : Undisturbed host disk inputPath outputPath bytes)
    (notLargest : maxOutput.toNat < 2 ^ 64 - 1) :
    host.decompressStreamToFile disk inputPath outputPath compression maxOutput =
        (disk', .ok outcome) ↔
      ∃ v, QrProtocol.decompressStreamToFile host.codecs crc32 sha256 bytes compression
          maxOutput.toNat = .ok (v, outcome) ∧ disk' = disk.store outputPath v := by
  simp only [closed_ok_iff,
    ← decompressWithLimit_closed host.codecs host.chunking bytes compression notLargest]
  constructor
  · intro run
    obtain ⟨v, whole, -, stored, reported⟩ :=
      decompressStreamToFile_ok h.toSeparate run host.chunking
    exact ⟨v, ⟨whole, reported⟩, stored⟩
  · rintro ⟨v, ⟨whole, rfl⟩, rfl⟩
    exact decompressStreamToFile_of_ok h whole

theorem store_injective {v v' : Bytes} (same : disk.store outputPath v = disk.store outputPath v') :
    v = v' := by
  have here := congrFun same outputPath
  rw [Disk.store, Disk.store, Function.update_self, Function.update_self] at here
  exact Option.some.inj here

theorem refused_ne (left right : Disk) : ((left, 0) : Disk × Nat) ≠ (right, 1) :=
  fun same => absurd (congrArg Prod.snd same) Nat.zero_ne_one

theorem airferryDecompressStreamToFileOn_refines {E : Env} {host : Streaming.Host E.crc32 E.sha256}
    (codecs : host.codecs = E.codecs) (h : Undisturbed host disk inputPath outputPath bytes)
    (notLargest : maxOutput.toNat < 2 ^ 64 - 1) (expectedSize : U64) (expectedCrc : U32)
    (crcKnown : Bool) (expectedSha : String) (v : Bytes) :
    airferryDecompressStreamToFileOn host disk (some inputPath) (some outputPath) (some expectedSha)
        compression maxOutput expectedSize expectedCrc crcKnown = (disk.store outputPath v, 1) ↔
      airferryDecompressStreamToFile E bytes compression maxOutput expectedSize expectedCrc crcKnown
        expectedSha = some v := by
  unfold airferryDecompressStreamToFileOn airferryDecompressStreamToFile
  rw [← codecs]
  cases closed : QrProtocol.decompressStreamToFile host.codecs E.crc32 E.sha256 bytes compression
      maxOutput.toNat with
  | error reason =>
      cases run : host.decompressStreamToFile disk inputPath outputPath compression maxOutput with
      | mk disk' result =>
          cases result with
          | error e =>
              simp only [run]
              exact iff_of_false (refused_ne _ _) nofun
          | ok outcome =>
              obtain ⟨v, found, -⟩ := (decompressStreamToFile_refines h notLargest).mp run
              rw [closed] at found
              cases found
  | ok output =>
      obtain ⟨file, outcome⟩ := output
      have run := (decompressStreamToFile_refines h notLargest).mpr ⟨file, closed, rfl⟩
      simp only [run]
      split
      · exact iff_of_false (refused_ne _ _) nofun
      split
      · exact iff_of_false (refused_ne _ _) nofun
      split
      · exact iff_of_false (refused_ne _ _) nofun
      · rw [Prod.mk.injEq, and_iff_left rfl, Option.some.injEq]
        exact ⟨store_injective, congrArg _⟩

/-! ## A host that never fails -/

def gathering {α : Type} (digest : Bytes → α) : Hasher digest where
  State := Bytes
  new := []
  update := fun bytes chunk => bytes ++ chunk
  finalize := digest
  finalize_chunks := fun chunks => by
    rw [List.foldl_append_eq_append, List.map_id', List.nil_append]

def faultless (crc32 : Bytes → U32) (sha256 : Bytes → Octets 32) (codecs : Codecs)
    (chunking : Chunking) : Streaming.Host crc32 sha256 where
  codecs := codecs
  crc := gathering crc32
  sha := gathering sha256
  chunking := chunking
  openInput := .ok ()
  createOutput := .ok ()
  inputMetadata := .ok ()
  inputLost := none
  output := { accept := fun n => .ok (n + 1), stuck := "failed to write whole buffer", sync := .ok () }

theorem faultless_undisturbed (h : Separate disk inputPath outputPath bytes) (codecs : Codecs)
    (chunking : Chunking) :
    Undisturbed (faultless crc32 sha256 codecs chunking) disk inputPath outputPath bytes :=
  { h with
    openInput := rfl
    createOutput := rfl
    inputMetadata := rfl
    inputLost := rfl
    output := ⟨fun n => ⟨n + 1, Nat.succ_pos n, rfl⟩, rfl⟩ }

/-! ## Both ways -/

theorem streaming_agrees (host : Streaming.Host crc32 sha256) (disk : Disk) (compression : U8)
    (maxOutput : U64) :
    (∀ inputPath outputPath bytes, Undisturbed host disk inputPath outputPath bytes →
      ∀ chunking disk' outcome,
        host.decompressStreamToFile disk inputPath outputPath compression maxOutput =
            (disk', .ok outcome) ↔
          ∃ v, Streaming.decompressWithLimit host.codecs chunking bytes compression maxOutput =
              .ok v ∧ v.length ≤ maxOutput.toNat ∧ disk' = disk.store outputPath v ∧
            outcome = { outputSize := v.length, crc32 := crc32 v, sha256 := sha256 v }) ∧
    (∀ inputPath outputPath disk' e,
      host.decompressStreamToFile disk inputPath outputPath compression maxOutput =
        (disk', .error e) → Cleaned host disk inputPath outputPath disk') ∧
    (∀ inputPath outputPath expectedSha expectedSize expectedCrc crcKnown disk' status,
      airferryDecompressStreamToFileOn host disk (some inputPath) (some outputPath)
        (some expectedSha) compression maxOutput expectedSize expectedCrc crcKnown =
          (disk', status) →
      (status = 0 ∧ Cleaned host disk inputPath outputPath disk') ∨
        (status = 1 ∧ ∀ bytes, Separate disk inputPath outputPath bytes → ∀ chunking,
          ∃ v, Streaming.decompressWithLimit host.codecs chunking bytes compression maxOutput =
              .ok v ∧ disk' = disk.store outputPath v ∧
            AsExpected crc32 sha256 expectedSize expectedCrc crcKnown expectedSha v)) ∧
    ∀ inputPath outputPath expectedSha expectedSize expectedCrc crcKnown,
      inputPath = none ∨ outputPath = none ∨ expectedSha = none →
      airferryDecompressStreamToFileOn host disk inputPath outputPath expectedSha compression
        maxOutput expectedSize expectedCrc crcKnown = (disk, 0) := by
  refine ⟨?_, fun _ _ _ _ run => decompressStreamToFile_error run,
    fun _ _ _ _ _ _ _ _ call => airferryDecompressStreamToFileOn_cases call, ?_⟩
  · intro inputPath outputPath bytes calm chunking disk' outcome
    constructor
    · intro run
      exact decompressStreamToFile_ok calm.toSeparate run chunking
    · rintro ⟨v, whole, -, rfl, rfl⟩
      exact decompressStreamToFile_of_ok calm whole
  · rintro inputPath outputPath expectedSha _ _ _ (rfl | rfl | rfl)
    · rfl
    · cases inputPath <;> rfl
    · cases inputPath with
      | none => rfl
      | some input => cases outputPath <;> rfl

end Host

end AirFerry.Proof
