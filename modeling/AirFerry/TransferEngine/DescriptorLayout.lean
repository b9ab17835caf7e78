import AirFerry.TransferEngine.Descriptor

/-!
# The layout of a descriptor

A payload parses exactly when it starts with a header and a tail of its version. Whatever follows
them is padding.
-/

namespace AirFerry.TransferEngine.Descriptor
open Library QrProtocol RaptorqCore

def header (version : U8) (m : ObjectMeta) : Bytes :=
  descMagic :: version :: (toBe 2 (BitVec.ofNat 16 m.blocks.length) ++ (toBe 8 m.transferLength ++
    (toBe 4 m.symbolSize ++ (m.otiBytes.1 ++ m.blocks.flatMap blockBytes))))

def nameTail (filename : String) (originalSize : U64) (crc32 : U32) : Bytes :=
  BitVec.ofNat 8 (Utf8.encode filename).length ::
    (Utf8.encode filename ++ (toBe 8 originalSize ++ toBe 4 crc32))

def sizeTail (compression : U8) (compressedSize : U64) : Bytes :=
  compression :: toBe 8 compressedSize

inductive FileTail (version : U8) : FileMeta → Bytes → Prop
  | named (filename : String) (originalSize : U64) (crc32 : U32)
      (older : version.toNat < descV3Version.toNat)
      (short : (Utf8.encode filename).length ≤ 255) :
      FileTail version {
        filename := filename, originalSize, crc32, compression := compressionNone,
        compressedSize := originalSize, compressedSizeKnown := true, crc32Known := true }
        (nameTail filename originalSize crc32)
  | sized (filename : String) (originalSize : U64) (crc32 : U32) (compression : U8)
      (compressedSize : U64) (newer : descV3Version.toNat ≤ version.toNat)
      (short : (Utf8.encode filename).length ≤ 255) :
      FileTail version {
        filename := filename, originalSize, crc32, compression, compressedSize,
        compressedSizeKnown := true, crc32Known := true }
        (nameTail filename originalSize crc32 ++ sizeTail compression compressedSize)

inductive Tail : U8 → FileMeta → Option SegmentMeta → Bytes → Prop
  | bare : Tail 1 .default none []
  | single {version : U8} {fileMeta : FileMeta} {tail : Bytes} (known : version = 2 ∨ version = 3)
      (file : FileTail version fileMeta tail) : Tail version fileMeta none tail
  | segmented {fileMeta : FileMeta} {tail : Bytes} (segment : SegmentMeta)
      (file : FileTail descVersion fileMeta tail) :
      Tail descVersion fileMeta (some segment) (tail ++ segmentTail segment)

/-! ## The block table -/

@[simp] theorem length_blockBytes (b : SourceBlockMeta) : (blockBytes b).length = 16 := by
  simp [blockBytes]

theorem length_table (blocks : List SourceBlockMeta) :
    (blocks.flatMap blockBytes).length = blocks.length * 16 := by
  induction blocks with
  | nil => rfl
  | cons b rest ih =>
      rw [List.flatMap_cons, List.length_append, ih, length_blockBytes, List.length_cons]
      omega

theorem parseBlocks_ahead {payload rest : Bytes} (blocks : List SourceBlockMeta) {o : Nat}
    (h : Ahead payload o (blocks.flatMap blockBytes ++ rest)) :
    parseBlocks payload blocks.length o = .ok (blocks, o + blocks.length * 16) ∧
      Ahead payload (o + blocks.length * 16) rest := by
  induction blocks generalizing o with
  | nil => exact ⟨by simp [parseBlocks], by simpa using h⟩
  | cons b others ih =>
      rw [List.flatMap_cons, blockBytes, List.append_assoc, List.append_assoc, List.append_assoc] at h
      obtain ⟨readSbn, next⟩ := h.uint (w := 32) rfl
      obtain ⟨readSymbols, next⟩ := next.uint (w := 32) rfl
      obtain ⟨readLength, next⟩ := next.uint (w := 64) rfl
      obtain ⟨readRest, final⟩ := ih next
      have stop : o + 16 + others.length * 16 = o + (others.length + 1) * 16 := by omega
      rw [Nat.add_assoc (o + 4), Nat.add_assoc o, stop] at final readRest
      refine ⟨?_, final⟩
      rw [List.length_cons, parseBlocks]
      simp only [readSbn, readSymbols, readLength, readRest, bind, Except.bind, pure, Except.pure]

theorem exists_blocks (n : Nat) {bytes : Bytes} (long : n * 16 ≤ bytes.length) :
    ∃ (blocks : List SourceBlockMeta) (rest : Bytes), blocks.length = n ∧ bytes = blocks.flatMap blockBytes ++ rest := by
  induction n generalizing bytes with
  | zero => exact ⟨[], bytes, rfl, rfl⟩
  | succ n ih =>
      obtain ⟨sbn, bytes, rfl, size⟩ := exists_toBe (w := 32) 4 rfl (by omega : 4 ≤ bytes.length)
      obtain ⟨symbols, bytes, rfl, size⟩ := exists_toBe (w := 32) 4 rfl (by omega : 4 ≤ bytes.length)
      obtain ⟨length, bytes, rfl, size⟩ := exists_toBe (w := 64) 8 rfl (by omega : 8 ≤ bytes.length)
      simp only [List.length_append, length_toBe] at long
      obtain ⟨others, rest, count, rfl⟩ := ih (by omega : n * 16 ≤ bytes.length)
      refine ⟨⟨sbn, symbols, length⟩ :: others, rest, congrArg Nat.succ count, ?_⟩
      simp [blockBytes]

/-! ## The file metadata -/

theorem length_nameTail (filename : String) (originalSize : U64) (crc32 : U32) :
    (nameTail filename originalSize crc32).length = 13 + (Utf8.encode filename).length := by
  simp [nameTail]
  omega

theorem length_sizeTail (compression : U8) (compressedSize : U64) :
    (sizeTail compression compressedSize).length = 9 := by
  simp [sizeTail]

theorem filenameLength {filename : String} (short : (Utf8.encode filename).length ≤ 255) :
    (BitVec.ofNat 8 (Utf8.encode filename).length).toNat = (Utf8.encode filename).length := by
  rw [BitVec.toNat_ofNat]
  exact Nat.mod_eq_of_lt (by omega)

theorem parseFileMeta_name {payload rest : Bytes} {o : Nat} {filename : String} {originalSize : U64}
    {crc32 : U32} (short : (Utf8.encode filename).length ≤ 255)
    (h : Ahead payload o (nameTail filename originalSize crc32 ++ rest)) (version : U8) :
    Ahead payload (o + (nameTail filename originalSize crc32).length) rest ∧
      parseFileMeta payload version o = (do
        let o := o + (nameTail filename originalSize crc32).length
        if descV3Version.toNat ≤ version.toNat then
          if payload.length < o + descV3TailFixed then return none
          let compression ← index payload o
          let compressedSize ← u64At payload (o + 1)
          return some ({
            filename := filename, originalSize, crc32, compression, compressedSize,
            compressedSizeKnown := true, crc32Known := true }, o + 9)
        else
          return some ({
            filename := filename, originalSize, crc32, compression := compressionNone,
            compressedSize := originalSize, compressedSizeKnown := true, crc32Known := true }, o)) := by
  have stop := h.skip
  have room := stop.room
  have size := length_nameTail filename originalSize crc32
  rw [nameTail, List.cons_append, List.append_assoc, List.append_assoc] at h
  obtain ⟨readLength, next⟩ := h.byte
  have readName := next.slice rfl
  have afterName := next.skip
  obtain ⟨readSize, next⟩ := afterName.uint (w := 64) rfl
  obtain ⟨readCrc, -⟩ := next.uint (w := 32) rfl
  refine ⟨stop, ?_⟩
  have here : ¬ payload.length ≤ o := by omega
  have whole : ¬ payload.length < o + 1 + (Utf8.encode filename).length + 12 := by omega
  have place : o + (nameTail filename originalSize crc32).length =
      o + 1 + (Utf8.encode filename).length + 12 := by omega
  unfold parseFileMeta
  simp only [bind, Except.bind, pure, Except.pure, if_neg here, readLength, filenameLength short,
    if_neg whole, readName, Utf8.decode_encode, readSize, readCrc, place]

theorem parseFileMeta_ahead {payload rest tail : Bytes} {o : Nat} {version : U8} {fileMeta : FileMeta}
    (file : FileTail version fileMeta tail) (h : Ahead payload o (tail ++ rest)) :
    parseFileMeta payload version o = .ok (some (fileMeta, o + tail.length)) ∧
      Ahead payload (o + tail.length) rest := by
  cases file with
  | named filename originalSize crc32 older short =>
      obtain ⟨stop, read⟩ := parseFileMeta_name short h version
      refine ⟨?_, stop⟩
      rw [read]
      simp only [if_neg (not_le.mpr older)]
      rfl
  | sized filename originalSize crc32 compression compressedSize newer short =>
      have final := h.skip
      rw [List.append_assoc] at h
      obtain ⟨next, read⟩ := parseFileMeta_name short h version
      rw [sizeTail, List.cons_append] at next
      have room := next.room
      obtain ⟨readCompression, more⟩ := next.byte
      obtain ⟨readCompressed, -⟩ := more.uint (w := 64) rfl
      have long : ¬ payload.length <
          o + (nameTail filename originalSize crc32).length + descV3TailFixed := by
        simp only [List.length_cons, List.length_append, length_toBe] at room
        simp only [descV3TailFixed]
        omega
      refine ⟨?_, final⟩
      rw [read]
      rw [List.length_append, length_sizeTail, ← Nat.add_assoc]
      simp only [bind, Except.bind, pure, Except.pure, if_pos newer, if_neg long, readCompression,
        readCompressed]

theorem exists_nameTail {bytes : Bytes} {fnLen : U8} {filename : String}
    (long : fnLen.toNat + 12 ≤ bytes.length)
    (decoded : Utf8.decode (bytes.take fnLen.toNat) = some filename) :
    ∃ originalSize crc32 rest, fnLen :: bytes = nameTail filename originalSize crc32 ++ rest ∧
      (Utf8.encode filename).length ≤ 255 := by
  have name := Utf8.decode_eq_some_iff.mp decoded
  have size : (Utf8.encode filename).length = fnLen.toNat := by
    rw [← name, List.length_take]
    omega
  have tagged : BitVec.ofNat 8 (Utf8.encode filename).length = fnLen := by
    rw [size, BitVec.ofNat_toNat, BitVec.setWidth_eq]
  have left : 12 ≤ (bytes.drop fnLen.toNat).length := by
    rw [List.length_drop]
    omega
  obtain ⟨originalSize, after, sizeThen, more⟩ :=
    exists_toBe (w := 64) 8 rfl (by omega : 8 ≤ (bytes.drop fnLen.toNat).length)
  obtain ⟨crc32, rest, crcThen, -⟩ := exists_toBe (w := 32) 4 rfl (by omega : 4 ≤ after.length)
  refine ⟨originalSize, crc32, rest, ?_, ?_⟩
  · rw [nameTail, tagged, List.cons_append, List.append_assoc, List.append_assoc, ← crcThen,
      ← sizeThen, ← name, List.take_append_drop]
  · have := fnLen.isLt
    omega

theorem parseFileMeta_some {payload rest : Bytes} {o o' : Nat} {version : U8} {fileMeta : FileMeta}
    (h : Ahead payload o rest) (read : parseFileMeta payload version o = .ok (some (fileMeta, o'))) :
    ∃ tail rest', FileTail version fileMeta tail ∧ rest = tail ++ rest' ∧ o' = o + tail.length := by
  have room := h.room
  obtain ⟨originalSize, crc32, after, filename, short, rfl⟩ : ∃ originalSize crc32 after filename,
      (Utf8.encode filename).length ≤ 255 ∧ rest = nameTail filename originalSize crc32 ++ after := by
    cases rest with
    | nil =>
        have beyond : payload.length ≤ o := by
          rw [List.length_nil] at room
          omega
        rw [parseFileMeta, if_pos beyond] at read
        cases read
    | cons fnLen bytes =>
        obtain ⟨readLength, next⟩ := h.byte
        have more := next.room
        unfold parseFileMeta at read
        simp only [bind, Except.bind, pure, Except.pure, readLength] at read
        split at read
        · cases read
        split at read
        · cases read
        rename_i whole
        have long : fnLen.toNat + 12 ≤ bytes.length := by omega
        rw [slice_of_le (by omega), next.2] at read
        simp only at read
        cases decoded : Utf8.decode (bytes.take fnLen.toNat) with
        | none =>
            rw [decoded] at read
            cases read
        | some filename =>
            obtain ⟨originalSize, crc32, after, split, short⟩ := exists_nameTail long decoded
            exact ⟨originalSize, crc32, after, filename, short, split⟩
  obtain ⟨next, equation⟩ := parseFileMeta_name short h version
  rw [equation] at read
  simp only [bind, Except.bind, pure, Except.pure] at read
  split at read
  · rename_i newer
    split at read
    · cases read
    rename_i long
    have left := next.room
    simp only [descV3TailFixed] at long
    obtain ⟨compression, bytes, rfl⟩ := List.exists_cons_of_length_pos (by omega : 0 < after.length)
    rw [List.length_cons] at left
    obtain ⟨compressedSize, rest', rfl, -⟩ := exists_toBe (w := 64) 8 rfl (by omega : 8 ≤ bytes.length)
    obtain ⟨readCompression, more⟩ := next.byte
    obtain ⟨readCompressed, -⟩ := more.uint (w := 64) rfl
    rw [readCompression] at read
    simp only [readCompressed, Except.ok.injEq, Option.some.injEq, Prod.mk.injEq] at read
    obtain ⟨rfl, rfl⟩ := read
    refine ⟨_, rest', .sized filename originalSize crc32 compression compressedSize newer short, ?_, ?_⟩
    · rw [sizeTail, List.append_assoc, List.cons_append]
    · rw [List.length_append, length_sizeTail, Nat.add_assoc]
  · rename_i older
    simp only [Except.ok.injEq, Option.some.injEq, Prod.mk.injEq] at read
    obtain ⟨rfl, rfl⟩ := read
    exact ⟨_, after, .named filename originalSize crc32 (not_le.mp older) short, rfl, rfl⟩

/-! ## The segment -/

@[simp] theorem length_segmentTail (segment : SegmentMeta) :
    (segmentTail segment).length = descSegmentTailFixed := by
  simp [segmentTail, descSegmentTailFixed, segment.rootSha256.2, segment.rawSha256.2]

theorem parseSegment_ahead {payload rest : Bytes} {o : Nat} {segment : SegmentMeta}
    (h : Ahead payload o (segmentTail segment ++ rest)) :
    parseSegment payload o = .ok (some segment) := by
  have room := h.room
  rw [List.length_append, length_segmentTail] at room
  rw [segmentTail] at h
  simp only [List.append_assoc] at h
  obtain ⟨readRoot, next⟩ := h.uint (w := 128) rfl
  obtain ⟨readIndex, next⟩ := next.uint (w := 32) rfl
  obtain ⟨readCount, next⟩ := next.uint (w := 32) rfl
  obtain ⟨readOffset, next⟩ := next.uint (w := 64) rfl
  obtain ⟨readSize, next⟩ := next.uint (w := 64) rfl
  obtain ⟨readRootSha, next⟩ := next.octets
  obtain ⟨readRawSha, -⟩ := next.octets
  have long : ¬ payload.length < o + descSegmentTailFixed := by omega
  unfold parseSegment
  simp only [bind, Except.bind, pure, Except.pure, if_neg long, readRoot, readIndex, readCount,
    readOffset, readSize, readRootSha, readRawSha]

theorem exists_segmentTail {bytes : Bytes} (long : descSegmentTailFixed ≤ bytes.length) :
    ∃ segment rest, bytes = segmentTail segment ++ rest := by
  simp only [descSegmentTailFixed] at long
  obtain ⟨rootSessionId, bytes, rfl, size⟩ :=
    exists_toBe (w := 128) 16 rfl (by omega : 16 ≤ bytes.length)
  simp only [List.length_append, length_toBe] at long
  obtain ⟨segmentIndex, bytes, rfl, size⟩ := exists_toBe (w := 32) 4 rfl (by omega : 4 ≤ bytes.length)
  simp only [List.length_append, length_toBe] at long
  obtain ⟨segmentCount, bytes, rfl, size⟩ := exists_toBe (w := 32) 4 rfl (by omega : 4 ≤ bytes.length)
  simp only [List.length_append, length_toBe] at long
  obtain ⟨originalOffset, bytes, rfl, size⟩ :=
    exists_toBe (w := 64) 8 rfl (by omega : 8 ≤ bytes.length)
  simp only [List.length_append, length_toBe] at long
  obtain ⟨rootOriginalSize, bytes, rfl, size⟩ :=
    exists_toBe (w := 64) 8 rfl (by omega : 8 ≤ bytes.length)
  simp only [List.length_append, length_toBe] at long
  have rootSha : (bytes.take 32).length = 32 := by
    rw [List.length_take]
    omega
  have rawSha : ((bytes.drop 32).take 32).length = 32 := by
    rw [List.length_take, List.length_drop]
    omega
  refine ⟨⟨rootSessionId, segmentIndex, segmentCount, originalOffset, rootOriginalSize,
    ⟨bytes.take 32, rootSha⟩, ⟨(bytes.drop 32).take 32, rawSha⟩⟩, (bytes.drop 32).drop 32, ?_⟩
  simp only [segmentTail, List.append_assoc, List.take_append_drop]

theorem parseSegment_some {payload rest : Bytes} {o : Nat} {segment : SegmentMeta}
    (h : Ahead payload o rest) (read : parseSegment payload o = .ok (some segment)) :
    ∃ rest', rest = segmentTail segment ++ rest' := by
  have room := h.room
  have long : ¬ payload.length < o + descSegmentTailFixed := by
    intro short
    rw [parseSegment, if_pos short] at read
    cases read
  obtain ⟨found, rest', rfl⟩ := exists_segmentTail (by omega : descSegmentTailFixed ≤ rest.length)
  rw [parseSegment_ahead h] at read
  cases read
  exact ⟨rest', rfl⟩

/-! ## The whole payload -/

theorem length_header (version : U8) (m : ObjectMeta) :
    (header version m).length = descFixedOverhead + m.blocks.length * 16 := by
  have oti := m.otiBytes.2
  simp only [header, List.length_cons, List.length_append, length_toBe, length_table, oti,
    descFixedOverhead]
  omega

/-- The part of `parse_payload` behind the block table. -/
def parseTail (payload : Bytes) (version : U8) (objectMeta : ObjectMeta) (o : Nat) :
    Exec (Option DescriptorInfo) := do
  if version = 1 then return some { objectMeta, fileMeta := .default, segment := none }
  let some (fileMeta, o) ← parseFileMeta payload version o | return none
  if version = descVersion then
    let some segment ← parseSegment payload o | return none
    return some { objectMeta, fileMeta, segment := some segment }
  else return some { objectMeta, fileMeta, segment := none }

def Readable (version : U8) : Prop := version = 1 ∨ version = 2 ∨ version = 3 ∨ version = descVersion

theorem readable_iff (version : U8) : Readable version ↔
    ¬ (version.toNat < 1 ∨ descVersion.toNat < version.toNat) ∧ version ≠ descLegacyV4 := by
  unfold Readable
  revert version
  decide

theorem parsePayload_header {m : ObjectMeta} (few : m.blocks.length < 2 ^ 16) {version : U8}
    (readable : Readable version) (rest : Bytes) :
    parsePayload (header version m ++ rest) =
      parseTail (header version m ++ rest) version m (header version m).length := by
  have size := length_header version m
  have total : (header version m ++ rest).length = (header version m).length + rest.length :=
    List.length_append
  generalize payload : header version m ++ rest = bytes at *
  have long : ¬ bytes.length < descFixedOverhead := by omega
  have count : (BitVec.ofNat 16 m.blocks.length).toNat = m.blocks.length := by
    rw [BitVec.toNat_ofNat]
    exact Nat.mod_eq_of_lt few
  have table : ¬ bytes.length < descFixedOverhead + m.blocks.length * 16 := by omega
  have known := (readable_iff version).mp readable
  have start : Ahead bytes 0 (header version m ++ rest) := by
    rw [payload]
    exact Ahead.start bytes
  simp only [header, List.cons_append, List.append_assoc] at start
  obtain ⟨readMagic, next⟩ := start.byte
  obtain ⟨readVersion, next⟩ := next.byte
  obtain ⟨readBlocks, next⟩ := next.uint (w := 16) rfl
  obtain ⟨readTransfer, next⟩ := next.uint (w := 64) rfl
  obtain ⟨readSize, next⟩ := next.uint (w := 32) rfl
  obtain ⟨readOti, next⟩ := next.octets
  obtain ⟨readTable, -⟩ := parseBlocks_ahead m.blocks next
  unfold parsePayload
  simp only [bind, Except.bind, pure, Except.pure, if_neg long, readMagic, ne_eq, not_true_eq_false,
    if_false, readVersion, if_neg known.1, if_neg known.2, readBlocks, count, if_neg table,
    readTransfer, readSize, readOti]
  rw [show descFixedOverhead = 0 + 1 + 1 + 2 + 8 + 4 + 12 from rfl, readTable, size]
  rfl

theorem parsePayload_of_tail {version : U8} {info : DescriptorInfo} {tail : Bytes}
    (known : Tail version info.fileMeta info.segment tail)
    (few : info.objectMeta.blocks.length < 2 ^ 16) (rest : Bytes) :
    parsePayload (header version info.objectMeta ++ (tail ++ rest)) = .ok (some info) := by
  obtain ⟨objectMeta, fileMeta, segment⟩ := info
  have after : Ahead (header version objectMeta ++ (tail ++ rest)) (header version objectMeta).length
      (tail ++ rest) := by
    have start := (Ahead.start (header version objectMeta ++ (tail ++ rest))).skip
    rwa [Nat.zero_add] at start
  cases known with
  | bare =>
      rw [parsePayload_header few (Or.inl rfl)]
      rfl
  | single known file =>
      have readable : Readable version := known.elim (fun h => Or.inr (Or.inl h))
        fun h => Or.inr (Or.inr (Or.inl h))
      obtain ⟨read, -⟩ := parseFileMeta_ahead file after
      have first : version ≠ 1 := by rcases known with rfl | rfl <;> decide
      have last : version ≠ descVersion := by rcases known with rfl | rfl <;> decide
      rw [parsePayload_header few readable, parseTail, if_neg first, read]
      simp only [bind, Except.bind, pure, Except.pure, if_neg last]
  | segmented found file =>
      rw [List.append_assoc] at after ⊢
      obtain ⟨read, next⟩ := parseFileMeta_ahead file after
      rw [parsePayload_header few (Or.inr (Or.inr (Or.inr rfl))), parseTail, if_neg (by decide), read]
      simp only [bind, Except.bind, pure, Except.pure, if_true, parseSegment_ahead next]

theorem parseTail_objectMeta {payload : Bytes} {version : U8} {m : ObjectMeta} {o : Nat}
    {info : DescriptorInfo} (read : parseTail payload version m o = .ok (some info)) :
    info.objectMeta = m := by
  unfold parseTail at read
  split at read
  · cases read
    rfl
  obtain ⟨result, file⟩ := parseFileMeta_total payload version o
  rw [file] at read
  cases result with
  | none => cases read
  | some found =>
      simp only [bind, Except.bind, pure, Except.pure] at read
      split at read
      · obtain ⟨result, segment⟩ := parseSegment_total payload found.2
        rw [segment] at read
        cases result with
        | none => cases read
        | some segment =>
            cases read
            rfl
      · cases read
        rfl

theorem exists_header {payload : Bytes} {info : DescriptorInfo}
    (read : parsePayload payload = .ok (some info)) :
    ∃ version rest, Readable version ∧ info.objectMeta.blocks.length < 2 ^ 16 ∧
      payload = header version info.objectMeta ++ rest ∧
      parseTail payload version info.objectMeta (header version info.objectMeta).length =
        .ok (some info) := by
  have long : ¬ payload.length < descFixedOverhead := by
    intro short
    rw [parsePayload, if_pos short] at read
    cases read
  have overhead : descFixedOverhead = 28 := rfl
  obtain ⟨first, bytes, rfl⟩ := List.exists_cons_of_length_pos (by omega : 0 < payload.length)
  obtain ⟨version, bytes, rfl⟩ := List.exists_cons_of_length_pos
    (by simp only [List.length_cons] at long; omega : 0 < bytes.length)
  simp only [List.length_cons] at long
  obtain ⟨numBlocks, bytes, rfl, -⟩ := exists_toBe (w := 16) 2 rfl (by omega : 2 ≤ bytes.length)
  simp only [List.length_append, length_toBe] at long
  obtain ⟨transferLength, bytes, rfl, -⟩ := exists_toBe (w := 64) 8 rfl (by omega : 8 ≤ bytes.length)
  simp only [List.length_append, length_toBe] at long
  obtain ⟨symbolSize, bytes, rfl, -⟩ := exists_toBe (w := 32) 4 rfl (by omega : 4 ≤ bytes.length)
  simp only [List.length_append, length_toBe] at long
  have oti : (bytes.take 12).length = 12 := by
    rw [List.length_take]
    omega
  rw [← List.take_append_drop 12 bytes] at read ⊢
  generalize bytes.drop 12 = rest at *
  obtain ⟨readMagic, next⟩ := (Ahead.start (first :: version :: (toBe 2 numBlocks ++
    (toBe 8 transferLength ++ (toBe 4 symbolSize ++ (bytes.take 12 ++ rest)))))).byte
  obtain ⟨readVersion, next⟩ := next.byte
  obtain ⟨readBlocks, next⟩ := next.uint (w := 16) rfl
  have room := next.room
  simp only [List.length_append, length_toBe, oti] at room
  have conditions : first = descMagic ∧ Readable version ∧ numBlocks.toNat * 16 ≤ rest.length := by
    unfold parsePayload at read
    simp only [bind, Except.bind, pure, Except.pure, readMagic, readVersion, readBlocks] at read
    split at read
    · cases read
    split at read
    · cases read
    rename_i magic
    split at read
    · cases read
    rename_i range
    split at read
    · cases read
    rename_i legacy
    split at read
    · cases read
    rename_i table
    exact ⟨not_not.mp magic, (readable_iff version).mpr ⟨range, legacy⟩, by omega⟩
  obtain ⟨rfl, readable, table⟩ := conditions
  obtain ⟨blocks, rest, count, rfl⟩ := exists_blocks numBlocks.toNat table
  have few : blocks.length < 2 ^ 16 := count ▸ numBlocks.isLt
  let m : ObjectMeta := { transferLength, symbolSize, otiBytes := ⟨bytes.take 12, oti⟩, blocks }
  have split : descMagic :: version :: (toBe 2 numBlocks ++ (toBe 8 transferLength ++
      (toBe 4 symbolSize ++ (bytes.take 12 ++ (blocks.flatMap blockBytes ++ rest))))) =
      header version m ++ rest := by
    simp only [header, m, count, BitVec.ofNat_toNat, BitVec.setWidth_eq, List.cons_append,
      List.append_assoc]
  rw [split] at read ⊢
  have same := (parsePayload_header (m := m) few readable rest).symm.trans read
  rw [parseTail_objectMeta same]
  exact ⟨version, rest, readable, few, rfl, same⟩

theorem exists_tail {payload : Bytes} {info : DescriptorInfo}
    (read : parsePayload payload = .ok (some info)) :
    ∃ version tail rest, Tail version info.fileMeta info.segment tail ∧
      info.objectMeta.blocks.length < 2 ^ 16 ∧
      payload = header version info.objectMeta ++ (tail ++ rest) := by
  obtain ⟨version, rest, readable, few, rfl, more⟩ := exists_header read
  have after : Ahead (header version info.objectMeta ++ rest) (header version info.objectMeta).length
      rest := by
    have start := (Ahead.start (header version info.objectMeta ++ rest)).skip
    rwa [Nat.zero_add] at start
  obtain ⟨m, fileMeta, segment⟩ := info
  simp only at after more ⊢
  unfold parseTail at more
  by_cases first : version = 1
  · subst first
    rw [if_pos rfl] at more
    cases more
    exact ⟨1, [], rest, .bare, few, rfl⟩
  rw [if_neg first] at more
  obtain ⟨result, file⟩ := parseFileMeta_total (header version m ++ rest) version
    (header version m).length
  rw [file] at more
  cases result with
  | none => cases more
  | some found =>
      obtain ⟨tail, rest', form, rfl, place⟩ := parseFileMeta_some after file
      simp only [bind, Except.bind, pure, Except.pure] at more
      split at more
      · rename_i last
        subst last
        have next := after.skip
        rw [← place] at next
        obtain ⟨result, read⟩ := parseSegment_total (header descVersion m ++ (tail ++ rest')) found.2
        rw [read] at more
        cases result with
        | none => cases more
        | some found =>
            obtain ⟨rest, rfl⟩ := parseSegment_some next read
            cases more
            exact ⟨descVersion, _, rest, .segmented found form, few, by rw [List.append_assoc]⟩
      · rename_i last
        cases more
        have known : version = 2 ∨ version = 3 := by
          rcases readable with one | two | three | five
          · exact absurd one first
          · exact Or.inl two
          · exact Or.inr three
          · exact absurd five last
        exact ⟨version, tail, rest', .single known form, few, rfl⟩

end AirFerry.TransferEngine.Descriptor
