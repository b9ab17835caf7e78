import AirFerry.TransferEngine.DescriptorLayout

/-!
# The descriptor codec

Parsing only looks at a header and a tail, so padding is never read. Building fails exactly when the
fixed fields do not fit the symbol, and only ever shortens the filename.
-/

namespace AirFerry.Proof
open Library QrProtocol RaptorqCore TransferEngine Descriptor

def bodyLength (version : U8) (blocks filenameLength : Nat) : Nat :=
  28 + 16 * blocks + (if 2 ≤ version.toNat then 13 + filenameLength else 0) +
    (if 3 ≤ version.toNat then 9 else 0) + (if version = 5 then 104 else 0)

theorem length_fileTail {version : U8} {fileMeta : FileMeta} {tail : Bytes}
    (file : FileTail version fileMeta tail) :
    tail.length = 13 + (Utf8.encode fileMeta.filename).length +
      if 3 ≤ version.toNat then 9 else 0 := by
  cases file with
  | named filename originalSize crc32 older short =>
      have second : ¬ 3 ≤ version.toNat := not_le.mpr older
      rw [length_nameTail, if_neg second]
      rfl
  | sized filename originalSize crc32 compression compressedSize newer short =>
      have third : 3 ≤ version.toNat := newer
      rw [List.length_append, length_nameTail, length_sizeTail, if_pos third]

theorem length_body {version : U8} {fileMeta : FileMeta} {segment : Option SegmentMeta} {tail : Bytes}
    (known : Tail version fileMeta segment tail) (m : ObjectMeta) :
    (header version m).length + tail.length =
      bodyLength version m.blocks.length (Utf8.encode fileMeta.filename).length := by
  rw [length_header]
  cases known with
  | bare => simp [bodyLength, descFixedOverhead, Nat.mul_comm]
  | single known file =>
      rw [length_fileTail file, descFixedOverhead, bodyLength]
      rcases known with rfl | rfl
      · simp
        omega
      · simp
        omega
  | segmented segment file =>
      rw [List.length_append, length_segmentTail, length_fileTail file, descFixedOverhead, bodyLength]
      simp [descVersion, descSegmentTailFixed]
      omega

theorem Tail.version {version : U8} {fileMeta : FileMeta} {segment : Option SegmentMeta}
    {tail : Bytes} (known : Tail version fileMeta segment tail) :
    version = 1 ∨ version = 2 ∨ version = 3 ∨ version = 5 := by
  cases known with
  | bare => exact Or.inl rfl
  | single known file => exact Or.inr (known.imp_right Or.inl)
  | segmented segment file => exact Or.inr (Or.inr (Or.inr rfl))

theorem version_header (version : U8) (m : ObjectMeta) (rest : Bytes) :
    (header version m ++ rest)[1]? = some version := rfl

theorem parsing_is_blind_to_padding (p : Bytes) :
    (∃ result, parsePayload p = .ok result) ∧
      ∀ info, parsePayload p = .ok (some info) →
        ∃ version n, p[1]? = some version ∧ (version = 1 ∨ version = 2 ∨ version = 3 ∨ version = 5) ∧
          n = bodyLength version info.objectMeta.blocks.length
            (Utf8.encode info.fileMeta.filename).length ∧ n ≤ p.length ∧
          (∀ q : Bytes, n ≤ q.length → q.take n = p.take n → parsePayload q = .ok (some info)) ∧
          ∀ k < n, parsePayload (p.take k) = .ok none := by
  refine ⟨parsePayload_total p, fun info read => ?_⟩
  obtain ⟨version, tail, rest, known, few, rfl⟩ := exists_tail read
  have size := length_body known info.objectMeta
  have front : ∀ n, n = (header version info.objectMeta).length + tail.length →
      (header version info.objectMeta ++ (tail ++ rest)).take n =
        header version info.objectMeta ++ tail := by
    rintro n rfl
    rw [← List.append_assoc, ← List.length_append, List.take_left]
  refine ⟨version, _, version_header .., Tail.version known, rfl, ?_, ?_, ?_⟩
  · rw [← size, List.length_append, List.length_append]
    omega
  · intro q long same
    have split := (List.take_append_drop (bodyLength version info.objectMeta.blocks.length
      (Utf8.encode info.fileMeta.filename).length) q).symm
    rw [same, front _ size.symm, List.append_assoc] at split
    rw [split]
    exact parsePayload_of_tail known few _
  · intro k short
    obtain ⟨result, cut⟩ := parsePayload_total
      ((header version info.objectMeta ++ (tail ++ rest)).take k)
    cases result with
    | none => exact cut
    | some other =>
        -- the cut-off part parses by itself, so it is the whole body
        obtain ⟨version', tail', rest', known', few', split⟩ := exists_tail cut
        have whole := (List.take_append_drop k
          (header version info.objectMeta ++ (tail ++ rest))).symm
        rw [split, List.append_assoc, List.append_assoc] at whole
        have again := parsePayload_of_tail known' few'
          (rest' ++ (header version info.objectMeta ++ (tail ++ rest)).drop k)
        rw [← whole, read] at again
        cases again
        have second := congrArg (fun bytes : Bytes => bytes[1]?) whole
        rw [version_header, version_header, Option.some.injEq] at second
        subst second
        have taken := congrArg List.length split
        have size' := length_body known' info.objectMeta
        simp only [List.length_take, List.length_append] at taken
        omega

theorem floorCharBoundary_spec (s : String) (n : Nat) :
    Utf8.IsBoundary s (floorCharBoundary s n) ∧ floorCharBoundary s n ≤ n ∧
      ∀ k ≤ n, Utf8.IsBoundary s k → k ≤ floorCharBoundary s n := by
  induction n with
  | zero => exact ⟨Utf8.isBoundary_zero s, le_rfl, fun k small _ => small⟩
  | succ n ih =>
      rw [floorCharBoundary]
      by_cases here : Utf8.IsBoundary s (n+1)
      · rw [if_pos here]
        exact ⟨here, le_rfl, fun k small _ => small⟩
      · rw [if_neg here]
        refine ⟨ih.1, by omega, fun k small boundary => ih.2.2 k ?_ boundary⟩
        have different : k ≠ n + 1 := fun same => here (same ▸ boundary)
        omega

/-- The longest prefix of `whole` that ends between characters, within `limit` bytes. -/
structure LongestPrefix (limit : Nat) (whole part : String) : Prop where
  front : ∃ rest, whole = part ++ rest
  within : (Utf8.encode part).length ≤ limit
  longest : ∀ other rest, whole = other ++ rest → (Utf8.encode other).length ≤ limit →
    (Utf8.encode other).length ≤ (Utf8.encode part).length

theorem exists_longestPrefix (limit : Nat) (whole : String) :
    ∃ part, LongestPrefix limit whole part ∧ (Utf8.encode whole).take (floorCharBoundary whole
      (min (Utf8.encode whole).length limit)) = Utf8.encode part := by
  obtain ⟨boundary, small, greatest⟩ :=
    floorCharBoundary_spec whole (min (Utf8.encode whole).length limit)
  obtain ⟨part, rest, split, place⟩ := Utf8.isBoundary_iff.mp boundary
  refine ⟨part, ⟨⟨rest, split⟩, by omega, fun other rest' split' within => ?_⟩, ?_⟩
  · have fits : (Utf8.encode other).length ≤ (Utf8.encode whole).length := by
      rw [split', Utf8.encode_append, List.length_append]
      omega
    rw [← place]
    exact greatest _ (le_min fits within) (Utf8.isBoundary_iff.mpr ⟨other, rest', split', rfl⟩)
  · rw [place]
    conv_lhs => rw [split]
    rw [Utf8.encode_append, List.take_left]

def minimumSize (blocks : Nat) (segmented : Bool) : Nat :=
  50 + 16 * blocks + if segmented then 104 else 0

def filenameBudget (m : ObjectMeta) (segmented : Bool) : Nat :=
  min 255 (m.symbolSize.toNat - minimumSize m.blocks.length segmented)

def cutName (filename : String) (limit : Nat) : String :=
  (Utf8.decode ((Utf8.encode filename).take
    (floorCharBoundary filename (min (Utf8.encode filename).length limit)))).getD ""

theorem cutName_spec (filename : String) (limit : Nat) :
    LongestPrefix limit filename (cutName filename limit) ∧
      (Utf8.encode filename).take (floorCharBoundary filename
        (min (Utf8.encode filename).length limit)) = Utf8.encode (cutName filename limit) := by
  obtain ⟨part, longest, cut⟩ := exists_longestPrefix limit filename
  have same : cutName filename limit = part := by
    rw [cutName, cut, Utf8.decode_encode, Option.getD_some]
  rw [same]
  exact ⟨longest, cut⟩

theorem LongestPrefix.eq_of_length {limit limit' : Nat} {whole part part' : String}
    (first : LongestPrefix limit whole part) (second : LongestPrefix limit' whole part')
    (same : (Utf8.encode part).length = (Utf8.encode part').length) : part = part' := by
  obtain ⟨rest, split⟩ := first.front
  obtain ⟨rest', split'⟩ := second.front
  apply Utf8.encode_injective
  have bytes : Utf8.encode part ++ Utf8.encode rest = Utf8.encode part' ++ Utf8.encode rest' := by
    rw [← Utf8.encode_append, ← Utf8.encode_append, ← split, ← split']
  exact List.append_inj_left bytes same

theorem cutName_eq_iff (filename : String) {less more : Nat} (le : less ≤ more) :
    cutName filename less = cutName filename more ↔
      ∀ part rest, filename = part ++ rest → (Utf8.encode part).length ≤ more →
        (Utf8.encode part).length ≤ less := by
  obtain ⟨short, -⟩ := cutName_spec filename less
  obtain ⟨long, -⟩ := cutName_spec filename more
  constructor
  · intro same part rest split within
    rw [← same] at long
    exact (long.longest part rest split within).trans short.within
  · intro unneeded
    obtain ⟨rest, split⟩ := long.front
    obtain ⟨rest', split'⟩ := short.front
    have small := unneeded _ rest split long.within
    have first := short.longest _ rest split small
    have second := long.longest _ rest' split' (short.within.trans le)
    exact short.eq_of_length long (le_antisymm second first)

theorem filenameSlice_eq (m : ObjectMeta) (fileMeta : FileMeta) (segmented : Bool) :
    filenameSlice m fileMeta segmented =
      Utf8.encode (cutName fileMeta.filename (filenameBudget m segmented)) := by
  have available : availableForFilename m.symbolSize.toNat m.blocks.length segmented =
      m.symbolSize.toNat - minimumSize m.blocks.length segmented := by
    have extension : (if segmented then descSegmentTailFixed else 0) = if segmented then 104 else 0 :=
      rfl
    rw [availableForFilename, minimumSize, extension]
    simp only [descFixedOverhead, descV2TailFixed, descV3TailFixed]
    omega
  rw [← (cutName_spec fileMeta.filename (filenameBudget m segmented)).2, filenameSlice]
  simp only [available, filenameBudget, Nat.min_assoc, Nat.min_comm 255]

theorem fileTail_eq (part : String) (fileMeta : FileMeta) :
    fileTail (Utf8.encode part) fileMeta =
      nameTail part fileMeta.originalSize fileMeta.crc32 ++
        sizeTail fileMeta.compression fileMeta.compressedSize := by
  simp [fileTail, nameTail, sizeTail]

def carried (fileMeta : FileMeta) (part : String) : FileMeta :=
  { fileMeta with filename := part, compressedSizeKnown := true, crc32Known := true }

theorem exists_built_tail (fileMeta : FileMeta) (segment : Option SegmentMeta) {part : String}
    (short : (Utf8.encode part).length ≤ 255) :
    ∃ version tail, Tail version (carried fileMeta part) segment tail ∧
      version = (if segment.isSome then descVersion else descV3Version) ∧
      tail = fileTail (Utf8.encode part) fileMeta ++ (segment.map segmentTail).getD [] ∧
      tail.length = 22 + (Utf8.encode part).length + if segment.isSome then 104 else 0 := by
  have size : (fileTail (Utf8.encode part) fileMeta).length = 22 + (Utf8.encode part).length := by
    rw [fileTail_eq, List.length_append, length_nameTail, length_sizeTail]
    omega
  cases segment with
  | none =>
      refine ⟨descV3Version, _, .single (Or.inr rfl) ?_, rfl, (List.append_nil _).symm, size⟩
      rw [fileTail_eq]
      exact .sized part fileMeta.originalSize fileMeta.crc32 fileMeta.compression
        fileMeta.compressedSize le_rfl short
  | some segment =>
      refine ⟨descVersion, _, .segmented segment ?_, rfl, rfl, ?_⟩
      · rw [fileTail_eq]
        exact .sized part fileMeta.originalSize fileMeta.crc32 fileMeta.compression
          fileMeta.compressedSize (by decide) short
      · rw [List.length_append, size, length_segmentTail]
        rfl

theorem buildPayloadInner_eq (m : ObjectMeta) (fileMeta : FileMeta) (segment : Option SegmentMeta) :
    (m.symbolSize.toNat < minimumSize m.blocks.length segment.isSome ∧
        ∃ e, buildPayloadInner m fileMeta segment = .error e) ∨
      (minimumSize m.blocks.length segment.isSome ≤ m.symbolSize.toNat ∧
        ∃ version tail, Tail version (carried fileMeta
            (cutName fileMeta.filename (filenameBudget m segment.isSome))) segment tail ∧
          (header version m).length + tail.length ≤ m.symbolSize.toNat ∧
          buildPayloadInner m fileMeta segment = .ok (header version m ++ (tail ++ List.replicate
            (m.symbolSize.toNat - ((header version m).length + tail.length)) 0))) := by
  have cut := filenameSlice_eq m fileMeta segment.isSome
  have within := (cutName_spec fileMeta.filename (filenameBudget m segment.isSome)).1.within
  generalize cutName fileMeta.filename (filenameBudget m segment.isSome) = part at *
  have budget : filenameBudget m segment.isSome ≤ 255 := min_le_left ..
  have room : filenameBudget m segment.isSome ≤
      m.symbolSize.toNat - minimumSize m.blocks.length segment.isSome := min_le_right ..
  obtain ⟨version, tail, known, versionIs, tailIs, size⟩ :=
    exists_built_tail fileMeta segment (within.trans budget)
  have extension : (if segment.isSome then descSegmentTailFixed else 0) =
      if segment.isSome then 104 else 0 := rfl
  have body : descFixedOverhead + m.blocks.length * 16 + 1 + (Utf8.encode part).length +
      descV2TailFixed - 1 + descV3TailFixed + (if segment.isSome then descSegmentTailFixed else 0) =
      minimumSize m.blocks.length segment.isSome + (Utf8.encode part).length := by
    rw [extension, minimumSize]
    simp only [descFixedOverhead, descV2TailFixed, descV3TailFixed]
    omega
  have total : (header version m).length + tail.length =
      minimumSize m.blocks.length segment.isSome + (Utf8.encode part).length := by
    rw [length_header, size, minimumSize, descFixedOverhead]
    omega
  unfold buildPayloadInner
  simp only [cut]
  rw [body]
  by_cases short : m.symbolSize.toNat < minimumSize m.blocks.length segment.isSome
  · exact Or.inl ⟨short, _, if_pos (by omega)⟩
  right
  refine ⟨not_lt.mp short, version, tail, known, by omega, ?_⟩
  have shape : descMagic :: (if segment.isSome then descVersion else descV3Version) ::
      (toBe 2 (BitVec.ofNat 16 m.blocks.length) ++ (toBe 8 m.transferLength ++
        (toBe 4 m.symbolSize ++ (m.otiBytes.1 ++ (m.blocks.flatMap blockBytes ++
          (fileTail (Utf8.encode part) fileMeta ++ (segment.map segmentTail).getD [])))))) =
      header version m ++ tail := by
    rw [tailIs, ← versionIs, header]
    simp only [List.cons_append, List.append_assoc]
  rw [if_neg (by omega), shape, List.length_append, List.append_assoc]

theorem exists_buildPayloadInner {m : ObjectMeta} (fileMeta : FileMeta) {segment : Option SegmentMeta}
    (fits : minimumSize m.blocks.length segment.isSome ≤ m.symbolSize.toNat) :
    ∃ p, buildPayloadInner m fileMeta segment = .ok p := by
  rcases buildPayloadInner_eq m fileMeta segment with ⟨short, -⟩ | ⟨-, version, tail, -, -, built⟩
  · exact absurd fits (not_le.mpr short)
  · exact ⟨_, built⟩

theorem buildPayloadInner_ok {m : ObjectMeta} {fileMeta : FileMeta} {segment : Option SegmentMeta}
    (small : m.symbolSize.toNat ≤ 65528) {p : Bytes}
    (built : buildPayloadInner m fileMeta segment = .ok p) :
    minimumSize m.blocks.length segment.isSome ≤ m.symbolSize.toNat ∧ p.length = m.symbolSize.toNat ∧
      parsePayload p = .ok (some ⟨m, carried fileMeta
        (cutName fileMeta.filename (filenameBudget m segment.isSome)), segment⟩) := by
  rcases buildPayloadInner_eq m fileMeta segment with
    ⟨-, e, failed⟩ | ⟨room, version, tail, known, within, ok⟩
  · rw [failed] at built
    cases built
  rw [ok] at built
  cases built
  have few : m.blocks.length < 2 ^ 16 := by
    rw [minimumSize] at room
    omega
  refine ⟨room, ?_, @parsePayload_of_tail version ⟨m, _, segment⟩ tail known few _⟩
  rw [List.length_append, List.length_append, List.length_replicate]
  omega

theorem descriptor_round_trip (m : ObjectMeta) (fileMeta : FileMeta) (segment : Option SegmentMeta)
    (small : m.symbolSize.toNat ≤ 65528) :
    ((∃ p, buildPayloadInner m fileMeta segment = .ok p) ↔
        minimumSize m.blocks.length segment.isSome ≤ m.symbolSize.toNat) ∧
      ∀ p, buildPayloadInner m fileMeta segment = .ok p →
        p.length = m.symbolSize.toNat ∧
          ∃ info, parsePayload p = .ok (some info) ∧ info.objectMeta = m ∧ info.segment = segment ∧
            LongestPrefix (filenameBudget m segment.isSome) fileMeta.filename
              info.fileMeta.filename ∧
            info.fileMeta = { fileMeta with
              filename := info.fileMeta.filename
              compressedSizeKnown := true
              crc32Known := true } := by
  refine ⟨⟨fun ⟨p, built⟩ => (buildPayloadInner_ok small built).1,
    exists_buildPayloadInner fileMeta⟩, fun p built => ?_⟩
  obtain ⟨-, size, parsed⟩ := buildPayloadInner_ok small built
  exact ⟨size, _, parsed, rfl, rfl, (cutName_spec ..).1, rfl⟩

def tightMeta : ObjectMeta where
  transferLength := 72
  symbolSize := 72
  otiBytes := ⟨[0, 0, 0, 0, 72, 0, 0, 72, 1, 0, 1, 8], rfl⟩
  blocks := [{ sbn := 0, numSourceSymbols := 1, blockLength := 72 }]

theorem descriptor_round_trip_tight :
    ∃ p, buildPayloadInner tightMeta { FileMeta.default with filename := "holiday.jpg" } none = .ok p ∧
      p.length = 72 ∧ ∃ info, parsePayload p = .ok (some info) ∧ info.objectMeta = tightMeta ∧
        LongestPrefix (filenameBudget tightMeta false) "holiday.jpg" info.fileMeta.filename := by
  obtain ⟨accepted, back⟩ := descriptor_round_trip tightMeta
    { FileMeta.default with filename := "holiday.jpg" } none (by decide)
  obtain ⟨p, built⟩ := accepted.mpr (by decide)
  obtain ⟨size, info, parsed, object, -, name, -⟩ := back p built
  exact ⟨p, built, size, info, parsed, object, name⟩

end AirFerry.Proof
