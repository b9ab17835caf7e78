import AirFerry.Exec

namespace AirFerry.QrProtocol

inductive Error
  | bufferTooShort (need available : Nat)
  | badMagic (expected got : U16)
  | badVersion (version : U8)
  | frameCrcMismatch
  | payloadCrcMismatch
  | badSymbolSize (symbolSize : U32)
  | lengthMismatch (expected actual : Nat)
  | compress (message : String)
deriving DecidableEq, Repr

def magic : U16 := 0x4554
def protocolVersion : U8 := 1
def frameHeaderSize : Nat := 60
def frameFooterSize : Nat := 4
def flagDescriptor : U8 := 0x01

structure FrameHeader where
  sessionId : U128
  flags : U8
  sbn : U32
  esi : U32
  totalBlocks : U32
  totalSymbols : U32
  symbolSize : U32
  frameIndex : U64
  timestampMs : U64
  payloadCrc32 : U32
deriving DecidableEq, Repr

structure Frame where
  header : FrameHeader
  payload : Bytes
  frameCrc32 : U32
deriving DecidableEq, Repr

namespace FrameHeader

def writeBytes (h : FrameHeader) : Bytes :=
  toBe 2 magic ++ protocolVersion :: h.flags :: (toBe 16 h.sessionId ++ (toBe 4 h.sbn ++
    (toBe 4 h.esi ++ (toBe 4 h.totalBlocks ++ (toBe 4 h.totalSymbols ++ (toBe 4 h.symbolSize ++
      (toBe 8 h.frameIndex ++ (toBe 8 h.timestampMs ++ toBe 4 h.payloadCrc32))))))))

@[simp] theorem length_writeBytes (h : FrameHeader) : h.writeBytes.length = frameHeaderSize := by
  simp [writeBytes, frameHeaderSize]

def readBytes (bytes : Bytes) : Exec (Except Error FrameHeader) := do
  let h ← slice bytes 0 frameHeaderSize
  let gotMagic ← u16At h 0
  if gotMagic ≠ magic then return .error (.badMagic magic gotMagic)
  let version ← index h 2
  if version ≠ protocolVersion then return .error (.badVersion version)
  let flags ← index h 3
  let sessionId ← u128At h 4
  let sbn ← u32At h 20
  let esi ← u32At h 24
  let totalBlocks ← u32At h 28
  let totalSymbols ← u32At h 32
  let symbolSize ← u32At h 36
  let frameIndex ← u64At h 40
  let timestampMs ← u64At h 48
  let payloadCrc32 ← u32At h 56
  return .ok {
    sessionId := sessionId, flags, sbn, esi, totalBlocks, totalSymbols, symbolSize, frameIndex,
    timestampMs, payloadCrc32 }

end FrameHeader

namespace Frame

variable (crc32 : Bytes → U32)

def wireSize (symbolSize : U32) : Nat := frameHeaderSize + symbolSize.toNat + frameFooterSize

def build (sessionId : U128) (flags : U8) (sbn esi totalBlocks totalSymbols symbolSize : U32)
    (frameIndex timestampMs : U64) (payload : Bytes) : Frame :=
  let header : FrameHeader := {
    sessionId := sessionId, flags, sbn, esi, totalBlocks, totalSymbols, symbolSize, frameIndex,
    timestampMs, payloadCrc32 := crc32 payload }
  { header, payload, frameCrc32 := crc32 (header.writeBytes ++ payload) }

def toBytes (f : Frame) : Bytes := f.header.writeBytes ++ (f.payload ++ toBe 4 f.frameCrc32)

def fromBytesOn (usizeBits : Nat) (bytes : Bytes) : Exec (Except Error Frame) := do
  let need := frameHeaderSize + frameFooterSize
  if bytes.length < need then return .error (.bufferTooShort need bytes.length)
  match ← FrameHeader.readBytes bytes with
  | .error e => return .error e
  | .ok header =>
      let symbolSize := asUsize usizeBits header.symbolSize.toNat
      let actualPayloadSize := bytes.length - need
      if symbolSize ≠ actualPayloadSize then
        return .error (.lengthMismatch (saturatingAdd usizeBits symbolSize need) bytes.length)
      let payloadEnd ← addUsize usizeBits frameHeaderSize symbolSize
      let payload ← slice bytes frameHeaderSize payloadEnd
      let footer ← slice bytes payloadEnd bytes.length
      if crc32 payload ≠ header.payloadCrc32 then return .error .payloadCrcMismatch
      let checked ← slice bytes 0 payloadEnd
      let expectedFrameCrc ← u32At footer 0
      if crc32 checked ≠ expectedFrameCrc then return .error .frameCrcMismatch
      return .ok { header, payload, frameCrc32 := expectedFrameCrc }

def fromBytes (bytes : Bytes) : Exec (Except Error Frame) := fromBytesOn crc32 64 bytes

end Frame

theorem exists_toBe {w : Nat} (n : Nat) (width : w = 8 * n) {bytes : Bytes}
    (long : n ≤ bytes.length) :
    ∃ (value : BitVec w) (rest : Bytes), bytes = toBe n value ++ rest ∧
      rest.length = bytes.length - n := by
  have size : (bytes.take n).length = n := List.length_take_of_le long
  refine ⟨BitVec.ofNat w (Library.BigEndian.ofBytes (bytes.take n)), bytes.drop n, ?_,
    List.length_drop⟩
  have taken := @Library.BigEndian.toBytes_toNat_ofBytes w (bytes.take n) (by rw [size]; exact width)
  rw [size] at taken
  rw [toBe, taken, List.take_append_drop]

namespace FrameHeader

def fields (gotMagic : U16) (version : U8) (h : FrameHeader) (rest : Bytes) : Bytes :=
  toBe 2 gotMagic ++ version :: h.flags :: (toBe 16 h.sessionId ++ (toBe 4 h.sbn ++
    (toBe 4 h.esi ++ (toBe 4 h.totalBlocks ++ (toBe 4 h.totalSymbols ++ (toBe 4 h.symbolSize ++
      (toBe 8 h.frameIndex ++ (toBe 8 h.timestampMs ++ (toBe 4 h.payloadCrc32 ++ rest)))))))))

theorem fields_append (gotMagic : U16) (version : U8) (h : FrameHeader) (xs ys : Bytes) :
    fields gotMagic version h (xs ++ ys) = fields gotMagic version h xs ++ ys := by
  simp [fields]

theorem writeBytes_append (h : FrameHeader) (rest : Bytes) :
    h.writeBytes ++ rest = fields magic protocolVersion h rest := by
  simp [writeBytes, fields]

theorem length_fields (gotMagic : U16) (version : U8) (h : FrameHeader) (rest : Bytes) :
    (fields gotMagic version h rest).length = frameHeaderSize + rest.length := by
  simp [fields, frameHeaderSize]
  omega

theorem exists_fields {bytes : Bytes} (long : frameHeaderSize ≤ bytes.length) :
    ∃ gotMagic version h rest, bytes = fields gotMagic version h rest := by
  simp only [frameHeaderSize] at long
  obtain ⟨gotMagic, bytes, rfl, rest⟩ := exists_toBe 2 rfl (by omega : 2 ≤ bytes.length)
  simp only [List.length_append, length_toBe] at long rest
  obtain ⟨version, bytes, rfl⟩ := List.exists_cons_of_length_pos (by omega : 0 < bytes.length)
  obtain ⟨flags, bytes, rfl⟩ := List.exists_cons_of_length_pos
    (by simp only [List.length_cons] at long; omega : 0 < bytes.length)
  simp only [List.length_cons] at long
  obtain ⟨sessionId, bytes, rfl, -⟩ := exists_toBe 16 rfl (by omega : 16 ≤ bytes.length)
  simp only [List.length_append, length_toBe] at long
  obtain ⟨sbn, bytes, rfl, -⟩ := exists_toBe 4 rfl (by omega : 4 ≤ bytes.length)
  simp only [List.length_append, length_toBe] at long
  obtain ⟨esi, bytes, rfl, -⟩ := exists_toBe 4 rfl (by omega : 4 ≤ bytes.length)
  simp only [List.length_append, length_toBe] at long
  obtain ⟨totalBlocks, bytes, rfl, -⟩ := exists_toBe 4 rfl (by omega : 4 ≤ bytes.length)
  simp only [List.length_append, length_toBe] at long
  obtain ⟨totalSymbols, bytes, rfl, -⟩ := exists_toBe 4 rfl (by omega : 4 ≤ bytes.length)
  simp only [List.length_append, length_toBe] at long
  obtain ⟨symbolSize, bytes, rfl, -⟩ := exists_toBe 4 rfl (by omega : 4 ≤ bytes.length)
  simp only [List.length_append, length_toBe] at long
  obtain ⟨frameIndex, bytes, rfl, -⟩ := exists_toBe 8 rfl (by omega : 8 ≤ bytes.length)
  simp only [List.length_append, length_toBe] at long
  obtain ⟨timestampMs, bytes, rfl, -⟩ := exists_toBe 8 rfl (by omega : 8 ≤ bytes.length)
  simp only [List.length_append, length_toBe] at long
  obtain ⟨payloadCrc32, bytes, rfl, -⟩ := exists_toBe 4 rfl (by omega : 4 ≤ bytes.length)
  exact ⟨gotMagic, version, ⟨sessionId, flags, sbn, esi, totalBlocks, totalSymbols, symbolSize,
    frameIndex, timestampMs, payloadCrc32⟩, bytes, rfl⟩

theorem readBytes_fields (gotMagic : U16) (version : U8) (h : FrameHeader) (rest : Bytes) :
    readBytes (fields gotMagic version h rest) =
      if gotMagic ≠ magic then .ok (.error (.badMagic magic gotMagic))
      else if version ≠ protocolVersion then .ok (.error (.badVersion version))
      else .ok (.ok h) := by
  have size : (fields gotMagic version h []).length = frameHeaderSize := by
    rw [length_fields]
    rfl
  have header : slice (fields gotMagic version h [] ++ rest) 0 frameHeaderSize =
      .ok (fields gotMagic version h []) := by
    have read := (Ahead.start (fields gotMagic version h [] ++ rest)).slice size
    rwa [Nat.zero_add] at read
  obtain ⟨readMagic, next⟩ := (Ahead.start (fields gotMagic version h [])).uint (w := 16) rfl
  obtain ⟨readVersion, next⟩ := next.byte
  obtain ⟨readFlags, next⟩ := next.byte
  obtain ⟨readSession, next⟩ := next.uint (w := 128) rfl
  obtain ⟨readSbn, next⟩ := next.uint (w := 32) rfl
  obtain ⟨readEsi, next⟩ := next.uint (w := 32) rfl
  obtain ⟨readBlocks, next⟩ := next.uint (w := 32) rfl
  obtain ⟨readSymbols, next⟩ := next.uint (w := 32) rfl
  obtain ⟨readSize, next⟩ := next.uint (w := 32) rfl
  obtain ⟨readIndex, next⟩ := next.uint (w := 64) rfl
  obtain ⟨readTime, next⟩ := next.uint (w := 64) rfl
  obtain ⟨readCrc, -⟩ := next.uint (w := 32) rfl
  rw [← List.nil_append rest, fields_append, readBytes, header]
  simp only [bind, Except.bind, pure, Except.pure, readMagic, readVersion]
  by_cases other : gotMagic ≠ magic
  · simp only [if_pos other]
  by_cases newer : version ≠ protocolVersion
  · simp only [if_neg other, if_pos newer]
  simp only [if_neg other, if_neg newer, readFlags, readSession, readSbn, readEsi, readBlocks,
    readSymbols, readSize, readIndex, readTime, readCrc]

end FrameHeader

namespace Frame

variable {crc32 : Bytes → U32}

structure WireValid (crc32 : Bytes → U32) (f : Frame) : Prop where
  size : f.payload.length = f.header.symbolSize.toNat
  payload_crc : crc32 f.payload = f.header.payloadCrc32
  frame_crc : crc32 (f.header.writeBytes ++ f.payload) = f.frameCrc32

theorem exists_frame {bytes : Bytes} (long : frameHeaderSize + frameFooterSize ≤ bytes.length) :
    ∃ gotMagic version h payload footer,
      bytes = FrameHeader.fields gotMagic version h (payload ++ toBe 4 (footer : U32)) := by
  obtain ⟨gotMagic, version, h, rest, rfl⟩ :=
    FrameHeader.exists_fields (by omega : frameHeaderSize ≤ bytes.length)
  rw [FrameHeader.length_fields] at long
  simp only [frameFooterSize] at long
  have size : (rest.drop (rest.length - 4)).length = 4 := by
    rw [List.length_drop]
    omega
  obtain ⟨footer, empty, last, empty⟩ := exists_toBe (w := 32) 4 rfl (le_of_eq size.symm)
  rw [size, Nat.sub_self, List.length_eq_zero_iff] at empty
  rw [empty, List.append_nil] at last
  refine ⟨gotMagic, version, h, rest.take (rest.length - 4), footer, ?_⟩
  rw [← last, List.take_append_drop]

theorem fromBytesOn_fields {usizeBits : Nat} (wide : 32 ≤ usizeBits) (gotMagic : U16)
    (version : U8) (h : FrameHeader) (payload : Bytes) (footer : U32)
    (room : h.symbolSize.toNat = payload.length → frameHeaderSize + payload.length < 2 ^ usizeBits) :
    fromBytesOn crc32 usizeBits (FrameHeader.fields gotMagic version h (payload ++ toBe 4 footer)) =
      if gotMagic ≠ magic then .ok (.error (.badMagic magic gotMagic))
      else if version ≠ protocolVersion then .ok (.error (.badVersion version))
      else if h.symbolSize.toNat ≠ payload.length then
        .ok (.error (.lengthMismatch
          (saturatingAdd usizeBits h.symbolSize.toNat (frameHeaderSize + frameFooterSize))
          (frameHeaderSize + (payload.length + 4))))
      else if crc32 payload ≠ h.payloadCrc32 then .ok (.error .payloadCrcMismatch)
      else if crc32 (FrameHeader.fields gotMagic version h payload) ≠ footer then
        .ok (.error .frameCrcMismatch)
      else .ok (.ok { header := h, payload, frameCrc32 := footer }) := by
  have length : (FrameHeader.fields gotMagic version h (payload ++ toBe 4 footer)).length =
      frameHeaderSize + (payload.length + 4) := by
    rw [FrameHeader.length_fields, List.length_append, length_toBe]
  have head : (FrameHeader.fields gotMagic version h []).length = frameHeaderSize := by
    rw [FrameHeader.length_fields]
    rfl
  have whole : (FrameHeader.fields gotMagic version h payload).length =
      frameHeaderSize + payload.length := FrameHeader.length_fields ..
  have cut : FrameHeader.fields gotMagic version h (payload ++ toBe 4 footer) =
      FrameHeader.fields gotMagic version h [] ++ (payload ++ toBe 4 footer) :=
    FrameHeader.fields_append gotMagic version h [] _
  have join : FrameHeader.fields gotMagic version h (payload ++ toBe 4 footer) =
      FrameHeader.fields gotMagic version h payload ++ (toBe 4 footer ++ []) := by
    rw [List.append_nil, FrameHeader.fields_append]
  generalize frame : FrameHeader.fields gotMagic version h (payload ++ toBe 4 footer) = bytes at *
  have readHeader := FrameHeader.readBytes_fields gotMagic version h (payload ++ toBe 4 footer)
  rw [frame] at readHeader
  have afterHeader : Ahead bytes frameHeaderSize (payload ++ toBe 4 footer) := by
    have start := (cut ▸ Ahead.start bytes : Ahead bytes 0 (FrameHeader.fields gotMagic version h [] ++
      (payload ++ toBe 4 footer)))
    simpa only [head, Nat.zero_add] using start.skip
  have readPayload := afterHeader.slice (n := payload.length) rfl
  have afterPayload : Ahead bytes (frameHeaderSize + payload.length) (toBe 4 footer ++ []) := by
    rw [List.append_nil]
    exact afterHeader.skip
  have readFooter := afterPayload.slice (length_toBe 4 footer)
  have readChecked : slice bytes 0 (frameHeaderSize + payload.length) =
      .ok (FrameHeader.fields gotMagic version h payload) := by
    have start := (join ▸ Ahead.start bytes : Ahead bytes 0 (FrameHeader.fields gotMagic version h
      payload ++ (toBe 4 footer ++ [])))
    simpa only [Nat.zero_add] using start.slice whole
  obtain ⟨readCrc, -⟩ := (Ahead.start (toBe 4 footer ++ [])).uint (w := 32) rfl
  rw [List.append_nil] at readCrc
  have long : ¬ bytes.length < frameHeaderSize + frameFooterSize := by
    simp only [length, frameFooterSize]
    omega
  unfold fromBytesOn
  simp only [bind, Except.bind, pure, Except.pure, if_neg long, readHeader]
  by_cases other : gotMagic ≠ magic
  · simp only [if_pos other]
  by_cases newer : version ≠ protocolVersion
  · simp only [if_neg other, if_pos newer]
  have actual : bytes.length - (frameHeaderSize + frameFooterSize) = payload.length := by
    simp only [length, frameFooterSize]
    omega
  simp only [if_neg other, if_neg newer, actual, asUsize_u32 wide]
  by_cases sized : h.symbolSize.toNat ≠ payload.length
  · simp only [if_pos sized, length]
  have equal : h.symbolSize.toNat = payload.length := not_not.mp sized
  have stop : bytes.length = frameHeaderSize + payload.length + 4 := by omega
  rw [if_neg sized, if_neg sized]
  simp only [equal, addUsize_of_lt (room equal), readPayload, stop, readFooter]
  by_cases payloadCrc : crc32 payload ≠ h.payloadCrc32
  · simp only [if_pos payloadCrc]
  simp only [if_neg payloadCrc, readChecked, readCrc]

theorem fromBytes_fields (gotMagic : U16) (version : U8) (h : FrameHeader) (payload : Bytes)
    (footer : U32) :
    fromBytes crc32 (FrameHeader.fields gotMagic version h (payload ++ toBe 4 footer)) =
      if gotMagic ≠ magic then .ok (.error (.badMagic magic gotMagic))
      else if version ≠ protocolVersion then .ok (.error (.badVersion version))
      else if h.symbolSize.toNat ≠ payload.length then
        .ok (.error (.lengthMismatch
          (saturatingAdd 64 h.symbolSize.toNat (frameHeaderSize + frameFooterSize))
          (frameHeaderSize + (payload.length + 4))))
      else if crc32 payload ≠ h.payloadCrc32 then .ok (.error .payloadCrcMismatch)
      else if crc32 (FrameHeader.fields gotMagic version h payload) ≠ footer then
        .ok (.error .frameCrcMismatch)
      else .ok (.ok { header := h, payload, frameCrc32 := footer }) := by
  apply fromBytesOn_fields (by decide)
  intro equal
  have small := h.symbolSize.isLt
  simp only [frameHeaderSize]
  omega

theorem toBytes_eq (f : Frame) :
    f.toBytes =
      FrameHeader.fields magic protocolVersion f.header (f.payload ++ toBe 4 f.frameCrc32) :=
  FrameHeader.writeBytes_append f.header _

theorem fromBytes_toBytes {f : Frame} (valid : WireValid crc32 f) :
    fromBytes crc32 f.toBytes = .ok (.ok f) := by
  have frameCrc := valid.frame_crc
  rw [FrameHeader.writeBytes_append] at frameCrc
  rw [toBytes_eq, fromBytes_fields, if_neg (not_not.mpr rfl), if_neg (not_not.mpr rfl),
    if_neg (not_not.mpr valid.size.symm), if_neg (not_not.mpr valid.payload_crc),
    if_neg (not_not.mpr frameCrc)]

theorem fromBytesOn_short (usizeBits : Nat) {bytes : Bytes}
    (short : bytes.length < frameHeaderSize + frameFooterSize) :
    fromBytesOn crc32 usizeBits bytes =
      .ok (.error (.bufferTooShort (frameHeaderSize + frameFooterSize) bytes.length)) := by
  unfold fromBytesOn
  simp only [if_pos short]
  rfl

theorem fromBytes_ok_iff {bytes : Bytes} {f : Frame} :
    fromBytes crc32 bytes = .ok (.ok f) ↔ bytes = f.toBytes ∧ WireValid crc32 f := by
  constructor
  · intro h
    by_cases short : bytes.length < frameHeaderSize + frameFooterSize
    · rw [fromBytes, fromBytesOn_short 64 short] at h
      cases h
    · obtain ⟨gotMagic, version, header, payload, footer, rfl⟩ := exists_frame (not_lt.mp short)
      rw [fromBytes_fields] at h
      split at h
      · cases h
      rename_i other
      split at h
      · cases h
      rename_i newer
      split at h
      · cases h
      rename_i sized
      split at h
      · cases h
      rename_i payloadCrc
      split at h
      · cases h
      rename_i frameCrc
      cases h
      have sameMagic : gotMagic = magic := not_not.mp other
      have sameVersion : version = protocolVersion := not_not.mp newer
      subst sameMagic sameVersion
      refine ⟨by rw [toBytes_eq], (not_not.mp sized).symm, not_not.mp payloadCrc, ?_⟩
      rw [FrameHeader.writeBytes_append]
      exact not_not.mp frameCrc
  · rintro ⟨rfl, valid⟩
    exact fromBytes_toBytes valid

theorem fromBytes_total (bytes : Bytes) : ∃ result, fromBytes crc32 bytes = .ok result := by
  by_cases short : bytes.length < frameHeaderSize + frameFooterSize
  · exact ⟨_, fromBytesOn_short 64 short⟩
  · obtain ⟨gotMagic, version, header, payload, footer, rfl⟩ := exists_frame (not_lt.mp short)
    rw [fromBytes_fields]
    split_ifs <;> exact ⟨_, rfl⟩

theorem build_wireValid (sessionId : U128) (flags : U8)
    (sbn esi totalBlocks totalSymbols symbolSize : U32) (frameIndex timestampMs : U64)
    {payload : Bytes} (size : payload.length = symbolSize.toNat) :
    WireValid crc32 (build crc32 sessionId flags sbn esi totalBlocks totalSymbols symbolSize
      frameIndex timestampMs payload) :=
  ⟨size, rfl, rfl⟩

end Frame

/-- A frame that `Frame::from_bytes` accepts. -/
abbrev WireFrame (crc32 : Bytes → U32) :=
  { f : Frame // ∃ bytes, Frame.fromBytes crc32 bytes = .ok (.ok f) }

theorem WireFrame.wireValid {crc32 : Bytes → U32} (f : WireFrame crc32) :
    Frame.WireValid crc32 f.1 := by
  obtain ⟨f, bytes, accepted⟩ := f
  exact (Frame.fromBytes_ok_iff.mp accepted).2

def WireFrame.ofValid {crc32 : Bytes → U32} {f : Frame} (valid : Frame.WireValid crc32 f) :
    WireFrame crc32 := ⟨f, f.toBytes, Frame.fromBytes_toBytes valid⟩

def WireFrame.build (crc32 : Bytes → U32) (sessionId : U128) (flags : U8)
    (sbn esi totalBlocks totalSymbols symbolSize : U32) (frameIndex timestampMs : U64)
    (payload : Bytes) (size : payload.length = symbolSize.toNat) : WireFrame crc32 :=
  .ofValid (Frame.build_wireValid sessionId flags sbn esi totalBlocks totalSymbols symbolSize
    frameIndex timestampMs size)

end AirFerry.QrProtocol
