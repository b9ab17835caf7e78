import AirFerry.QrProtocol.Frame
import AirFerry.Library.Digest

/-!
# The frame codec is exact

`from_bytes` accepts what `to_bytes` writes of the frames that `build` makes, and nothing else, on
every target. No two frames it accepts differ within four bytes.
-/

namespace AirFerry.Proof
open QrProtocol Frame

variable {crc32 : Bytes → U32}

/-- The arguments of `Frame::build`, with a payload of the declared size. -/
structure Built where
  sessionId : U128
  flags : U8
  sbn : U32
  esi : U32
  totalBlocks : U32
  totalSymbols : U32
  symbolSize : U32
  frameIndex : U64
  timestampMs : U64
  payload : Bytes
  size : payload.length = symbolSize.toNat

def Built.frame (crc32 : Bytes → U32) (b : Built) : Frame :=
  build crc32 b.sessionId b.flags b.sbn b.esi b.totalBlocks b.totalSymbols b.symbolSize b.frameIndex
    b.timestampMs b.payload

theorem Built.wireValid (b : Built) : WireValid crc32 (b.frame crc32) :=
  build_wireValid _ _ _ _ _ _ _ _ _ b.size

theorem built_of_wireValid {f : Frame} (valid : WireValid crc32 f) :
    ∃ b : Built, f = b.frame crc32 := by
  obtain ⟨⟨sessionId, flags, sbn, esi, totalBlocks, totalSymbols, symbolSize, frameIndex, timestampMs,
    payloadCrc32⟩, payload, frameCrc32⟩ := f
  obtain ⟨size, payloadCrc, frameCrc⟩ := valid
  dsimp only at payloadCrc frameCrc
  subst payloadCrc frameCrc
  exact ⟨⟨sessionId, flags, sbn, esi, totalBlocks, totalSymbols, symbolSize, frameIndex, timestampMs,
    payload, size⟩, rfl⟩

/-- Every target reads a slice it can hold as the phones do. -/
theorem fromBytesOn_agrees {usizeBits : Nat} (wide : 32 ≤ usizeBits) {bytes : Bytes}
    (held : bytes.length < 2 ^ usizeBits) :
    ∃ result, fromBytesOn crc32 usizeBits bytes = .ok result ∧
      ∀ f, result = .ok f ↔ fromBytes crc32 bytes = .ok (.ok f) := by
  by_cases short : bytes.length < frameHeaderSize + frameFooterSize
  · refine ⟨_, fromBytesOn_short usizeBits short, fun f => ?_⟩
    rw [fromBytes, fromBytesOn_short 64 short, Except.ok.injEq]
  · obtain ⟨gotMagic, version, header, payload, footer, rfl⟩ := exists_frame (not_lt.mp short)
    rw [FrameHeader.length_fields, List.length_append] at held
    rw [fromBytes_fields, fromBytesOn_fields wide gotMagic version header payload footer
      fun _ => by omega]
    split_ifs <;> exact ⟨_, rfl, fun f => by simp⟩

theorem frame_codec_exact (crc32 : Bytes → U32) :
    (∀ b : Built, fromBytes crc32 (b.frame crc32).toBytes = .ok (.ok (b.frame crc32))) ∧
      (∀ bytes, (∃ e, fromBytes crc32 bytes = .ok (.error e)) ∨
        ∃ f, fromBytes crc32 bytes = .ok (.ok f) ∧ f.payload.length = f.header.symbolSize.toNat ∧
          f.header.payloadCrc32 = crc32 f.payload ∧
          f.frameCrc32 = crc32 (f.header.writeBytes ++ f.payload) ∧ f.toBytes = bytes) ∧
      (∀ bytes, (∃ f, fromBytes crc32 bytes = .ok (.ok f)) ↔
        ∃ b : Built, bytes = (b.frame crc32).toBytes) ∧
      (∀ bytes other f, fromBytes crc32 bytes = .ok (.ok f) → fromBytes crc32 other = .ok (.ok f) →
        bytes = other) ∧
      ∀ usizeBits, 32 ≤ usizeBits → ∀ bytes, bytes.length < 2 ^ usizeBits →
        ∃ result, fromBytesOn crc32 usizeBits bytes = .ok result ∧
          ∀ f, result = .ok f ↔ fromBytes crc32 bytes = .ok (.ok f) := by
  refine ⟨fun b => fromBytes_toBytes b.wireValid, ?_, ?_, ?_,
    fun usizeBits wide bytes held => fromBytesOn_agrees wide held⟩
  · intro bytes
    obtain ⟨result, total⟩ := @fromBytes_total crc32 bytes
    cases result with
    | error e => exact Or.inl ⟨e, total⟩
    | ok f =>
        obtain ⟨written, valid⟩ := fromBytes_ok_iff.mp total
        exact Or.inr ⟨f, total, valid.size, valid.payload_crc.symm, valid.frame_crc.symm, written.symm⟩
  · intro bytes
    constructor
    · rintro ⟨f, accepted⟩
      obtain ⟨written, valid⟩ := fromBytes_ok_iff.mp accepted
      obtain ⟨b, rfl⟩ := built_of_wireValid valid
      exact ⟨b, written⟩
    · rintro ⟨b, rfl⟩
      exact ⟨_, fromBytes_toBytes b.wireValid⟩
  · intro bytes other f accepted again
    rw [(fromBytes_ok_iff.mp accepted).1, (fromBytes_ok_iff.mp again).1]

theorem writeBytes_injective {h g : FrameHeader} (same : h.writeBytes = g.writeBytes) : h = g := by
  have written : ∀ h : FrameHeader, h.writeBytes = FrameHeader.fields magic protocolVersion h [] := by
    intro h
    rw [← FrameHeader.writeBytes_append, List.append_nil]
  have read : ∀ h : FrameHeader, FrameHeader.readBytes h.writeBytes = .ok (.ok h) := by
    intro h
    rw [written, FrameHeader.readBytes_fields, if_neg (not_not.mpr rfl), if_neg (not_not.mpr rfl)]
  have equal := read h
  rw [same, read g] at equal
  injection equal with equal
  injection equal with equal
  exact equal.symm

theorem take_payload (f : Frame) :
    f.toBytes.take (frameHeaderSize + f.payload.length) = f.header.writeBytes ++ f.payload := by
  rw [toBytes, ← List.append_assoc]
  apply List.take_left'
  rw [List.length_append, FrameHeader.length_writeBytes]

theorem take_header (f : Frame) : f.toBytes.take frameHeaderSize = f.header.writeBytes :=
  List.take_left' f.header.length_writeBytes

theorem length_toBytes (f : Frame) :
    f.toBytes.length = frameHeaderSize + f.payload.length + frameFooterSize := by
  rw [toBytes, List.length_append, List.length_append, FrameHeader.length_writeBytes, length_toBe,
    ← Nat.add_assoc]
  rfl

theorem eq_of_covered {f g : Frame} (valid : WireValid crc32 f) (other : WireValid crc32 g)
    (header : f.header = g.header) (payload : f.payload = g.payload) : f = g := by
  have footer : f.frameCrc32 = g.frameCrc32 := by
    rw [← valid.frame_crc, ← other.frame_crc, header, payload]
  obtain ⟨fHeader, fPayload, fCrc⟩ := f
  dsimp only at header payload footer
  rw [header, payload, footer]

/-- The footer catches a burst that ends before it. One that reaches it leaves the header alone,
and the payload CRC read there catches what it did to the payload. -/
theorem eq_of_burst {f g : Frame} {start : Nat} (valid : WireValid Library.Digest.crc32 f)
    (other : WireValid Library.Digest.crc32 g) (long : 4 ≤ f.payload.length)
    (burst : Library.Crc.Burst 4 start f.toBytes g.toBytes) : f = g := by
  have size : f.payload.length = g.payload.length := by
    have length := burst.length
    rw [length_toBytes, length_toBytes] at length
    omega
  by_cases inside : start + 4 ≤ frameHeaderSize + f.payload.length
  · have footer := burst.drop_eq inside
    have covered := burst.take (frameHeaderSize + f.payload.length)
    have ends : ∀ k : Frame, k.toBytes.drop (frameHeaderSize + k.payload.length) =
        toBe 4 k.frameCrc32 := by
      intro k
      rw [toBytes, ← List.append_assoc]
      apply List.drop_left'
      rw [List.length_append, FrameHeader.length_writeBytes]
    rw [ends, size, ends] at footer
    have crcs : f.frameCrc32 = g.frameCrc32 := by
      have read := congrArg (fun bytes => BitVec.ofNat 32 (Library.BigEndian.ofBytes bytes)) footer
      simp only [toBe] at read
      rwa [Library.BigEndian.ofNat_ofBytes_toBytes 4 rfl,
        Library.BigEndian.ofNat_ofBytes_toBytes 4 rfl] at read
    rw [take_payload, size, take_payload] at covered
    have equal := Library.Digest.crc32_burst covered (by rw [valid.frame_crc, other.frame_crc, crcs])
    obtain ⟨header, payload⟩ := List.append_inj equal
      (by rw [FrameHeader.length_writeBytes, FrameHeader.length_writeBytes])
    exact eq_of_covered valid other (writeBytes_injective header) payload
  · have headers := burst.take_eq (by omega : frameHeaderSize ≤ start)
    rw [take_header, take_header] at headers
    have header := writeBytes_injective headers
    have covered := (burst.take (frameHeaderSize + f.payload.length)).drop frameHeaderSize
    have payloads : ∀ k : Frame, (k.toBytes.take (frameHeaderSize + k.payload.length)).drop
        frameHeaderSize = k.payload := by
      intro k
      rw [take_payload]
      exact List.drop_left' k.header.length_writeBytes
    rw [payloads, size, payloads] at covered
    have payload := Library.Digest.crc32_burst covered
      (by rw [valid.payload_crc, other.payload_crc, header])
    exact eq_of_covered valid other header payload

theorem short_bursts_fail {bytes other : Bytes} {f : Frame}
    (accepted : fromBytes Library.Digest.crc32 bytes = .ok (.ok f)) (long : 4 ≤ f.payload.length)
    (start : Nat) (length : other.length = bytes.length) (changed : other ≠ bytes)
    (burst : ∀ i, i < start ∨ start + 4 ≤ i → other[i]? = bytes[i]?) :
    ∃ e, fromBytes Library.Digest.crc32 other = .ok (.error e) := by
  obtain ⟨result, total⟩ := @fromBytes_total Library.Digest.crc32 other
  cases result with
  | error e => exact ⟨e, total⟩
  | ok g =>
      obtain ⟨written, valid⟩ := fromBytes_ok_iff.mp accepted
      obtain ⟨rewritten, otherValid⟩ := fromBytes_ok_iff.mp total
      subst written rewritten
      have equal := eq_of_burst valid otherValid long
        ⟨length.symm, fun i outside => (burst i outside).symm⟩
      exact absurd (congrArg toBytes equal.symm) changed

def pingFrame : Frame := build Library.Digest.crc32 7 0 0 0 1 1 4 1 0 [0x70, 0x69, 0x6e, 0x67]

theorem short_bursts_fail_straddling :
    ∃ e, fromBytes Library.Digest.crc32 ((pingFrame.toBytes.set 63 0x68).set 64 0xff) =
      .ok (.error e) :=
  have accepted : fromBytes Library.Digest.crc32 pingFrame.toBytes = .ok (.ok pingFrame) :=
    fromBytes_toBytes (build_wireValid 7 0 0 0 1 1 4 1 0 (by decide))
  short_bursts_fail accepted (by decide) 62 (by rw [List.length_set, List.length_set])
    (by decide +kernel) (by
      intro i outside
      rw [List.getElem?_set_ne (by omega), List.getElem?_set_ne (by omega)])

end AirFerry.Proof
