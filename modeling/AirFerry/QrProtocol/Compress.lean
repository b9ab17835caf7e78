import AirFerry.QrProtocol.Frame

/-!
# Compression

zstd and xz live outside the repository. A decoder over some input yields bytes and then either
ends or fails; `Codecs` gives both, and the core's own output caps are modelled over it. Every
failure here is an `Error::Compress`, of which the model keeps the message.
-/

namespace AirFerry.QrProtocol

def compressionNone : U8 := 0
def compressionZstd : U8 := 1
def compressionXz : U8 := 2

def isKnownCompressionTag (tag : U8) : Bool :=
  tag = compressionNone ∨ tag = compressionZstd ∨ tag = compressionXz

structure DecodeStream where
  bytes : Bytes
  failure : Option String
deriving DecidableEq, Repr

structure Codecs where
  zstdDecoder : Bytes → Except String DecodeStream
  xzDecoder : Bytes → Except String DecodeStream

def readCapped (stream : DecodeStream) (maxOutput : Nat) : Except String Bytes :=
  -- `take` stops one byte past the cap, so a failure behind it is never reached
  if stream.bytes.length ≤ maxOutput then
    match stream.failure with
    | some reason => .error reason
    | none => .ok stream.bytes
  else .error "decompressed output exceeds expected size"

def decompressWithLimit (codecs : Codecs) (data : Bytes) (compression : U8) (maxOutput : Nat) :
    Except String Bytes :=
  if compression = compressionZstd then
    match codecs.zstdDecoder data with
    | .error reason => .error reason
    | .ok stream => readCapped stream maxOutput
  else if compression = compressionXz then
    match codecs.xzDecoder data with
    | .error reason => .error reason
    | .ok stream => readCapped stream maxOutput
  else if ¬ isKnownCompressionTag compression ∧ data ≠ [] then
    .error s!"unknown compression algorithm tag {compression.toNat}"
  else if maxOutput < data.length then .error "payload exceeds size limit"
  else .ok data

structure DecompressStreamOutcome where
  outputSize : Nat
  crc32 : U32
  sha256 : Octets 32
deriving DecidableEq

/-- The decode loop of `decompress_stream_to_file`; the file's bytes come with the outcome. -/
def decodeToFile (crc32 : Bytes → U32) (sha256 : Bytes → Octets 32) (stream : DecodeStream)
    (maxOutput : Nat) : Except String (Bytes × DecompressStreamOutcome) :=
  if stream.bytes.length ≤ maxOutput then
    match stream.failure with
    | some reason => .error s!"read: {reason}"
    | none =>
        .ok (stream.bytes, {
          outputSize := stream.bytes.length
          crc32 := crc32 stream.bytes
          sha256 := sha256 stream.bytes })
  else .error "decompressed output exceeds expected size"

def decompressStreamToFile (codecs : Codecs) (crc32 : Bytes → U32) (sha256 : Bytes → Octets 32)
    (input : Bytes) (compression : U8) (maxOutput : Nat) :
    Except String (Bytes × DecompressStreamOutcome) :=
  if compression = compressionZstd then
    match codecs.zstdDecoder input with
    | .error reason => .error reason
    | .ok stream => decodeToFile crc32 sha256 stream maxOutput
  else if compression = compressionXz then
    match codecs.xzDecoder input with
    | .error reason => .error reason
    | .ok stream => decodeToFile crc32 sha256 stream maxOutput
  else if isKnownCompressionTag compression ∨ input = [] then
    decodeToFile crc32 sha256 { bytes := input, failure := none } maxOutput
  else .error s!"unknown compression algorithm tag {compression.toNat}"

theorem decodeToFile_ok {crc32 : Bytes → U32} {sha256 : Bytes → Octets 32} {stream : DecodeStream}
    {maxOutput : Nat} {output : Bytes} {outcome : DecompressStreamOutcome}
    (h : decodeToFile crc32 sha256 stream maxOutput = .ok (output, outcome)) :
    output.length ≤ maxOutput ∧ outcome.outputSize = output.length ∧
      outcome.crc32 = crc32 output ∧ outcome.sha256 = sha256 output := by
  unfold decodeToFile at h
  split at h
  · rename_i small
    split at h
    · cases h
    · cases h
      exact ⟨small, rfl, rfl, rfl⟩
  · cases h

theorem decompressStreamToFile_ok {codecs : Codecs} {crc32 : Bytes → U32}
    {sha256 : Bytes → Octets 32} {input : Bytes} {compression : U8} {maxOutput : Nat}
    {output : Bytes} {outcome : DecompressStreamOutcome}
    (h : decompressStreamToFile codecs crc32 sha256 input compression maxOutput =
      .ok (output, outcome)) :
    output.length ≤ maxOutput ∧ outcome.outputSize = output.length ∧
      outcome.crc32 = crc32 output ∧ outcome.sha256 = sha256 output := by
  unfold decompressStreamToFile at h
  split at h
  · split at h
    · cases h
    · exact decodeToFile_ok h
  · split at h
    · split at h
      · cases h
      · exact decodeToFile_ok h
    · split at h
      · exact decodeToFile_ok h
      · cases h

end AirFerry.QrProtocol
