import AirFerry.Library.BufWriter
import AirFerry.Library.Chunked
import AirFerry.QrProtocol.Compress

/-!
# Decompression, read by read

`Compress` says what a decompression comes to. Here it is carried out as the source does it: chunk
by chunk through a capped reader, hashing and writing on the way, where every system call can fail.
-/

namespace AirFerry.QrProtocol.Streaming
open Library.Chunked Library.BufWriter

/-- `max_output.saturating_add(1)`: one byte past the cap, where there is one. -/
def readLimit (maxOutput : U64) : Nat := min (maxOutput.toNat + 1) (2 ^ 64 - 1)

def capped (stream : DecodeStream) (maxOutput : U64) : Take U8 String :=
  { inner := { pending := stream.bytes, failure := stream.failure, reads := 0 }
    limit := readLimit maxOutput }

def readCapped (chunking : Chunking) (stream : DecodeStream) (maxOutput : U64) :
    Except String Bytes :=
  match (capped stream maxOutput).readToEnd chunking [] with
  | .error reason => .error reason
  | .ok out =>
      if maxOutput.toNat < out.length then .error "decompressed output exceeds expected size"
      else .ok out

def decompressWithLimit (codecs : Codecs) (chunking : Chunking) (data : Bytes) (compression : U8)
    (maxOutput : U64) : Except String Bytes :=
  if compression = compressionZstd then
    match codecs.zstdDecoder data with
    | .error reason => .error reason
    | .ok stream => readCapped chunking stream maxOutput
  else if compression = compressionXz then
    match codecs.xzDecoder data with
    | .error reason => .error reason
    | .ok stream => readCapped chunking stream maxOutput
  else if ¬ isKnownCompressionTag compression ∧ data ≠ [] then
    .error s!"unknown compression algorithm tag {compression.toNat}"
  else if maxOutput.toNat < data.length then .error "payload exceeds size limit"
  else .ok data

abbrev Disk := String → Option Bytes

def Disk.store (disk : Disk) (path : String) (contents : Bytes) : Disk :=
  Function.update disk path (some contents)

def Disk.remove (disk : Disk) (path : String) : Disk := Function.update disk path none

structure Hasher {α : Type} (digest : Bytes → α) where
  State : Type
  new : State
  update : State → Bytes → State
  finalize : State → α
  finalize_chunks : ∀ chunks : List Bytes, finalize (chunks.foldl update new) = digest chunks.flatten

/-- What one call meets outside the core: how its reads are cut, and which system calls fail. -/
structure Host (crc32 : Bytes → U32) (sha256 : Bytes → Octets 32) where
  codecs : Codecs
  crc : Hasher crc32
  sha : Hasher sha256
  chunking : Chunking
  openInput : Except String Unit
  createOutput : Except String Unit
  inputMetadata : Except String Unit
  inputLost : Option (Nat × String)
  output : Device String

variable {crc32 : Bytes → U32} {sha256 : Bytes → Octets 32}

/-- The state of `decode`, a closure over the hashers, the counters and the writer. -/
structure Decoding (host : Host crc32 sha256) where
  crc : host.crc.State
  sha : host.sha.State
  written : Nat
  exceeded : Bool
  writer : Writer U8

namespace Host

variable (host : Host crc32 sha256)

def start : Decoding host :=
  { crc := host.crc.new, sha := host.sha.new, written := 0, exceeded := false
    writer := .withCapacity (1 <<< 20) [] }

def decode (maxOutput : U64) (reader : Take U8 String) (d : Decoding host) :
    Decoding host × Except String Unit :=
  match _ : reader.read host.chunking (256 * 1024) with
  | .error reason => (d, .error s!"read: {reason}")
  | .ok (chunk, rest) =>
      if chunk = [] then (d, .ok ())
      else
        let written := min (d.written + chunk.length) (2 ^ 64 - 1)
        if maxOutput.toNat < written then ({ d with written, exceeded := true }, .ok ())
        else
          let crc := host.crc.update d.crc chunk
          let sha := host.sha.update d.sha chunk
          match d.writer.writeAll host.output chunk with
          | (writer, .error reason) => ({ d with written, crc, sha, writer }, .error s!"write: {reason}")
          | (writer, .ok ()) => decode maxOutput rest { d with written, crc, sha, writer }
termination_by reader.limit
decreasing_by
  rename_i step nonempty _
  exact Take.limit_lt step nonempty

def reachable (stream : DecodeStream) : DecodeStream :=
  match host.inputLost with
  | none => stream
  | some (n, reason) =>
      if n ≤ stream.bytes.length then { bytes := stream.bytes.take n, failure := some reason }
      else stream

def decodeFrom (stream : DecodeStream) (maxOutput : U64) : Decoding host × Except String Unit :=
  host.decode maxOutput (capped (host.reachable stream) maxOutput) host.start

def decodeInput (input : Bytes) (compression : U8) (maxOutput : U64) :
    Decoding host × Except String Unit :=
  if compression = compressionZstd then
    match host.codecs.zstdDecoder input with
    | .error reason => (host.start, .error reason)
    | .ok stream => host.decodeFrom stream maxOutput
  else if compression = compressionXz then
    match host.codecs.xzDecoder input with
    | .error reason => (host.start, .error reason)
    | .ok stream => host.decodeFrom stream maxOutput
  else if isKnownCompressionTag compression ∨ (host.inputMetadata = .ok () ∧ input = []) then
    host.decodeFrom { bytes := input, failure := none } maxOutput
  else (host.start, .error s!"unknown compression algorithm tag {compression.toNat}")

/-- `drop(writer)` and `remove_file`, before an error is returned. -/
def abandon (disk : Disk) (outputPath : String) (writer : Writer U8) : Disk :=
  (disk.store outputPath (writer.drop host.output).contents).remove outputPath

def finish (disk : Disk) (outputPath : String) :
    Decoding host × Except String Unit → Disk × Except String DecompressStreamOutcome
  | (d, .error reason) => (host.abandon disk outputPath d.writer, .error reason)
  | (d, .ok ()) =>
      if d.exceeded then
        (host.abandon disk outputPath d.writer, .error "decompressed output exceeds expected size")
      else
        match d.writer.flush host.output with
        | (writer, .error reason) =>
            (host.abandon disk outputPath writer, .error s!"flush: {reason}")
        | (writer, .ok ()) =>
            (disk.store outputPath writer.file.contents, .ok {
              outputSize := d.written
              crc32 := host.crc.finalize d.crc
              sha256 := host.sha.finalize d.sha })

def decompressStreamToFile (disk : Disk) (inputPath outputPath : String) (compression : U8)
    (maxOutput : U64) : Disk × Except String DecompressStreamOutcome :=
  match host.openInput, disk inputPath with
  | .error reason, _ => (disk, .error s!"open input: {reason}")
  | .ok (), none => (disk, .error "open input: No such file or directory")
  | .ok (), some _ =>
      match host.createOutput with
      | .error reason => (disk, .error s!"create output: {reason}")
      | .ok () =>
          let disk := disk.store outputPath []
          -- the open input is what the path holds now, which is nothing if it is the output
          host.finish disk outputPath
            (host.decodeInput ((disk inputPath).getD []) compression maxOutput)

end Host

end AirFerry.QrProtocol.Streaming
