import AirFerry.Ios.AirFerryNative
import AirFerry.Library.Pieces

/-!
# The receiver screen

Every scanned payload goes through `ingest`. A session that completes is either one segment, kept in
a directory until all of them are there, or a whole file. Each step that can throw besides what the
core answers takes its outcome from `Outcomes`.
-/

namespace AirFerry.Ios
open Library QrProtocol TransferEngine

variable {E : Env}

/-- Which of the throwing steps succeed while one payload is handled. -/
structure Outcomes where
  segmentInfo : Bool
  assembleRaw : Bool
  store : Bool
  concatenate : Bool
  finishSegmented : Bool
  assemble : Bool
  uniqueOutputURL : Bool
  write : Bool
deriving DecidableEq, Repr

abbrev Disk := String → Nat → Option Bytes

structure SegmentAccumulator where
  info : NativeSegmentInfo
  directory : String
  received : Finset Nat

namespace SegmentAccumulator

def store (a : SegmentAccumulator) (outcomes : Outcomes) (disk : Disk) (index : Nat) (data : Bytes) :
    Option (SegmentAccumulator × Disk) :=
  if ¬ index < a.info.count then none
  else if ¬ outcomes.store then none
  else some ({ a with received := insert index a.received },
    Function.update disk a.directory (Function.update (disk a.directory) index (some data)))

def isComplete (a : SegmentAccumulator) : Bool := a.received.card = a.info.count

def parts (a : SegmentAccumulator) (disk : Disk) : List (Option Bytes) :=
  (List.range a.info.count).map (disk a.directory)

def removeDirectory (a : SegmentAccumulator) (disk : Disk) : Disk :=
  Function.update disk a.directory fun _ => none

end SegmentAccumulator

/-- A finished output, with the descriptor fields it was announced with and the recovered pieces it
was made of. -/
structure Finished where
  segmented : Bool
  originalSize : U64
  crc32 : U32
  crc32Known : Bool
  pieces : List Bytes
  output : Bytes
deriving DecidableEq

/-- What one payload led to. `recovered` is the session id and the bytes of a completed session. -/
structure Handled where
  recovered : Option (U128 × Bytes)
  finished : Option Finished

def Handled.nothing : Handled := { recovered := none, finished := none }

structure ReceiverViewModel (E : Env) where
  native : NativeReceiver E
  accumulator : Option SegmentAccumulator
  ignoredSessionKeys : Finset String
  finishing : Bool
  status : String
  completedFile : Option Bytes
  disk : Disk

namespace ReceiverViewModel

def fresh (E : Env) (disk : Disk) : ReceiverViewModel E where
  native := none
  accumulator := none
  ignoredSessionKeys := ∅
  finishing := false
  status := "将发送端二维码完整放入取景框"
  completedFile := none
  disk := disk

def reset (vm : ReceiverViewModel E) : ReceiverViewModel E :=
  match vm.accumulator with
  | some a => fresh E (a.removeDirectory vm.disk)
  | none => fresh E vm.disk

def frameSessionKey (data : Bytes) : Option String :=
  if 20 ≤ data.length ∧ data[0]? = some 0x45 ∧ data[1]? = some 0x54 then
    some (Hex.encode ((data.drop 4).take 16))
  else none

/-- Leaving through a `catch`. -/
def failed (vm : ReceiverViewModel E) : ReceiverViewModel E := { vm with finishing := false }

def finish (vm : ReceiverViewModel E) (output : Bytes) : ReceiverViewModel E :=
  { vm with
    status := "接收完成，已保存并通过完整性校验"
    completedFile := some output
    finishing := false }

def finishAccumulator (vm : ReceiverViewModel E) (outcomes : Outcomes) (a : SegmentAccumulator) :
    ReceiverViewModel E × Option Finished :=
  let vm := { vm with status := "正在合并并校验文件…" }
  match Pieces.collect (a.parts vm.disk) with
  | none => (vm.failed, none)
  | some pieces =>
      if ¬ (a.isComplete ∧ outcomes.concatenate ∧ outcomes.uniqueOutputURL ∧
          outcomes.finishSegmented) then (vm.failed, none)
      else
        match NativeReceiver.finishSegmented E pieces.flatten a.info with
        | .error _ => (vm.failed, none)
        | .ok output =>
            let vm := { vm with accumulator := none, disk := a.removeDirectory vm.disk }
            (vm.finish output, some {
              segmented := true, originalSize := a.info.expectedSize, crc32 := a.info.expectedCRC,
              crc32Known := a.info.crcKnown, pieces, output })

/-- The accumulator a segment goes to: the open one, or a new one in place of that of another
transfer. -/
def openAccumulator (vm : ReceiverViewModel E) (info : NativeSegmentInfo) :
    SegmentAccumulator × Disk :=
  let opened : SegmentAccumulator := { info, directory := info.rootKey, received := ∅ }
  match vm.accumulator with
  | none => (opened, vm.disk)
  | some a => if a.info.rootKey ≠ info.rootKey then (opened, a.removeDirectory vm.disk) else (a, vm.disk)

def finishSegment (vm : ReceiverViewModel E) (outcomes : Outcomes) (s : ReceiverSession E) :
    ReceiverViewModel E × Handled :=
  match NativeReceiver.segmentInfo (some s) with
  | .error _ => (vm.failed, .nothing)
  | .ok info =>
      if ¬ outcomes.segmentInfo then (vm.failed, .nothing)
      else
        match NativeReceiver.assembleRaw (some s) with
        | .error _ => (vm.failed, .nothing)
        | .ok raw =>
            if ¬ outcomes.assembleRaw then (vm.failed, .nothing)
            else
              let (a, disk) := vm.openAccumulator info
              let recovered := some (s.sessionId, raw)
              match a.store outcomes disk info.index raw with
              | none =>
                  ({ vm with accumulator := some a, disk }.failed, { recovered, finished := none })
              | some (a, disk) =>
                  let vm := { vm with accumulator := some a, disk, native := none }
                  if a.isComplete then
                    let (vm, finished) := vm.finishAccumulator outcomes a
                    (vm, { recovered, finished })
                  else
                    ({ vm with
                      status := s!"第 {info.index + 1} 段完成，请在发送端切换下一段"
                      finishing := false }, { recovered, finished := none })

def finishObject (vm : ReceiverViewModel E) (outcomes : Outcomes) (s : ReceiverSession E) :
    ReceiverViewModel E × Handled :=
  match NativeReceiver.assemble (some s) with
  | (native, .error _) => ({ vm with native }.failed, .nothing)
  | (native, .ok data) =>
      let recovered := some (s.sessionId, data)
      if ¬ outcomes.assemble then ({ vm with native }.failed, .nothing)
      else if ¬ (outcomes.uniqueOutputURL ∧ outcomes.write) then
        ({ vm with native }.failed, { recovered, finished := none })
      else
        ({ vm with native := none }.finish data, {
          recovered, finished := some {
            segmented := false, originalSize := s.fileMeta.originalSize, crc32 := s.fileMeta.crc32,
            crc32Known := s.fileMeta.crc32Known, pieces := [data], output := data } })

def finishCurrentSession (vm : ReceiverViewModel E) (outcomes : Outcomes) (s : ReceiverSession E) :
    ReceiverViewModel E × Handled :=
  if airferryReceiverIsSegmented s then vm.finishSegment outcomes s else vm.finishObject outcomes s

def ingest (vm : ReceiverViewModel E) (outcomes : Outcomes) (payload : Bytes) :
    Exec (ReceiverViewModel E × Handled) := do
  if vm.finishing then return (vm, .nothing)
  match frameSessionKey payload with
  | none => return (vm, .nothing)
  | some sessionKey =>
      if sessionKey ∈ vm.ignoredSessionKeys then return (vm, .nothing)
      match ← NativeReceiver.ingest vm.native payload with
      | (native, .error _) => return ({ vm with native }, .nothing)
      | (native, .ok latest) =>
          let status := if latest.metaConfirmed
            then s!"正在恢复 · {latest.receivedSymbols} / {latest.totalSymbols} 个符号"
            else "已识别传输，等待元数据帧…"
          let vm := { vm with native, status }
          match native with
          | none => return (vm, .nothing)
          | some s =>
              if s.isComplete then
                let vm := { vm with
                  finishing := true
                  ignoredSessionKeys := insert sessionKey vm.ignoredSessionKeys }
                return vm.finishCurrentSession outcomes s
              else return (vm, .nothing)

end ReceiverViewModel

end AirFerry.Ios
