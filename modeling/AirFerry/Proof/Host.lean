import AirFerry.Ios.ReceiverViewModel
import AirFerry.Proof.Finished

namespace AirFerry.Proof
open Library QrProtocol RaptorqCore TransferEngine ReceiverSession Ios

variable {E : Env}

/-! ## One session -/

/-- The stage of a session that started pending; its last assembly error plays no part. -/
def Live (s : ReceiverSession E) : Prop :=
  ∃ stage : Stage, Matches s.sessionId s stage ∧ stage.Adopted E.raptorq s.sessionId

theorem Live.failedAssembly {s : ReceiverSession E} (h : Live s) (error : Option String) :
    Live { s with lastAssembleError := error } := by
  obtain ⟨stage, matched, adopted⟩ := h
  refine ⟨stage, ?_, adopted⟩
  cases stage with
  | waiting cache => exact ⟨rfl, { matched.2 with }⟩
  | recovering m described log =>
      refine ⟨rfl, matched.2.1, matched.2.2.1.of_same ⟨rfl, rfl, rfl, rfl, rfl⟩, { matched.2.2.2 with }⟩

def Stage.complete (R : Raptorq) : Stage → Bool
  | .waiting _ => false
  | .recovering m _ log => (Decoder.ofLog R m log).isComplete

theorem Matches.isComplete {sessionId : U128} {s : ReceiverSession E} {stage : Stage}
    (h : Matches sessionId s stage) : s.isComplete = stage.complete E.raptorq := by
  cases stage with
  | waiting cache =>
      rw [ReceiverSession.isComplete, h.2.decoder]
      rfl
  | recovering m described log => exact h.2.2.2.isComplete

theorem Live.described {s : ReceiverSession E} (h : Live s) (complete : s.isComplete = true) :
    ∃ info, ValidDescriptor E.raptorq s.sessionId info ∧ s.fileMeta = info.fileMeta ∧
      s.segmentMeta = info.segment := by
  obtain ⟨stage, matched, adopted⟩ := h
  cases stage with
  | waiting cache =>
      rw [matched.isComplete] at complete
      cases complete
  | recovering m described log =>
      obtain ⟨info, valid, -, rfl⟩ := adopted
      obtain ⟨-, file, segment⟩ := matched.2.2.1
      exact ⟨info, valid, file, segment⟩

/-! ## One frame -/

theorem native_ingest {s : ReceiverSession E} {stage : Stage} (matched : Matches s.sessionId s stage)
    (f : WireFrame E.crc32) :
    ∃ s' result, NativeReceiver.ingest (some s) f.1.toBytes = .ok (some s', result) ∧
      Matches s.sessionId s' (stage.next E s.sessionId f.1) ∧
      (result = .ok (NativeReceiver.progressOf s') ∨ s'.isComplete = false) := by
  obtain ⟨s', answer, step, next, -⟩ := ingest_simulates s.sessionId s stage f matched
  have status := airferryReceiverIngest_read (Frame.fromBytes_toBytes f.wireValid) step
  unfold NativeReceiver.ingest
  simp only [bind, Except.bind, pure, Except.pure, status, IngestStatus.pack_received]
  split
  · rename_i error
    refine ⟨s', _, rfl, next, Or.inr ?_⟩
    cases here : stage.next E s.sessionId f.1 with
    | waiting cache =>
        rw [here] at next
        exact next.isComplete
    | recovering m described log =>
        rw [here] at next
        have recovering : Recovering s' m log := next.2.2.2
        have small := receivedCount_lt recovering.valid recovering.fits
        have count : s'.getProgress.receivedSymbols = receivedCount m log := recovering.receivedSymbols
        have value := congrArg BitVec.toNat error
        have top : (0xFFFFFFFF : U32).toNat = 2 ^ 32 - 1 := rfl
        rw [count, BitVec.toNat_ofNat, Nat.mod_eq_of_lt (by omega), top] at value
        omega
  · exact ⟨s', _, rfl, next, Or.inl rfl⟩

theorem frameSessionKey_toBytes (f : Frame) :
    ReceiverViewModel.frameSessionKey f.toBytes = some (Hex.encode (toBe 16 f.header.sessionId)) := by
  have bytes : f.toBytes = [0x45, 0x54, protocolVersion, f.header.flags] ++
      (toBe 16 f.header.sessionId ++ f.toBytes.drop 20) := by
    rw [Frame.toBytes_eq]
    rfl
  have field : (f.toBytes.drop 4).take 16 = toBe 16 f.header.sessionId := by
    rw [bytes]
    exact List.take_left' (length_toBe 16 f.header.sessionId)
  have long : 20 ≤ f.toBytes.length := by
    rw [Frame.toBytes, List.length_append, FrameHeader.length_writeBytes]
    simp only [frameHeaderSize]
    omega
  unfold ReceiverViewModel.frameSessionKey
  rw [if_pos ⟨long, by rw [bytes]; rfl, by rw [bytes]; rfl⟩, field]

/-! ## One scan -/

structure Scanned (native native' : NativeReceiver E) (payload : Bytes)
    (result : Except NativeError NativeProgress) : Prop where
  live : ∀ s ∈ native', Live s
  completes : (∀ s ∈ native, s.isComplete = false) → ∀ s ∈ native', s.isComplete = true →
    (∃ latest, result = .ok latest) ∧
      ReceiverViewModel.frameSessionKey payload = some (Hex.encode (toBe 16 s.sessionId))

theorem scan_refused {native : NativeReceiver E} (live : ∀ s ∈ native, Live s) (payload : Bytes)
    (error : NativeError) : Scanned native native payload (.error error) :=
  ⟨live, fun idle s member complete => by
    rw [idle s member] at complete
    cases complete⟩

theorem scan_frame {s : ReceiverSession E} (live : Live s) (f : WireFrame E.crc32) :
    ∃ native' result, NativeReceiver.ingest (some s) f.1.toBytes = .ok (native', result) ∧
      Scanned (some s) native' f.1.toBytes result := by
  obtain ⟨stage, matched, adopted⟩ := live
  obtain ⟨s', result, run, next, answer⟩ := native_ingest matched f
  have same : s'.sessionId = s.sessionId := next.sessionId_eq
  refine ⟨some s', result, run, ?_, ?_⟩
  · rintro _ ⟨⟩
    rw [← same] at next adopted
    exact ⟨_, next, same ▸ Stage.adopted_next adopted f.1⟩
  · rintro idle _ ⟨⟩ complete
    have own : f.1.header.sessionId = s.sessionId := by
      by_contra foreign
      rw [next.isComplete] at complete
      unfold Stage.next at complete
      rw [if_pos foreign, ← matched.isComplete, idle s rfl] at complete
      cases complete
    refine ⟨?_, ?_⟩
    · rcases answer with answered | incomplete
      · exact ⟨_, answered⟩
      · rw [incomplete] at complete
        cases complete
    · rw [frameSessionKey_toBytes, own, same]

theorem scan {native : NativeReceiver E} (live : ∀ s ∈ native, Live s) (payload : Bytes) :
    ∃ native' result, NativeReceiver.ingest native payload = .ok (native', result) ∧
      Scanned native native' payload result := by
  obtain ⟨parsed, read⟩ := @Frame.fromBytes_total E.crc32 payload
  cases parsed with
  | error e =>
      have created : airferryReceiverCreateFromFrame E payload = .ok none := by
        unfold airferryReceiverCreateFromFrame
        simp only [bind, Except.bind, pure, Except.pure, read]
        split <;> rfl
      have refused : ∀ s : ReceiverSession E,
          airferryReceiverIngest s payload = .ok (s, IngestStatus.ingestError) := by
        intro s
        unfold airferryReceiverIngest
        simp only [bind, Except.bind, pure, Except.pure, read]
        split <;> rfl
      cases native with
      | none =>
          refine ⟨none, .error .invalidFrame, ?_, scan_refused live payload _⟩
          unfold NativeReceiver.ingest
          simp only [bind, Except.bind, pure, Except.pure, created]
      | some s =>
          refine ⟨some s, .error .invalidFrame, ?_, scan_refused live payload _⟩
          unfold NativeReceiver.ingest
          simp only [bind, Except.bind, pure, Except.pure, refused]
          rfl
  | ok f =>
      obtain ⟨rfl, valid⟩ := Frame.fromBytes_ok_iff.mp read
      let frame : WireFrame E.crc32 := .ofValid valid
      cases native with
      | some s => exact scan_frame (live s rfl) frame
      | none =>
          obtain ⟨s, new, matched⟩ := newPending_waiting E f.header.sessionId
          have same : s.sessionId = f.header.sessionId := matched.sessionId_eq
          have fresh : Live s := ⟨.waiting ∅, same.symm ▸ matched, trivial⟩
          obtain ⟨native', result, run, scanned⟩ := scan_frame fresh frame
          have created : airferryReceiverCreateFromFrame E f.toBytes = .ok (some s) := by
            unfold airferryReceiverCreateFromFrame
            have filled : f.toBytes ≠ [] := by
              intro empty
              rw [empty] at read
              cases read
            simp only [bind, Except.bind, pure, Except.pure, if_neg filled, read, new]
          refine ⟨native', result, ?_, scanned.live, fun _ => scanned.completes ?_⟩
          · rw [← run]
            unfold NativeReceiver.ingest
            simp only [bind, Except.bind, pure, Except.pure, created]
            rfl
          · rintro _ ⟨⟩
            exact matched.isComplete

/-! ## One payload -/

structure Completes (vm : ReceiverViewModel E) (payload : Bytes) (s : ReceiverSession E) : Prop where
  idle : vm.finishing = false
  wanted : ∃ key, ReceiverViewModel.frameSessionKey payload = some key ∧ key ∉ vm.ignoredSessionKeys
  ingested : ∃ latest, NativeReceiver.ingest vm.native payload = .ok (some s, .ok latest)
  complete : s.isComplete = true

def finishingOf (vm : ReceiverViewModel E) (key status : String) (s : ReceiverSession E) :
    ReceiverViewModel E :=
  { vm with
    native := some s
    status := status
    finishing := true
    ignoredSessionKeys := insert key vm.ignoredSessionKeys }

structure Passed (vm vm' : ReceiverViewModel E) (handled : Handled) (payload : Bytes) : Prop where
  same : ∃ native status, vm' = { vm with native, status }
  nothing : handled = .nothing
  live : ∀ s ∈ vm'.native, Live s
  idle : (∀ s ∈ vm.native, s.isComplete = false) → ∀ s ∈ vm'.native, s.isComplete = false
  incomplete : ∀ s, ¬ Completes vm payload s

structure Finishing (vm vm' : ReceiverViewModel E) (handled : Handled) (outcomes : Outcomes)
    (payload : Bytes) (s : ReceiverSession E) (key : String) : Prop where
  completes : Completes vm payload s
  sole : ∀ other, Completes vm payload other → other = s
  live : Live s
  unseen : key ∉ vm.ignoredSessionKeys
  own : (∀ old ∈ vm.native, old.isComplete = false) → key = Hex.encode (toBe 16 s.sessionId)
  finish : ∃ status, (vm', handled) = (finishingOf vm key status s).finishCurrentSession outcomes s

theorem passed_incomplete {vm : ReceiverViewModel E} {payload : Bytes} {native : NativeReceiver E}
    {result : Except NativeError NativeProgress}
    (run : NativeReceiver.ingest vm.native payload = .ok (native, result))
    (scanned : Scanned vm.native native payload result)
    (incomplete : (∀ latest, result ≠ .ok latest) ∨ ∀ s ∈ native, s.isComplete = false)
    (status : String) : Passed vm { vm with native, status } .nothing payload where
  same := ⟨native, status, rfl⟩
  nothing := rfl
  live := scanned.live
  idle := by
    intro idle s member
    rcases incomplete with failed | incomplete
    · by_contra complete
      obtain ⟨⟨latest, answered⟩, -⟩ := scanned.completes idle s member (by simpa using complete)
      exact failed latest answered
    · exact incomplete s member
  incomplete := by
    intro s h
    obtain ⟨latest, ingested⟩ := h.ingested
    rw [run] at ingested
    cases ingested
    rcases incomplete with failed | incomplete
    · exact failed latest rfl
    · have unfinished := incomplete s rfl
      rw [h.complete] at unfinished
      cases unfinished

theorem ingest_cases (vm : ReceiverViewModel E) (live : ∀ s ∈ vm.native, Live s)
    (outcomes : Outcomes) (payload : Bytes) :
    ∃ vm' handled, vm.ingest outcomes payload = .ok (vm', handled) ∧
      (Passed vm vm' handled payload ∨ ∃ s key, Finishing vm vm' handled outcomes payload s key) := by
  have dropped : (∀ s, ¬ Completes vm payload s) → Passed vm vm .nothing payload :=
    fun incomplete => ⟨⟨vm.native, vm.status, rfl⟩, rfl, live, fun idle => idle, incomplete⟩
  unfold ReceiverViewModel.ingest
  by_cases busy : vm.finishing = true
  · simp only [if_pos busy]
    exact ⟨_, _, rfl, Or.inl (dropped fun s h => by rw [h.idle] at busy; cases busy)⟩
  cases found : ReceiverViewModel.frameSessionKey payload with
  | none =>
      simp only [if_neg busy]
      refine ⟨_, _, rfl, Or.inl (dropped fun s h => ?_)⟩
      obtain ⟨key, wanted, -⟩ := h.wanted
      rw [found] at wanted
      cases wanted
  | some key =>
      by_cases ignored : key ∈ vm.ignoredSessionKeys
      · simp only [if_neg busy, if_pos ignored]
        refine ⟨_, _, rfl, Or.inl (dropped fun s h => ?_)⟩
        obtain ⟨other, wanted, unseen⟩ := h.wanted
        rw [found] at wanted
        cases wanted
        exact unseen ignored
      obtain ⟨native, result, run, scanned⟩ := scan live payload
      simp only [bind, Except.bind, pure, Except.pure, if_neg busy, if_neg ignored, run]
      cases result with
      | error e =>
          exact ⟨_, _, rfl, Or.inl (passed_incomplete run scanned (Or.inl fun _ => by simp) vm.status)⟩
      | ok latest =>
          cases native with
          | none => exact ⟨_, _, rfl, Or.inl (passed_incomplete run scanned (Or.inr (by simp)) _)⟩
          | some s =>
              by_cases complete : s.isComplete = true
              · simp only [if_pos complete]
                refine ⟨_, _, rfl, Or.inr ⟨s, key, {
                  completes := ⟨by simpa using busy, ⟨key, found, ignored⟩, ⟨latest, run⟩, complete⟩
                  sole := fun other h => ?_
                  live := scanned.live s rfl
                  unseen := ignored
                  own := fun idle => ?_
                  finish := ⟨_, rfl⟩ }⟩⟩
                · obtain ⟨_, ingested⟩ := h.ingested
                  rw [run] at ingested
                  cases ingested
                  rfl
                · have own := (scanned.completes idle s rfl complete).2
                  rw [found] at own
                  exact Option.some.inj own
              · simp only [if_neg complete]
                refine ⟨_, _, rfl, Or.inl (passed_incomplete run scanned (Or.inr ?_) _)⟩
                rintro _ ⟨⟩
                simpa using complete

/-! ## Finishing a session -/

theorem assembleResult_state (s : ReceiverSession E) :
    ∃ error, s.assembleResult.1 = { s with lastAssembleError := error } := by
  have trimmed : ∀ raw, ∃ error, (s.decompressTrimmed raw).1 = { s with lastAssembleError := error } := by
    intro raw
    unfold decompressTrimmed
    simp only
    split
    · exact ⟨_, rfl⟩
    split
    · exact ⟨_, rfl⟩
    split
    · split <;> exact ⟨_, rfl⟩
    · exact ⟨_, rfl⟩
  unfold assembleResult
  split
  · exact ⟨_, rfl⟩
  simp only
  split
  · split
    · exact trimmed _
    · exact ⟨_, rfl⟩
  · exact trimmed _

theorem assemble_state (s : ReceiverSession E) :
    ∃ error, (airferryReceiverAssemble s).1 = { s with lastAssembleError := error } := by
  obtain ⟨error, state⟩ := assembleResult_state s
  refine ⟨error, ?_⟩
  rw [← state, airferryReceiverAssemble]
  split <;> rename_i answer <;> rw [answer]

/-- Every step of the single-object exit that can throw besides the core went through. -/
def WritesObject (outcomes : Outcomes) : Prop :=
  outcomes.assemble = true ∧ outcomes.uniqueOutputURL = true ∧ outcomes.write = true

theorem finishObject_cases (vm : ReceiverViewModel E) (outcomes : Outcomes) (s : ReceiverSession E) :
    (¬ (WritesObject outcomes ∧ (airferryReceiverAssemble s).2.isSome) ∧
      ∃ error recovered, vm.finishObject outcomes s =
        ({ vm with native := some { s with lastAssembleError := error }, finishing := false },
          { recovered, finished := none })) ∨
      (WritesObject outcomes ∧ ∃ file, (airferryReceiverAssemble s).2 = some file ∧
        vm.finishObject outcomes s = ({ vm with native := none }.finish file, {
            recovered := some (s.sessionId, file)
            finished := some {
              segmented := false, originalSize := s.fileMeta.originalSize, crc32 := s.fileMeta.crc32,
              crc32Known := s.fileMeta.crc32Known, pieces := [file], output := file } })) := by
  obtain ⟨error, state⟩ := assemble_state s
  unfold ReceiverViewModel.finishObject
  cases answer : airferryReceiverAssemble s with
  | mk after data =>
      rw [answer] at state
      cases data with
      | none =>
          have failed : NativeReceiver.assemble (some s) = (some after, .error .assemble) := by
            simp only [NativeReceiver.assemble, answer]
          rw [failed]
          exact Or.inl ⟨by simp, error, none, by rw [← state]; rfl⟩
      | some file =>
          have given : NativeReceiver.assemble (some s) = (some after, .ok file) := by
            simp only [NativeReceiver.assemble, answer]
          rw [given]
          by_cases assembled : outcomes.assemble = true
          · by_cases written : outcomes.uniqueOutputURL = true ∧ outcomes.write = true
            · refine Or.inr ⟨⟨assembled, written⟩, file, rfl, ?_⟩
              simp only [if_neg (not_not.mpr assembled), if_neg (not_not.mpr written)]
            · refine Or.inl ⟨fun both => written both.1.2, error, some (s.sessionId, file), ?_⟩
              simp only [if_neg (not_not.mpr assembled), if_pos written]
              rw [← state]
              rfl
          · refine Or.inl ⟨fun both => assembled both.1.1, error, none, ?_⟩
            simp only [if_pos assembled]
            rw [← state]
            rfl

theorem finishAccumulator_cases (vm : ReceiverViewModel E) (outcomes : Outcomes)
    (a : SegmentAccumulator) :
    (∃ status, vm.finishAccumulator outcomes a =
        ({ vm with status := status, finishing := false }, none)) ∨
      ∃ vm' pieces output, vm.finishAccumulator outcomes a = (vm', some {
          segmented := true, originalSize := a.info.expectedSize, crc32 := a.info.expectedCRC,
          crc32Known := a.info.crcKnown, pieces, output }) ∧
        vm'.native = vm.native ∧ vm'.ignoredSessionKeys = vm.ignoredSessionKeys ∧
        vm'.accumulator = none ∧ Pieces.collect (a.parts vm.disk) = some pieces ∧
        NativeReceiver.finishSegmented E pieces.flatten a.info = .ok output := by
  unfold ReceiverViewModel.finishAccumulator
  simp only
  cases gathered : Pieces.collect (a.parts vm.disk) with
  | none => exact Or.inl ⟨_, rfl⟩
  | some pieces =>
      simp only
      split
      · exact Or.inl ⟨_, rfl⟩
      cases answer : NativeReceiver.finishSegmented E pieces.flatten a.info with
      | error e => exact Or.inl ⟨_, rfl⟩
      | ok output => exact Or.inr ⟨_, pieces, output, rfl, rfl, rfl, rfl, rfl, answer⟩

structure Segmented (vm : ReceiverViewModel E) (outcomes : Outcomes) (s : ReceiverSession E)
    (info : NativeSegmentInfo) (raw : Bytes) : Prop where
  info : NativeReceiver.segmentInfo (some s) = .ok info
  raw : airferryReceiverAssembleRaw s = some raw
  read : outcomes.segmentInfo = true ∧ outcomes.assembleRaw = true

theorem finishSegment_cases (vm : ReceiverViewModel E) (outcomes : Outcomes) (s : ReceiverSession E) :
    ((∀ info raw, ¬ Segmented vm outcomes s info raw) ∧
      vm.finishSegment outcomes s = (vm.failed, .nothing)) ∨
    ∃ info raw, Segmented vm outcomes s info raw ∧
      (((vm.openAccumulator info).1.store outcomes (vm.openAccumulator info).2 info.index raw = none ∧
          vm.finishSegment outcomes s =
            ({ vm with
              accumulator := some (vm.openAccumulator info).1
              disk := (vm.openAccumulator info).2
              finishing := false }, { recovered := some (s.sessionId, raw), finished := none })) ∨
        ∃ a disk, (vm.openAccumulator info).1.store outcomes (vm.openAccumulator info).2 info.index raw =
            some (a, disk) ∧
          ((∃ status, vm.finishSegment outcomes s =
              ({ vm with accumulator := some a, disk, native := none, status, finishing := false },
                { recovered := some (s.sessionId, raw), finished := none })) ∨
            ∃ vm' pieces output, vm.finishSegment outcomes s = (vm', {
                recovered := some (s.sessionId, raw)
                finished := some {
                  segmented := true, originalSize := a.info.expectedSize, crc32 := a.info.expectedCRC,
                  crc32Known := a.info.crcKnown, pieces, output } }) ∧
              vm'.native = none ∧ vm'.ignoredSessionKeys = vm.ignoredSessionKeys ∧
              vm'.accumulator = none ∧ Pieces.collect (a.parts disk) = some pieces ∧
              NativeReceiver.finishSegmented E pieces.flatten a.info = .ok output)) := by
  unfold ReceiverViewModel.finishSegment
  cases gotInfo : NativeReceiver.segmentInfo (some s) with
  | error e =>
      refine Or.inl ⟨fun info raw h => ?_, rfl⟩
      have read := h.info
      rw [gotInfo] at read
      cases read
  | ok info =>
      by_cases readInfo : outcomes.segmentInfo = true
      case neg =>
        simp only [if_pos readInfo]
        exact Or.inl ⟨fun info raw h => readInfo h.read.1, trivial⟩
      cases gotRaw : airferryReceiverAssembleRaw s with
      | none =>
          have failed : NativeReceiver.assembleRaw (some s) = .error .assemble := by
            simp only [NativeReceiver.assembleRaw, Option.bind_some, gotRaw]
          simp only [if_neg (not_not.mpr readInfo), failed]
          refine Or.inl ⟨fun info raw h => ?_, trivial⟩
          have read := h.raw
          rw [gotRaw] at read
          cases read
      | some raw =>
          have given : NativeReceiver.assembleRaw (some s) = .ok raw := by
            simp only [NativeReceiver.assembleRaw, Option.bind_some, gotRaw]
          by_cases readRaw : outcomes.assembleRaw = true
          case neg =>
            simp only [if_neg (not_not.mpr readInfo), given, if_pos readRaw]
            exact Or.inl ⟨fun info raw h => readRaw h.read.2, trivial⟩
          refine Or.inr ⟨info, raw, ⟨gotInfo, gotRaw, readInfo, readRaw⟩, ?_⟩
          simp only [if_neg (not_not.mpr readInfo), given, if_neg (not_not.mpr readRaw)]
          cases stored : (vm.openAccumulator info).1.store outcomes (vm.openAccumulator info).2
              info.index raw with
          | none => exact Or.inl ⟨rfl, rfl⟩
          | some pair =>
              obtain ⟨a, disk⟩ := pair
              refine Or.inr ⟨a, disk, rfl, ?_⟩
              simp only
              by_cases whole : a.isComplete = true
              · simp only [if_pos whole]
                rcases finishAccumulator_cases { vm with accumulator := some a, disk, native := none }
                    outcomes a with ⟨status, failed⟩ | ⟨vm', pieces, output, finished, rest⟩
                · rw [failed]
                  exact Or.inl ⟨status, rfl⟩
                · rw [finished]
                  exact Or.inr ⟨vm', pieces, output, rfl, rest⟩
              · simp only [if_neg whole]
                exact Or.inl ⟨_, rfl⟩

/-! ## Every run -/

def screen (E : Env) (disk : Disk) (inputs : List (Outcomes × Bytes)) :
    Exec (ReceiverViewModel E × List Handled) :=
  Run.run (fun vm (input : Outcomes × Bytes) => vm.ingest input.1 input.2)
    (ReceiverViewModel.fresh E disk) inputs

def EveryStep (E : Env) (disk : Disk) (Condition : ReceiverViewModel E → Outcomes × Bytes → Prop)
    (inputs : List (Outcomes × Bytes)) : Prop :=
  ∀ pre input, pre ++ [input] <+: inputs → ∀ vm outs, screen E disk pre = .ok (vm, outs) →
    Condition vm input

theorem everyStep_nil (disk : Disk) (Condition : ReceiverViewModel E → Outcomes × Bytes → Prop) :
    EveryStep E disk Condition [] := by
  intro pre input inside
  have short := inside.length_le
  simp at short

theorem everyStep_concat {disk : Disk} {Condition : ReceiverViewModel E → Outcomes × Bytes → Prop}
    {inputs : List (Outcomes × Bytes)} {input : Outcomes × Bytes} {vm : ReceiverViewModel E}
    {outs : List Handled} (run : screen E disk inputs = .ok (vm, outs)) :
    EveryStep E disk Condition (inputs ++ [input]) ↔
      EveryStep E disk Condition inputs ∧ Condition vm input := by
  unfold EveryStep
  rw [Run.forall_step_concat]
  refine and_congr_right fun _ => ⟨fun step => step vm outs run, fun step vm' outs' run' => ?_⟩
  rw [run] at run'
  cases run'
  exact step

theorem screen_concat {disk : Disk} {inputs : List (Outcomes × Bytes)} {input : Outcomes × Bytes}
    {vm vm' : ReceiverViewModel E} {outs : List Handled} {handled : Handled}
    (run : screen E disk inputs = .ok (vm, outs)) (step : vm.ingest input.1 input.2 = .ok (vm', handled)) :
    screen E disk (inputs ++ [input]) = .ok (vm', outs ++ [handled]) :=
  Run.run_append run (Run.run_cons step rfl)

end AirFerry.Proof
