import AirFerry.Proof.Integrity
import AirFerry.Proof.SessionIds

/-!
# The sessions the screen ignores

A session is ignored from the moment it completes. What that loses is what the steps after it do not
store: as long as they all do, and one transfer is not started over another, nothing is missing.
-/

namespace AirFerry.Proof
open Library QrProtocol RaptorqCore TransferEngine ReceiverSession Ios

variable {E : Env} {s : ReceiverSession E} {vm : ReceiverViewModel E} {outs : List Handled}

def recoveredOf (outs : List Handled) : List (U128 × Bytes) := outs.filterMap Handled.recovered

def piecesOf (outs : List Handled) : List Bytes :=
  (outs.filterMap Handled.finished).flatMap Finished.pieces

/-- The bytes of a completed session with this key are in the accumulator or in a finished file. -/
def KeyHeld (vm : ReceiverViewModel E) (outs : List Handled) (key : String) : Prop :=
  ∃ id data, (id, data) ∈ recoveredOf outs ∧ key = Hex.encode (toBe 16 id) ∧
    ((∃ a ∈ vm.accumulator, ∃ i ∈ a.received, vm.disk a.directory i = some data) ∨
      data ∈ piecesOf outs)

def rootOf (info : NativeSegmentInfo) : U128 := info.rootHigh ++ info.rootLow

theorem rootOf_eq {info other : NativeSegmentInfo} (same : info.rootKey = other.rootKey) :
    rootOf info = rootOf other := by
  obtain ⟨high, low⟩ := List.append_inj (Hex.encode_injective same) (by simp)
  rw [rootOf, rootOf, toBe_injective rfl high, toBe_injective rfl low]

theorem segmentInfo_slot (live : Live s) (complete : s.isComplete = true) {info : NativeSegmentInfo}
    (read : NativeReceiver.segmentInfo (some s) = .ok info) :
    info.index < info.count ∧
      SessionId.deriveSegment (rootOf info) (BitVec.ofNat 32 info.index) = s.sessionId := by
  obtain ⟨found, valid, -, segment⟩ := live.described complete
  cases held : s.segmentMeta with
  | none =>
      simp only [NativeReceiver.segmentInfo, airferryReceiverRootSha256, held, Option.map_none] at read
      cases read
  | some seg =>
      simp only [NativeReceiver.segmentInfo, airferryReceiverRootSha256, held, Option.map_some] at read
      cases read
      have accepted := valid.segment seg (segment.symm.trans held)
      have index : (NativeReceiver.infoOf s seg.rootSha256).index = seg.segmentIndex.toNat := by
        simp [NativeReceiver.infoOf, airferryReceiverSegmentIndex, held]
      have count : (NativeReceiver.infoOf s seg.rootSha256).count = seg.segmentCount.toNat := by
        simp [NativeReceiver.infoOf, airferryReceiverSegmentCount, held]
      have root : rootOf (NativeReceiver.infoOf s seg.rootSha256) = seg.rootSessionId := by
        simp only [rootOf, NativeReceiver.infoOf, airferryReceiverRootSessionIdHi,
          airferryReceiverRootSessionIdLo, held, Option.map_some, Option.getD_some]
        apply BitVec.eq_of_getLsbD_eq
        intro i small
        rw [BitVec.getLsbD_append]
        by_cases low : i < 64
        · simp [low]
        · have rest : i - 64 < 64 := by omega
          have sum : 64 + (i - 64) = i := by omega
          simp [low, rest, sum]
      refine ⟨by rw [index, count]; exact accepted.index_lt, ?_⟩
      rw [root, index, BitVec.ofNat_toNat, BitVec.setWidth_eq]
      exact accepted.child

/-- Where the bytes of a session are; a slot belongs to one session only. -/
inductive Placed (vm : ReceiverViewModel E) (outs : List Handled) (id : U128) (data : Bytes) : Prop
  | stored (a : SegmentAccumulator) (i : Nat) (held : vm.accumulator = some a) (member : i ∈ a.received)
      (file : vm.disk a.directory i = some data)
      (slot : SessionId.deriveSegment (rootOf a.info) (BitVec.ofNat 32 i) = id)
  | output (member : data ∈ piecesOf outs)

structure Keeps (vm : ReceiverViewModel E) (outs : List Handled) : Prop where
  live : ∀ s ∈ vm.native, Live s
  idle : ∀ s ∈ vm.native, s.isComplete = false
  slots : ∀ a ∈ vm.accumulator, ∀ i ∈ a.received, i < a.info.count
  keys : ∀ key ∈ vm.ignoredSessionKeys, ∃ id data, (id, data) ∈ recoveredOf outs ∧
    key = Hex.encode (toBe 16 id) ∧ Placed vm outs id data

theorem Keeps.held (keeps : Keeps vm outs) : ∀ key ∈ vm.ignoredSessionKeys, KeyHeld vm outs key := by
  intro key member
  obtain ⟨id, data, recovered, own, placed⟩ := keeps.keys key member
  refine ⟨id, data, recovered, own, ?_⟩
  cases placed with
  | stored a i held member file slot => exact Or.inl ⟨a, held, i, member, file⟩
  | output member => exact Or.inr member

theorem recoveredOf_append (outs : List Handled) (handled : Handled) :
    recoveredOf (outs ++ [handled]) = recoveredOf outs ++ handled.recovered.toList := by
  unfold recoveredOf
  rw [List.filterMap_append]
  cases h : handled.recovered <;> simp [h]

theorem piecesOf_append (outs : List Handled) (handled : Handled) :
    piecesOf (outs ++ [handled]) =
      piecesOf outs ++ (handled.finished.map Finished.pieces).getD [] := by
  unfold piecesOf
  rw [List.filterMap_append, List.flatMap_append]
  cases h : handled.finished <;> simp [h]

theorem Placed.grow {id : U128} {data : Bytes} (placed : Placed vm outs id data)
    {vm' : ReceiverViewModel E} (accumulator : vm'.accumulator = vm.accumulator)
    (disk : vm'.disk = vm.disk) (handled : Handled) : Placed vm' (outs ++ [handled]) id data := by
  cases placed with
  | stored a i held member file slot =>
      exact .stored a i (accumulator.trans held) member (by rw [disk]; exact file) slot
  | output member =>
      apply Placed.output
      rw [piecesOf_append]
      exact List.mem_append_left _ member

theorem Keeps.grow (keeps : Keeps vm outs) {vm' : ReceiverViewModel E} (live : ∀ s ∈ vm'.native, Live s)
    (idle : ∀ s ∈ vm'.native, s.isComplete = false) (accumulator : vm'.accumulator = vm.accumulator)
    (disk : vm'.disk = vm.disk) (handled : Handled)
    (keys : ∀ key ∈ vm'.ignoredSessionKeys, key ∈ vm.ignoredSessionKeys ∨
      ∃ id data, (id, data) ∈ recoveredOf (outs ++ [handled]) ∧ key = Hex.encode (toBe 16 id) ∧
        Placed vm' (outs ++ [handled]) id data) :
    Keeps vm' (outs ++ [handled]) := by
  refine ⟨live, idle, accumulator ▸ keeps.slots, fun key member => ?_⟩
  rcases keys key member with old | new
  · obtain ⟨id, data, recovered, own, placed⟩ := keeps.keys key old
    refine ⟨id, data, ?_, own, placed.grow accumulator disk handled⟩
    rw [recoveredOf_append]
    exact List.mem_append_left _ recovered
  · exact new

/-- Completing `s` loses nothing: what finishes it goes through, and a segment has a slot of its own
in the open accumulator. -/
structure Careful (vm : ReceiverViewModel E) (outcomes : Outcomes) (s : ReceiverSession E) : Prop where
  object : airferryReceiverIsSegmented s = false →
    WritesObject outcomes ∧ (airferryReceiverAssemble s).2.isSome = true
  segment : ∀ info, NativeReceiver.segmentInfo (some s) = .ok info →
    (outcomes.segmentInfo = true ∧ outcomes.assembleRaw = true ∧ outcomes.store = true) ∧
      (airferryReceiverAssembleRaw s).isSome = true ∧
      ∀ a ∈ vm.accumulator, a.info.rootKey = info.rootKey ∧ info.index < a.info.count

theorem openAccumulator_same {info : NativeSegmentInfo}
    (same : ∀ a ∈ vm.accumulator, a.info.rootKey = info.rootKey) :
    (vm.openAccumulator info).2 = vm.disk ∧
      (vm.accumulator = some (vm.openAccumulator info).1 ∨
        (vm.accumulator = none ∧ (vm.openAccumulator info).1.info = info ∧
          (vm.openAccumulator info).1.received = ∅)) := by
  unfold ReceiverViewModel.openAccumulator
  cases held : vm.accumulator with
  | none => exact ⟨rfl, Or.inr ⟨rfl, rfl, rfl⟩⟩
  | some a =>
      simp only [if_neg (not_not.mpr (same a held)), true_or, and_self]

def storedOf (vm : ReceiverViewModel E) (key status : String) (a : SegmentAccumulator) (disk : Disk) :
    ReceiverViewModel E :=
  { vm with
    native := none
    accumulator := some a
    ignoredSessionKeys := insert key vm.ignoredSessionKeys
    finishing := false
    status := status
    disk := disk }

theorem Keeps.store (keeps : Keeps vm outs) {outcomes : Outcomes} {info : NativeSegmentInfo}
    {key : String} {raw : Bytes} {a : SegmentAccumulator} {disk : Disk} {status : String}
    (live : Live s) (complete : s.isComplete = true) (careful : Careful vm outcomes s)
    (read : NativeReceiver.segmentInfo (some s) = .ok info) (unseen : key ∉ vm.ignoredSessionKeys)
    (own : key = Hex.encode (toBe 16 s.sessionId))
    (stored : (vm.openAccumulator info).1.store outcomes (vm.openAccumulator info).2 info.index raw =
      some (a, disk)) :
    Keeps (storedOf vm key status a disk)
      (outs ++ [{ recovered := some (s.sessionId, raw), finished := none }]) := by
  obtain ⟨inside, slot⟩ := segmentInfo_slot live complete read
  obtain ⟨-, -, room⟩ := careful.segment info read
  obtain ⟨sameDisk, opened⟩ := openAccumulator_same fun a held => (room a held).1
  have before : rootOf (vm.openAccumulator info).1.info = rootOf info ∧
      ∀ i ∈ (vm.openAccumulator info).1.received, i < (vm.openAccumulator info).1.info.count := by
    rcases opened with held | ⟨-, fresh, empty⟩
    · exact ⟨rootOf_eq (room _ held).1, keeps.slots _ held⟩
    · rw [fresh, empty]
      exact ⟨rfl, by simp⟩
  unfold SegmentAccumulator.store at stored
  split at stored
  · cases stored
  rename_i small
  split at stored
  · cases stored
  cases stored
  refine ⟨by simp [storedOf], by simp [storedOf], ?_, ?_⟩
  · rintro _ ⟨⟩ i member
    rcases Finset.mem_insert.mp member with rfl | member
    · exact not_not.mp small
    · exact before.2 i member
  · intro other member
    rw [recoveredOf_append]
    rcases Finset.mem_insert.mp member with rfl | member
    · refine ⟨s.sessionId, raw, by simp, own, ?_⟩
      refine .stored _ info.index rfl (Finset.mem_insert_self _ _) ?_ ?_
      · simp [storedOf]
      · rw [before.1]
        exact slot
    · obtain ⟨id, data, recovered, key', placed⟩ := keeps.keys other member
      refine ⟨id, data, List.mem_append_left _ recovered, key', ?_⟩
      cases placed with
      | output member => exact .output (by rw [piecesOf_append]; exact List.mem_append_left _ member)
      | stored a i held inReceived file earlier =>
          rcases opened with same | ⟨none, -, -⟩
          · rw [same, Option.some.injEq] at held
            subst held
            refine .stored _ i rfl (Finset.mem_insert_of_mem inReceived) ?_ earlier
            have different : i ≠ info.index := by
              rintro rfl
              rw [before.1, slot] at earlier
              rw [key', ← earlier, ← own] at member
              exact unseen member
            simp [storedOf, different, sameDisk, file]
          · rw [none] at held
            cases held

theorem Keeps.finish (keeps : Keeps vm outs) {a : SegmentAccumulator} {vm' : ReceiverViewModel E}
    {earlier : List Handled} {recovered : Option (U128 × Bytes)} {fin : Finished}
    (last : outs = earlier ++ [{ recovered, finished := none }]) (held : vm.accumulator = some a)
    (gathered : Pieces.collect (a.parts vm.disk) = some fin.pieces) (native : vm'.native = none)
    (closed : vm'.accumulator = none) (ignored : vm'.ignoredSessionKeys = vm.ignoredSessionKeys) :
    Keeps vm' (earlier ++ [{ recovered, finished := some fin }]) := by
  refine ⟨by simp [native], by simp [native], by simp [closed], ?_⟩
  rw [ignored]
  intro key member
  obtain ⟨id, data, inRecovered, own, placed⟩ := keeps.keys key member
  rw [last, recoveredOf_append] at inRecovered
  refine ⟨id, data, by rw [recoveredOf_append]; exact inRecovered, own, .output ?_⟩
  rw [piecesOf_append]
  cases placed with
  | output member =>
      rw [last, piecesOf_append] at member
      simp only [Option.map_none, Option.getD_none, List.append_nil] at member
      exact List.mem_append_left _ member
  | stored b i heldB inReceived file slot =>
      rw [held, Option.some.injEq] at heldB
      subst heldB
      have inside := keeps.slots a held i inReceived
      have part : some data ∈ a.parts vm.disk :=
        List.mem_map.mpr ⟨i, List.mem_range.mpr inside, file⟩
      rw [Pieces.collect_eq_some_iff.mp gathered] at part
      obtain ⟨_, piece, same⟩ := List.mem_map.mp part
      rw [Option.some.inj same] at piece
      exact List.mem_append_right _ piece

theorem store_some {outcomes : Outcomes} (live : Live s) (complete : s.isComplete = true)
    (careful : Careful vm outcomes s) {info : NativeSegmentInfo}
    (read : NativeReceiver.segmentInfo (some s) = .ok info) (raw : Bytes) :
    (vm.openAccumulator info).1.store outcomes (vm.openAccumulator info).2 info.index raw ≠ none := by
  obtain ⟨inside, -⟩ := segmentInfo_slot live complete read
  obtain ⟨reads, -, room⟩ := careful.segment info read
  obtain ⟨-, opened⟩ := openAccumulator_same fun a held => (room a held).1
  have small : info.index < (vm.openAccumulator info).1.info.count := by
    rcases opened with held | ⟨-, fresh, -⟩
    · exact (room _ held).2
    · rw [fresh]
      exact inside
  unfold SegmentAccumulator.store
  rw [if_neg (not_not.mpr small), if_neg (not_not.mpr reads.2.2)]
  exact Option.some_ne_none _

theorem Keeps.segment (keeps : Keeps vm outs) {outcomes : Outcomes} {key : String} (status : String)
    (live : Live s) (complete : s.isComplete = true) (careful : Careful vm outcomes s)
    (segmented : airferryReceiverIsSegmented s = true) (unseen : key ∉ vm.ignoredSessionKeys)
    (own : key = Hex.encode (toBe 16 s.sessionId)) :
    Keeps ((finishingOf vm key status s).finishSegment outcomes s).1
      (outs ++ [((finishingOf vm key status s).finishSegment outcomes s).2]) := by
  rcases finishSegment_cases (finishingOf vm key status s) outcomes s with ⟨refused, -⟩ |
    ⟨info, raw, gone, ⟨unstored, -⟩ | ⟨a, disk, stored, ⟨last, waits⟩ |
      ⟨vm', pieces, output, finished, native, ignored, closed, gathered, -⟩⟩⟩
  · obtain ⟨seg, held⟩ := Option.isSome_iff_exists.mp segmented
    have read : NativeReceiver.segmentInfo (some s) = .ok (NativeReceiver.infoOf s seg.rootSha256) := by
      simp only [NativeReceiver.segmentInfo, airferryReceiverRootSha256, held, Option.map_some]
    obtain ⟨reads, some, -⟩ := careful.segment _ read
    obtain ⟨raw, recovered⟩ := Option.isSome_iff_exists.mp some
    exact absurd ⟨read, recovered, reads.1, reads.2.1⟩ (refused _ raw)
  · exact absurd unstored (store_some live complete careful gone.info raw)
  · rw [waits]
    exact keeps.store live complete careful gone.info unseen own stored
  · rw [finished]
    have middle : Keeps (storedOf vm key status a disk) _ :=
      keeps.store live complete careful gone.info unseen own stored
    exact middle.finish rfl rfl gathered native closed ignored

theorem Keeps.object (keeps : Keeps vm outs) {outcomes : Outcomes} {key : String} (status : String)
    (careful : Careful vm outcomes s) (single : airferryReceiverIsSegmented s = false)
    (own : key = Hex.encode (toBe 16 s.sessionId)) :
    Keeps ((finishingOf vm key status s).finishObject outcomes s).1
      (outs ++ [((finishingOf vm key status s).finishObject outcomes s).2]) := by
  rcases finishObject_cases (finishingOf vm key status s) outcomes s with ⟨refused, -⟩ |
    ⟨-, file, data, finished⟩
  · exact absurd (careful.object single) refused
  · rw [finished]
    apply keeps.grow
    · rintro _ ⟨⟩
    · rintro _ ⟨⟩
    · rfl
    · rfl
    · intro other member
      rcases Finset.mem_insert.mp member with rfl | old
      · refine Or.inr ⟨s.sessionId, file, ?_, own, .output ?_⟩
        · rw [recoveredOf_append]
          simp
        · rw [piecesOf_append]
          simp
      · exact Or.inl old

theorem Keeps.step (keeps : Keeps vm outs) (input : Outcomes × Bytes)
    (careful : ∀ s, Completes vm input.2 s → Careful vm input.1 s) {vm' : ReceiverViewModel E}
    {handled : Handled} (run : vm.ingest input.1 input.2 = .ok (vm', handled)) :
    Keeps vm' (outs ++ [handled]) := by
  obtain ⟨_, _, run', cases⟩ := ingest_cases vm keeps.live input.1 input.2
  rw [run] at run'
  cases run'
  rcases cases with passed | ⟨s, key, finishing⟩
  · obtain ⟨native, status, rfl⟩ := passed.same
    exact keeps.grow passed.live (passed.idle keeps.idle) rfl rfl handled fun key old => Or.inl old
  · obtain ⟨status, finish⟩ := finishing.finish
    have safe := careful s finishing.completes
    have own := finishing.own keeps.idle
    unfold ReceiverViewModel.finishCurrentSession at finish
    cases segmented : airferryReceiverIsSegmented s with
    | true =>
        rw [if_pos segmented] at finish
        have kept := keeps.segment status finishing.live finishing.completes.complete safe segmented
          finishing.unseen own
        rwa [← finish] at kept
    | false =>
        rw [if_neg (by rw [segmented]; decide)] at finish
        have kept := keeps.object status safe segmented own
        rwa [← finish] at kept

theorem screen_live (E : Env) (disk : Disk) (inputs : List (Outcomes × Bytes)) :
    ∃ vm outs, screen E disk inputs = .ok (vm, outs) ∧ ∀ s ∈ vm.native, Live s := by
  induction inputs using List.reverseRecOn with
  | nil => exact ⟨_, [], rfl, by simp [ReceiverViewModel.fresh]⟩
  | append_singleton inputs input ih =>
      obtain ⟨vm, outs, run, live⟩ := ih
      obtain ⟨vm', handled, step, left, -⟩ := step_verified_iff vm live input
      exact ⟨vm', outs ++ [handled], screen_concat run step, left⟩

theorem screen_keeps (disk : Disk) (inputs : List (Outcomes × Bytes))
    (careful : EveryStep E disk (fun vm input => ∀ s, Completes vm input.2 s → Careful vm input.1 s)
      inputs) {vm : ReceiverViewModel E} {outs : List Handled}
    (run : screen E disk inputs = .ok (vm, outs)) : Keeps vm outs := by
  induction inputs using List.reverseRecOn generalizing vm outs with
  | nil =>
      cases run
      exact ⟨by simp [ReceiverViewModel.fresh], by simp [ReceiverViewModel.fresh],
        by simp [ReceiverViewModel.fresh], by simp [ReceiverViewModel.fresh]⟩
  | append_singleton inputs input ih =>
      obtain ⟨before, earlier, whole, live⟩ := screen_live E disk inputs
      obtain ⟨steps, last⟩ := (everyStep_concat whole).mp careful
      have keeps := ih steps whole
      obtain ⟨after, handled, step, -⟩ := ingest_cases before live input.1 input.2
      rw [screen_concat whole step] at run
      cases run
      exact keeps.step input last step

theorem ignored_sessions_are_held (E : Env) (disk : Disk) (inputs : List (Outcomes × Bytes)) :
    ∃ vm outs, screen E disk inputs = .ok (vm, outs) ∧
      (EveryStep E disk (fun vm input => ∀ s, Completes vm input.2 s → Careful vm input.1 s) inputs →
        ∀ key ∈ vm.ignoredSessionKeys, KeyHeld vm outs key) := by
  obtain ⟨vm, outs, run, -⟩ := screen_live E disk inputs
  exact ⟨vm, outs, run, fun careful => (screen_keeps disk inputs careful run).held⟩

def failedWrite : Outcomes := { allWell with write := false }

def remaining (result : Exec (ReceiverViewModel E × List Handled)) :
    Finset String × Bool × List Bytes :=
  match result with
  | .ok (vm, outs) => (vm.ignoredSessionKeys, vm.accumulator.isSome, piecesOf outs)
  | .error _ => (∅, false, [])

set_option maxRecDepth 20000 in
theorem remaining_byte :
    remaining (screen reference emptyDisk (byteScans failedWrite)) =
      ({Hex.encode (toBe 16 (0 : U128))}, false, []) := by
  decide +kernel

theorem unwritten_byte_ignored :
    ∃ vm outs, screen reference emptyDisk (byteScans failedWrite) = .ok (vm, outs) ∧
      ∃ key ∈ vm.ignoredSessionKeys, ¬ KeyHeld vm outs key := by
  have left := remaining_byte
  cases run : screen reference emptyDisk (byteScans failedWrite) with
  | error fault =>
      rw [run] at left
      have keys := congrArg Prod.fst left
      exact absurd keys.symm (Finset.singleton_ne_empty _)
  | ok result =>
      obtain ⟨vm, outs⟩ := result
      rw [run] at left
      simp only [remaining, Prod.mk.injEq] at left
      obtain ⟨keys, accumulator, pieces⟩ := left
      refine ⟨vm, outs, rfl, _, by rw [keys]; exact Finset.mem_singleton_self _, ?_⟩
      rintro ⟨id, data, -, -, ⟨a, held, -⟩ | member⟩
      · rw [Option.mem_def.mp held] at accumulator
        cases accumulator
      · rw [pieces] at member
        cases member

end AirFerry.Proof
