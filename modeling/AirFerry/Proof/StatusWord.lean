import AirFerry.Proof.Buffering
import AirFerry.Proof.CacheBudget
import AirFerry.TransferEngine.ReceiverAbi

namespace AirFerry.Proof
open Library QrProtocol RaptorqCore TransferEngine ReceiverSession

variable {E : Env} {s : ReceiverSession E}

def shownComplete (status : U64) : Bool := status.getLsbD 0

def shownAccepted (status : U64) : Bool := status.getLsbD 1

def shownStreak (status : U64) : Nat := ((status >>> 8).setWidth 16).toNat

def shownReceived (status : U64) : U32 := (status >>> 32).setWidth 32

theorem shownStreak_pack (complete accepted : Bool) (mismatchStreak : U32) (receivedSymbols : Nat) :
    shownStreak (IngestStatus.pack complete accepted mismatchStreak receivedSymbols) =
      mismatchStreak.toNat % 2 ^ 16 := by
  rw [shownStreak, IngestStatus.pack_streak, BitVec.toNat_setWidth]

theorem shownReceived_pack {receivedSymbols : Nat} (small : receivedSymbols < 2 ^ 32)
    (complete accepted : Bool) (mismatchStreak : U32) :
    (shownReceived (IngestStatus.pack complete accepted mismatchStreak receivedSymbols)).toNat =
      receivedSymbols := by
  rw [shownReceived, IngestStatus.pack_received]
  exact toNat_ofNat_of_lt small

def cacheCap : Nat := ceilDiv preMetaCacheBytesBudget preMetaCacheBytesPerEntry

theorem ceilDiv_anti (a : Nat) {b c : Nat} (positive : 0 < b) (le : b ≤ c) :
    ceilDiv a c ≤ ceilDiv a b := by
  by_contra more
  have beyond := (lt_ceilDiv_iff (lt_of_lt_of_le positive le)).mp (not_le.mp more)
  have enough := le_ceilDiv_mul a positive
  have scaled := Nat.mul_le_mul_left (ceilDiv a b) le
  omega

theorem preMetaCacheMax_le (size : U32) : preMetaCacheMax size ≤ cacheCap := by
  unfold preMetaCacheMax
  split
  · decide
  · exact ceilDiv_anti _ (by decide) (le_max_right ..)

/-- The cap that the symbol stored last was held against. -/
def Capped (frames : List (WireFrame E.crc32)) (received : Nat) : Prop :=
  received = 0 ∨ ∃ f ∈ frames, f.1.header.flags &&& flagDescriptor = 0 ∧
    received ≤ preMetaCacheMax f.1.header.symbolSize

theorem Capped.mono {frames later : List (WireFrame E.crc32)} {received : Nat}
    (capped : Capped frames received) : Capped (frames ++ later) received := by
  rcases capped with none | ⟨f, member, data, room⟩
  · exact Or.inl none
  · exact Or.inr ⟨f, List.mem_append_left later member, data, room⟩

theorem Capped.le {frames : List (WireFrame E.crc32)} {received : Nat}
    (capped : Capped frames received) : received ≤ cacheCap := by
  rcases capped with none | ⟨f, -, -, room⟩
  · rw [none]
    exact Nat.zero_le _
  · exact room.trans (preMetaCacheMax_le _)

theorem cache_capped (E : Env) (sessionId : U128) (frames : List (WireFrame E.crc32)) :
    Capped frames ((Stage.waiting ∅).run E sessionId frames).cache.entries.length := by
  induction frames using List.reverseRecOn with
  | nil => exact Or.inl rfl
  | append_singleton frames f ih =>
      obtain ⟨s, outs, -, final, -⟩ := fromPending_simulates E sessionId frames
      rw [Stage.run_append]
      show Capped _ (Stage.next E sessionId _ f.1).cache.entries.length
      rcases next_cache final f.1 with ⟨stores, grown⟩ | ⟨-, kept | emptied⟩
      · rw [grown, AList.entries_insert_of_notMem stores.fresh, List.length_cons]
        exact Or.inr ⟨f, List.mem_append_right _ (List.mem_singleton_self f), stores.data, stores.room⟩
      · rw [kept, final.symbolCache]
        exact ih.mono
      · rw [emptied]
        exact Or.inl rfl

def Reached (sessionId : U128) (frames : List (WireFrame E.crc32)) (s : ReceiverSession E) : Prop :=
  Matches sessionId s ((Stage.waiting ∅).run E sessionId frames)

structure CountBounded (frames : List (WireFrame E.crc32)) (s : ReceiverSession E) : Prop where
  waiting : s.metaConfirmed = false → Capped frames s.progress.receivedSymbols
  recovering : s.metaConfirmed = true → s.progress.receivedSymbols ≤ 255 * 2 ^ 24

theorem Reached.countBounded {sessionId : U128} {frames : List (WireFrame E.crc32)}
    (reached : Reached sessionId frames s) : CountBounded frames s := by
  have capped := cache_capped E sessionId frames
  unfold Reached at reached
  cases stage : (Stage.waiting ∅).run E sessionId frames with
  | waiting cache =>
      rw [stage] at reached capped
      refine ⟨fun _ => ?_, fun confirmed => ?_⟩
      · have small : cache.entries.length < 2 ^ 32 := lt_of_le_of_lt capped.le (by decide)
        rw [reached.2.receivedSymbols, asU32_of_lt small]
        exact capped
      · rw [reached.2.metaConfirmed] at confirmed
        cases confirmed
  | recovering m described log =>
      rw [stage] at reached
      refine ⟨fun unconfirmed => ?_, fun _ => ?_⟩
      · rw [reached.2.1] at unconfirmed
        cases unconfirmed
      · have recovering : Recovering s m log := reached.2.2.2
        rw [recovering.receivedSymbols]
        exact receivedCount_le recovering.valid recovering.fits

theorem CountBounded.lt {frames : List (WireFrame E.crc32)} (bounded : CountBounded frames s) :
    s.progress.receivedSymbols < 2 ^ 32 - 1 := by
  cases confirmed : s.metaConfirmed with
  | false => exact lt_of_le_of_lt (bounded.waiting confirmed).le (by decide)
  | true => exact lt_of_le_of_lt (bounded.recovering confirmed) (by decide)

theorem status_run {sessionId : U128} (wire : List Bytes) {seen frames : List (WireFrame E.crc32)}
    (read : wire.map (Frame.fromBytes E.crc32) = frames.map fun f => .ok (.ok f.1))
    (reached : Reached sessionId seen s) :
    ∃ s' statuses, Run.run airferryReceiverIngest s wire = .ok (s', statuses) ∧
      Reached sessionId (seen ++ frames) s' ∧
      ∀ status ∈ statuses, shownReceived status ≠ shownReceived IngestStatus.ingestError := by
  induction wire generalizing seen frames s with
  | nil =>
      obtain rfl := List.map_eq_nil_iff.mp read.symm
      refine ⟨s, [], rfl, ?_, fun status member => by cases member⟩
      rwa [List.append_nil]
  | cons bytes rest ih =>
      cases frames with
      | nil => cases read
      | cons f later =>
          obtain ⟨first, read⟩ := List.cons.inj read
          obtain ⟨s₁, result, ingested, next, -⟩ := ingest_simulates sessionId s _ f reached
          have reached₁ : Reached sessionId (seen ++ [f]) s₁ := by
            unfold Reached
            rw [Stage.run_append]
            exact next
          obtain ⟨s₂, statuses, run, reached₂, unmistaken⟩ := ih read reached₁
          rw [List.append_assoc, List.singleton_append] at reached₂
          refine ⟨s₂, _, Run.run_cons (airferryReceiverIngest_read first ingested) run, reached₂, ?_⟩
          intro status member
          rcases List.mem_cons.mp member with rfl | member
          · intro mistaken
            have small := reached₁.countBounded.lt
            have value := congrArg BitVec.toNat mistaken
            rw [shownReceived_pack (by exact small.trans (by decide))] at value
            exact absurd value (ne_of_lt small)
          · exact unmistaken status member

theorem error_sentinel_unreachable (E : Env) (sessionId : U128) (wire : List Bytes)
    (frames : List (WireFrame E.crc32))
    (read : wire.map (Frame.fromBytes E.crc32) = frames.map fun f => .ok (.ok f.1)) :
    ∃ start s statuses, newPending (E := E) sessionId = .ok start ∧
      Run.run airferryReceiverIngest start wire = .ok (s, statuses) ∧
      statuses.length = wire.length ∧
      (s.metaConfirmed = false → s.progress.receivedSymbols ≤ cacheCap ∧
        Capped frames s.progress.receivedSymbols) ∧
      (s.metaConfirmed = true → s.progress.receivedSymbols ≤ 255 * 2 ^ 24) ∧
      s.progress.receivedSymbols < 2 ^ 32 - 1 ∧
      ∀ status ∈ statuses, shownReceived status ≠ shownReceived IngestStatus.ingestError := by
  obtain ⟨start, new, waiting⟩ := newPending_waiting E sessionId
  have reached : Reached sessionId [] start := waiting
  obtain ⟨s, statuses, run, final, unmistaken⟩ := status_run wire read reached
  have bounded := final.countBounded
  exact ⟨start, s, statuses, new, run, Run.length_of_run run, fun unconfirmed =>
    ⟨(bounded.waiting unconfirmed).le, bounded.waiting unconfirmed⟩, bounded.recovering, bounded.lt,
    unmistaken⟩

def lateDescriptor : List (WireFrame reference.crc32) :=
  [zeroFrame reference 0 0 64 3, oneSymbolDescriptor, zeroFrame reference 0 0 64 0]

theorem lateDescriptor_stage : ∃ described log,
    (Stage.waiting ∅).run reference 0 lateDescriptor = .recovering oneSymbolMeta described log := by
  have buffered := @Stage.next_data reference (zeroFrame reference 0 0 64 3).1 0 rfl (zeroFrame_data ..)
    (.waiting ∅)
  have adopted := @Stage.next_descriptor reference oneSymbolDescriptor.1 0 rfl (by decide) _
    oneSymbolDescriptor_valid (bufferFrame ∅ (zeroFrame reference 0 0 64 3).1)
  obtain ⟨described, log, last, -, -⟩ := @Stage.recovering_next reference 0 oneSymbolInfo.objectMeta
    (some (oneSymbolInfo.fileMeta, oneSymbolInfo.segment)) (replayed oneSymbolInfo.objectMeta
      (reference.drain (bufferFrame ∅ (zeroFrame reference 0 0 64 3).1).entries))
    (zeroFrame reference 0 0 64 0).1
  refine ⟨described, log, ?_⟩
  rw [lateDescriptor, Stage.run, List.foldl_cons, List.foldl_cons, List.foldl_cons, List.foldl_nil, buffered,
    adopted]
  exact last

theorem error_sentinel_unreachable_late :
    ∃ start s statuses, newPending (E := reference) 0 = .ok start ∧
      Run.run airferryReceiverIngest start (lateDescriptor.map fun f => f.1.toBytes) =
        .ok (s, statuses) ∧
      statuses.length = 3 ∧ s.metaConfirmed = true ∧ s.progress.receivedSymbols ≤ 255 * 2 ^ 24 ∧
      ∀ status ∈ statuses, shownReceived status ≠ shownReceived IngestStatus.ingestError := by
  have read : (lateDescriptor.map fun f => f.1.toBytes).map (Frame.fromBytes reference.crc32) =
      lateDescriptor.map fun f => .ok (.ok f.1) := by
    rw [List.map_map]
    exact List.map_congr_left fun f _ => Frame.fromBytes_toBytes f.wireValid
  obtain ⟨start, s, statuses, new, run, count, -, bounded, -, unmistaken⟩ :=
    error_sentinel_unreachable reference 0 _ _ read
  obtain ⟨start', new', waiting⟩ := newPending_waiting reference 0
  cases new.symm.trans new'
  have reached : Reached 0 [] start := waiting
  obtain ⟨s', statuses', run', final, -⟩ := status_run _ read reached
  cases run.symm.trans run'
  have confirmed : s.metaConfirmed = true := by
    obtain ⟨described, log, stage⟩ := lateDescriptor_stage
    rw [Reached, List.nil_append, stage] at final
    exact final.2.1
  exact ⟨start, s, statuses, new, run, count, confirmed, bounded confirmed, unmistaken⟩

end AirFerry.Proof
