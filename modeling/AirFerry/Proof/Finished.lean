import AirFerry.Proof.Immutability
import AirFerry.Proof.ProgressLaws
import AirFerry.Proof.Buffering

/-!
# Finished objects and finished blocks

A complete session only counts what it is shown. A reconstructed block of an incomplete object is
guarded by nothing but the received set.
-/

namespace AirFerry.Proof
open Library QrProtocol RaptorqCore TransferEngine ReceiverSession

variable {E : Env} {s s' : ReceiverSession E}

/-- Only the frame counters and the mismatch streak may differ. -/
def Frozen (s s' : ReceiverSession E) : Prop :=
  ∃ seen duplicate corrupt streak shown, s' = { s with
    sessionMismatchStreak := streak
    progress := { s.progress with
      framesSeen := seen
      framesDuplicate := duplicate
      framesCorrupt := corrupt
      sessionMismatchStreak := shown } }

theorem Frozen.trans {s'' : ReceiverSession E} (first : Frozen s s') (second : Frozen s' s'') :
    Frozen s s'' := by
  obtain ⟨_, _, _, _, _, rfl⟩ := first
  obtain ⟨seen, duplicate, corrupt, streak, shown, rfl⟩ := second
  exact ⟨seen, duplicate, corrupt, streak, shown, rfl⟩

theorem decompressTrimmed_frozen (frozen : Frozen s s') (raw : Bytes) :
    (s'.decompressTrimmed raw).2 = (s.decompressTrimmed raw).2 := by
  obtain ⟨_, _, _, _, _, rfl⟩ := frozen
  unfold decompressTrimmed
  simp only
  split
  · rfl
  split
  · rfl
  split
  · split
    · rfl
    · rfl
  · rfl

theorem assembleResult_frozen (frozen : Frozen s s') :
    s'.assembleResult.2 = s.assembleResult.2 := by
  have trimmed := decompressTrimmed_frozen frozen
  obtain ⟨_, _, _, _, _, rfl⟩ := frozen
  unfold assembleResult assembleRaw
  simp only
  split
  · rfl
  split
  · split
    · exact trimmed _
    · rfl
  · exact trimmed _

structure Sealed (s : ReceiverSession E) : Prop where
  complete : s.isComplete = true
  confirmed : s.metaConfirmed = true
  described : s.descriptorSeen = true
  objectMeta : s.objectMeta.isSome = true

theorem Sealed.of_frozen (h : Sealed s) (frozen : Frozen s s') : Sealed s' := by
  obtain ⟨_, _, _, _, _, rfl⟩ := frozen
  exact ⟨h.complete, h.confirmed, h.described, h.objectMeta⟩

theorem Sealed.ingestDescriptor (h : Sealed s) (f : Frame) :
    ∃ s' result, s.seen.ingestDescriptor f = .ok (s', result) ∧ Frozen s s' := by
  have refused : Frozen s s.seen.corrupt := ⟨_, _, _, _, _, rfl⟩
  have described : s.seen.descriptorSeen = true := h.described
  obtain ⟨parsed, read⟩ := Descriptor.parsePayload_total f.payload
  unfold ReceiverSession.ingestDescriptor
  rw [read]
  simp only [bind, Except.bind, pure, Except.pure, described, if_true]
  cases parsed with
  | none => exact ⟨_, _, rfl, refused⟩
  | some info =>
      simp only
      split
      · exact ⟨_, _, rfl, refused⟩
      · split
        · exact ⟨_, _, rfl, refused⟩
        · exact ⟨_, _, rfl, _, _, _, _, _, rfl⟩

theorem Sealed.ingestSymbol (h : Sealed s) (f : Frame) :
    ∃ s' result, s.seen.ingestSymbol f = .ok (s', result) ∧ Frozen s s' := by
  have complete : s.seen.isComplete = true := h.complete
  unfold ReceiverSession.ingestSymbol
  simp only [bind, Except.bind, pure, Except.pure, complete, if_true]
  split
  · exact ⟨_, _, rfl, _, _, _, _, _, rfl⟩
  split
  · exact ⟨_, _, rfl, _, _, _, _, _, rfl⟩
  · exact ⟨_, _, rfl, _, _, _, _, _, rfl⟩

theorem Sealed.ingest (h : Sealed s) (f : Frame) :
    ∃ s' result, s.ingest f = .ok (s', result) ∧ Frozen s s' := by
  unfold ReceiverSession.ingest
  split
  · exact ⟨_, _, rfl, _, _, _, _, _, rfl⟩
  split
  · exact h.ingestDescriptor f
  rw [if_neg (not_not.mpr h.confirmed)]
  exact h.ingestSymbol f

theorem Sealed.run (frames : List Frame) (h : Sealed s) :
    ∃ s' outs, Run.run ReceiverSession.ingest s frames = .ok (s', outs) ∧ Frozen s s' := by
  induction frames generalizing s with
  | nil => exact ⟨s, [], rfl, _, _, _, _, _, rfl⟩
  | cons f rest ih =>
      obtain ⟨s₁, result, step, first⟩ := h.ingest f
      obtain ⟨s₂, outs, tail, later⟩ := ih (h.of_frozen first)
      exact ⟨s₂, _, Run.run_cons step tail, first.trans later⟩

theorem sealed_of_complete {sessionId : U128} {stage : Stage} (matched : Matches sessionId s stage)
    (adopted : stage.Adopted E.raptorq sessionId) (complete : s.isComplete = true) : Sealed s := by
  cases stage with
  | waiting cache =>
      rw [ReceiverSession.isComplete, matched.2.decoder] at complete
      cases complete
  | recovering m described log =>
      obtain ⟨info, -, -, rfl⟩ := adopted
      obtain ⟨-, confirmed, described, recovering⟩ := matched
      exact ⟨complete, confirmed, described.1, by rw [recovering.objectMeta]; rfl⟩

theorem complete_session_is_frozen (E : Env) (sessionId : U128) (frames : List (WireFrame E.crc32)) :
    ∃ s outs, fromPending E sessionId frames = .ok (s, outs) ∧
      (s.isComplete = true → ∀ later : List Frame, ∃ s' outs',
        Run.run ReceiverSession.ingest s later = .ok (s', outs') ∧ s'.isComplete = true ∧
          Frozen s s' ∧ s'.assembleRaw = s.assembleRaw ∧
          s'.assembleResult.2 = s.assembleResult.2) := by
  obtain ⟨s, outs, run, final, -⟩ := fromPending_simulates E sessionId frames
  refine ⟨s, outs, run, fun complete later => ?_⟩
  have adopted := @Stage.adopted_run E sessionId frames (.waiting ∅) trivial
  have finished := sealed_of_complete final adopted complete
  obtain ⟨s', outs', continued, frozen⟩ := finished.run later
  refine ⟨s', outs', continued, (finished.of_frozen frozen).complete, frozen, ?_,
    assembleResult_frozen frozen⟩
  obtain ⟨_, _, _, _, _, rfl⟩ := frozen
  rfl

def Reconstructed (s : ReceiverSession E) (sbn : U32) : Prop :=
  ∃ d, s.decoder = some d ∧ ∃ b, d.blocks[sbn.toNat]? = some b ∧ b.decoded.isSome = true

/-- What a data frame leaves of a block when it only counts as duplicate or corrupt. -/
structure Ignored (s s' : ReceiverSession E) (sbn : U32) : Prop where
  received : s'.received[sbn.toNat]? = s.received[sbn.toNat]?
  sourceRecv : s'.sourceRecv[sbn.toNat]? = s.sourceRecv[sbn.toNat]?
  receivedSymbols : s'.progress.receivedSymbols = s.progress.receivedSymbols
  counted : Counted s s' 1 1 0 ∨ Counted s s' 1 0 1

def Useless (s : ReceiverSession E) (m : ObjectMeta) (f : Frame) : Prop :=
  s.isComplete = true ∨ 2 ^ 24 ≤ f.header.esi.toNat ∨ f.payload.length ≠ m.symbolSize.toNat ∨
    Received s f

theorem useless_iff {m : ObjectMeta} {log : List Symbol} (h : Recovering s m log) {f : Frame}
    (inside : f.header.sbn.toNat < m.blocks.length) :
    Useless s m f ↔ ¬ Accepts E.raptorq m log (symbolOf f) := by
  constructor
  · rintro (complete | large | size | old) accepted
    · rw [h.isComplete, accepted.2.1] at complete
      cases complete
    · exact absurd accepted.1.esi_lt (not_lt.mpr large)
    · exact size accepted.1.size
    · obtain ⟨x, inLog, same⟩ := (received_iff h accepted.1.sbn_lt).mp old
      exact accepted.2.2 (mem_receivedOf.mpr (List.mem_map.mpr ⟨x, inLog, same⟩))
  · intro refused
    by_contra useful
    simp only [Useless, not_or, not_le, not_not] at useful
    obtain ⟨incomplete, small, size, fresh⟩ := useful
    have fits : Fits m (symbolOf f) := ⟨inside, small, size⟩
    refine refused ⟨fits, ?_, fun old => fresh ((received_iff h fits.sbn_lt).mpr ?_)⟩
    · rw [← h.isComplete]
      simpa using incomplete
    · obtain ⟨x, inLog, same⟩ := List.mem_map.mp (mem_receivedOf.mp old)
      exact ⟨x, inLog, same⟩

theorem ingest_data {sessionId : U128} {m : ObjectMeta}
    {described : Option (FileMeta × Option SegmentMeta)} {log : List Symbol}
    (matched : Matches sessionId s (.recovering m described log)) (f : WireFrame E.crc32)
    (own : f.1.header.sessionId = sessionId) (data : f.1.header.flags &&& flagDescriptor = 0) :
    ∃ s' result, s.ingest f.1 = .ok (s', result) ∧
      Recovering s' m (offer E.raptorq m log (symbolOf f.1)) ∧
      Counted s s' 1 (symbolVerdict E.raptorq m log (symbolOf f.1)).duplicates
        (symbolVerdict E.raptorq m log (symbolOf f.1)).corrupts := by
  obtain ⟨s', result, run, next, -, counted⟩ := ingest_simulates sessionId s _ f matched
  rw [Stage.next_data own data] at next
  rw [Stage.verdict_data own data, Stage.dropped_data own data, frames_symbolVerdict,
    Nat.add_zero] at counted
  exact ⟨s', result, run, next.2.2.2, counted⟩

theorem ignored_iff {sessionId : U128} {m : ObjectMeta}
    {described : Option (FileMeta × Option SegmentMeta)} {log : List Symbol}
    (matched : Matches sessionId s (.recovering m described log)) (f : WireFrame E.crc32)
    (own : f.1.header.sessionId = sessionId) (data : f.1.header.flags &&& flagDescriptor = 0)
    (finished : Reconstructed s f.1.header.sbn) :
    ∃ s' result, s.ingest f.1 = .ok (s', result) ∧
      (Ignored s s' f.1.header.sbn ↔ Useless s m f.1) := by
  have h : Recovering s m log := matched.2.2.2
  obtain ⟨d, decoder, b, found, -⟩ := finished
  rw [h.decoder, Option.some.injEq] at decoder
  subst decoder
  have inside : f.1.header.sbn.toNat < m.blocks.length := by
    rw [← Decoder.length_blocks_ofLog (R := E.raptorq) m log]
    exact (List.getElem?_eq_some_iff.mp found).1
  obtain ⟨s', result, run, after, counted⟩ := ingest_data matched f own data
  refine ⟨s', result, run, ?_⟩
  rw [useless_iff h inside]
  constructor
  · intro ignored accepted
    have grown := receivedCount_append h.valid accepted.1.sbn_lt accepted.2.2
    have same := ignored.receivedSymbols
    rw [after.receivedSymbols, h.receivedSymbols, offer, if_pos accepted, grown] at same
    omega
  · intro refused
    rw [offer, if_neg refused] at after
    rw [symbolVerdict, if_neg refused] at counted
    refine ⟨?_, ?_, ?_, ?_⟩
    · rw [after.received, h.received]
    · rw [after.sourceRecv, h.sourceRecv]
    · rw [after.receivedSymbols, h.receivedSymbols]
    · by_cases fits : Fits m (symbolOf f.1)
      · rw [if_pos fits] at counted
        exact Or.inl counted
      · rw [if_neg fits] at counted
        exact Or.inr counted

theorem finished_block_ignores_iff (E : Env) (origin : Origin) (frames : List (WireFrame E.crc32)) :
    (∃ e, origin.reach E frames = .ok (.error e)) ∨
      ∃ s outs, origin.reach E frames = .ok (.ok (s, outs)) ∧
        (s.isMetaConfirmed = true → ∃ m, s.objectMeta = some m ∧
          ∀ f : WireFrame E.crc32, f.1.header.sessionId = s.sessionId →
            f.1.header.flags &&& flagDescriptor = 0 → Reconstructed s f.1.header.sbn →
            ∃ s' result, s.ingest f.1 = .ok (s', result) ∧
              (Ignored s s' f.1.header.sbn ↔ Useless s m f.1)) := by
  rcases reach_stage E origin with ⟨e, failed⟩ | ⟨start, reached⟩
  · exact Or.inl ⟨e, failed frames⟩
  obtain ⟨s, outs, run, final⟩ := reached frames
  refine Or.inr ⟨s, outs, run, fun confirmed => ?_⟩
  cases here : start.run E origin.sessionId frames with
  | waiting cache =>
      rw [here] at final
      rw [isMetaConfirmed, final.2.metaConfirmed] at confirmed
      cases confirmed
  | recovering m described log =>
      rw [here] at final
      refine ⟨m, final.2.2.2.objectMeta, fun f own data finished => ?_⟩
      exact ignored_iff final f (own.trans final.1) data finished

def twoBlockMeta : ObjectMeta where
  transferLength := 128
  symbolSize := 64
  otiBytes := ⟨[0, 0, 0, 0, 128, 0, 0, 64, 2, 0, 1, 8], rfl⟩
  blocks := [{ sbn := 0, numSourceSymbols := 1, blockLength := 64 },
    { sbn := 1, numSourceSymbols := 1, blockLength := 64 }]

def twoBlockInfo : DescriptorInfo :=
  { objectMeta := twoBlockMeta, fileMeta := .default, segment := none }

def twoBlockPayload : Bytes :=
  [0xD5, 1, 0, 2, 0, 0, 0, 0, 0, 0, 0, 128, 0, 0, 0, 64] ++ twoBlockMeta.otiBytes.1 ++
    twoBlockMeta.blocks.flatMap Descriptor.blockBytes ++ List.replicate 4 0

def twoBlockDescriptor : WireFrame reference.crc32 :=
  .build reference.crc32 0 flagDescriptor 0 0 2 2 64 0 0 twoBlockPayload (by decide)

theorem twoBlockDescriptor_valid :
    validDescriptor reference.raptorq twoBlockDescriptor.1 = some twoBlockInfo := by
  decide +kernel

def twoBlockSymbol (esi : Nat) : Symbol := symbolOf (zeroFrame reference 0 0 64 esi).1

theorem twoBlock_stage :
    (Stage.waiting ∅).run reference 0 [twoBlockDescriptor, zeroFrame reference 0 0 64 0] =
      .recovering twoBlockMeta (some (.default, none)) [twoBlockSymbol 0] := by
  have accepted : Accepts systematic twoBlockMeta [] (twoBlockSymbol 0) := by decide +kernel
  have adopted : (Stage.waiting ∅).next reference 0 twoBlockDescriptor.1 =
      .recovering twoBlockMeta (some (.default, none)) [] :=
    Stage.next_descriptor rfl (by decide) twoBlockDescriptor_valid ∅
  have stored := @Stage.next_data reference (zeroFrame reference 0 0 64 0).1 0 rfl (zeroFrame_data ..)
    (.recovering twoBlockMeta (some (.default, none)) [])
  have taken : offer systematic twoBlockMeta [] (twoBlockSymbol 0) = [twoBlockSymbol 0] :=
    if_pos accepted
  unfold Stage.run
  rw [List.foldl_cons, List.foldl_cons, List.foldl_nil, adopted, stored]
  exact congrArg (Stage.recovering twoBlockMeta (some (.default, none))) taken

theorem fresh_symbol_grows_finished_block :
    ∃ s outs s' result,
      fromPending reference 0 [twoBlockDescriptor, zeroFrame reference 0 0 64 0] = .ok (s, outs) ∧
        s.isMetaConfirmed = true ∧ Reconstructed s 0 ∧
        s.ingest (zeroFrame reference 0 0 64 5).1 = .ok (s', result) ∧
        s'.progress.receivedSymbols = s.progress.receivedSymbols + 1 ∧ ¬ Ignored s s' 0 := by
  obtain ⟨s, outs, run, final, -⟩ := fromPending_simulates reference 0
    [twoBlockDescriptor, zeroFrame reference 0 0 64 0]
  rw [twoBlock_stage] at final
  have accepted : Accepts systematic twoBlockMeta [twoBlockSymbol 0] (twoBlockSymbol 5) := by
    decide +kernel
  have answered : (Decoder.blockOf systematic twoBlockMeta [twoBlockSymbol 0]
      { sbn := 0, numSourceSymbols := 1, blockLength := 64 }).decoded.isSome = true := by
    decide +kernel
  have h := final.2.2.2
  have finished : Reconstructed s 0 := ⟨_, h.decoder, _, Decoder.blocks_ofLog rfl, answered⟩
  obtain ⟨s', result, step, after, -⟩ := ingest_data final (zeroFrame reference 0 0 64 5) rfl
    (zeroFrame_data ..)
  have grown := receivedCount_append h.valid accepted.1.sbn_lt accepted.2.2
  have more : s'.progress.receivedSymbols = s.progress.receivedSymbols + 1 := by
    rw [after.receivedSymbols, h.receivedSymbols, ← grown]
    exact congrArg (receivedCount twoBlockMeta) (if_pos accepted)
  refine ⟨s, outs, s', result, run, final.2.1, finished, step, more, fun ignored => ?_⟩
  have same := ignored.receivedSymbols
  omega

end AirFerry.Proof
