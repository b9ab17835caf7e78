import AirFerry.Proof.Recovery

/-!
# The receiver as a two-stage machine

Before its descriptor a session only holds a cache; after it, metadata and a log of symbols.
`simulates` connects every `ingest` to one step of this machine.
-/

namespace AirFerry.Proof
open Library QrProtocol RaptorqCore TransferEngine ReceiverSession

variable {E : Env}

abbrev Cache := AList fun _ : U32 × U32 => Bytes

def symbolOf (f : Frame) : Symbol := Symbol.new f.header.sbn f.header.esi f.payload

def cachedSymbol (entry : (_ : U32 × U32) × Bytes) : Symbol :=
  Symbol.new entry.1.1 entry.1.2 entry.2

def Accepts (R : Raptorq) (m : ObjectMeta) (log : List Symbol) (x : Symbol) : Prop :=
  Fits m x ∧ (Decoder.ofLog R m log).isComplete = false ∧ x.id.esi ∉ receivedOf log x.id.sbn

instance (R : Raptorq) (m : ObjectMeta) (log : List Symbol) (x : Symbol) :
    Decidable (Accepts R m log x) :=
  inferInstanceAs (Decidable (_ ∧ _))

def offer (R : Raptorq) (m : ObjectMeta) (log : List Symbol) (x : Symbol) : List Symbol :=
  if Accepts R m log x then log ++ [x] else log

def bufferFrame (cache : Cache) (f : Frame) : Cache :=
  if (f.header.sbn, f.header.esi) ∈ cache then cache
  else if preMetaCacheMax f.header.symbolSize ≤ cache.entries.length then cache
  else cache.insert (f.header.sbn, f.header.esi) f.payload

def replayed (m : ObjectMeta) (entries : List ((_ : U32 × U32) × Bytes)) : List Symbol :=
  (entries.map cachedSymbol).filter fun x => Fits m x

/-- The descriptor a frame carries, when it passes every check of `ingest`. -/
def validDescriptor (R : Raptorq) (f : Frame) : Option DescriptorInfo :=
  match Descriptor.parsePayload f.payload with
  | .ok (some info) => if descriptorInvalid R f info then none else some info
  | _ => none

inductive Stage
  | waiting (cache : Cache)
  | recovering (objectMeta : ObjectMeta) (described : Option (FileMeta × Option SegmentMeta))
      (log : List Symbol)

def Stage.next (E : Env) (sessionId : U128) (stage : Stage) (f : Frame) : Stage :=
  if f.header.sessionId ≠ sessionId then stage
  else if f.header.flags &&& flagDescriptor ≠ 0 then
    match stage, validDescriptor E.raptorq f with
    | .waiting cache, some info =>
        .recovering info.objectMeta (some (info.fileMeta, info.segment))
          (replayed info.objectMeta (E.drain cache.entries))
    | .recovering m none log, some info =>
        if m = info.objectMeta then .recovering m (some (info.fileMeta, info.segment)) log
        else stage
    | _, _ => stage
  else
    match stage with
    | .waiting cache => .waiting (bufferFrame cache f)
    | .recovering m described log => .recovering m described (offer E.raptorq m log (symbolOf f))

theorem bufferFrame_new {cache : Cache} {f : Frame} (fresh : (f.header.sbn, f.header.esi) ∉ cache)
    (room : cache.entries.length < preMetaCacheMax f.header.symbolSize) :
    bufferFrame cache f = cache.insert (f.header.sbn, f.header.esi) f.payload := by
  rw [bufferFrame, if_neg fresh, if_neg (not_le.mpr room)]

theorem Stage.next_data {f : Frame} {sessionId : U128} (own : f.header.sessionId = sessionId)
    (data : f.header.flags &&& flagDescriptor = 0) (stage : Stage) :
    stage.next E sessionId f = match stage with
      | .waiting cache => .waiting (bufferFrame cache f)
      | .recovering m described log =>
          .recovering m described (offer E.raptorq m log (symbolOf f)) := by
  unfold Stage.next
  rw [if_neg (not_not.mpr own), if_neg (not_not.mpr data)]

theorem Stage.next_descriptor {f : Frame} {sessionId : U128} (own : f.header.sessionId = sessionId)
    (flagged : f.header.flags &&& flagDescriptor ≠ 0) {info : DescriptorInfo}
    (valid : validDescriptor E.raptorq f = some info) (cache : Cache) :
    (Stage.waiting cache).next E sessionId f =
      .recovering info.objectMeta (some (info.fileMeta, info.segment))
        (replayed info.objectMeta (E.drain cache.entries)) := by
  unfold Stage.next
  rw [if_neg (not_not.mpr own), if_pos flagged, valid]

/-! ## What becomes of a frame -/

inductive Verdict
  | foreign
  | stored
  | duplicate
  | corrupt
  | honoured
deriving DecidableEq

namespace Verdict

def frames : Verdict → Nat
  | foreign => 0
  | _ => 1

def duplicates : Verdict → Nat
  | duplicate => 1
  | _ => 0

def corrupts : Verdict → Nat
  | corrupt => 1
  | _ => 0

end Verdict

def bufferVerdict (cache : Cache) (f : Frame) : Verdict :=
  if (f.header.sbn, f.header.esi) ∈ cache then .duplicate
  else if preMetaCacheMax f.header.symbolSize ≤ cache.entries.length then .corrupt
  else .stored

def symbolVerdict (R : Raptorq) (m : ObjectMeta) (log : List Symbol) (x : Symbol) : Verdict :=
  if Accepts R m log x then .stored else if Fits m x then .duplicate else .corrupt

def repeatVerdict (R : Raptorq) (m : ObjectMeta) (described : Option (FileMeta × Option SegmentMeta))
    (f : Frame) : Verdict :=
  match validDescriptor R f with
  | none => .corrupt
  | some info =>
      if m = info.objectMeta ∧ (described = none ∨ described = some (info.fileMeta, info.segment)) then
        .honoured
      else .corrupt

def Stage.verdict (E : Env) (sessionId : U128) (stage : Stage) (f : Frame) : Verdict :=
  if f.header.sessionId ≠ sessionId then .foreign
  else if f.header.flags &&& flagDescriptor ≠ 0 then
    match stage with
    | .waiting _ => if validDescriptor E.raptorq f = none then .corrupt else .honoured
    | .recovering m described _ => repeatVerdict E.raptorq m described f
  else
    match stage with
    | .waiting cache => bufferVerdict cache f
    | .recovering m _ log => symbolVerdict E.raptorq m log (symbolOf f)

def refused (m : ObjectMeta) (entries : List ((_ : U32 × U32) × Bytes)) : Nat :=
  entries.countP fun entry => ¬ Fits m (cachedSymbol entry)

theorem length_replayed (m : ObjectMeta) (entries : List ((_ : U32 × U32) × Bytes)) :
    (replayed m entries).length + refused m entries = entries.length := by
  have split := @List.length_eq_countP_add_countP _ (fun entry => decide (Fits m (cachedSymbol entry)))
    entries
  rw [replayed, ← List.countP_eq_length_filter, List.countP_map, refused, split]
  congr 1
  exact List.countP_congr fun entry _ => by simp

def Stage.dropped (E : Env) (sessionId : U128) (stage : Stage) (f : Frame) : Nat :=
  if stage.verdict E sessionId f = .honoured then
    match stage, validDescriptor E.raptorq f with
    | .waiting cache, some info => refused info.objectMeta (E.drain cache.entries)
    | _, _ => 0
  else 0

theorem Stage.verdict_data {f : Frame} {sessionId : U128} (own : f.header.sessionId = sessionId)
    (data : f.header.flags &&& flagDescriptor = 0) (stage : Stage) :
    stage.verdict E sessionId f = match stage with
      | .waiting cache => bufferVerdict cache f
      | .recovering m _ log => symbolVerdict E.raptorq m log (symbolOf f) := by
  unfold Stage.verdict
  rw [if_neg (not_not.mpr own), if_neg (not_not.mpr data)]

theorem Stage.dropped_recovering (sessionId : U128) (m : ObjectMeta)
    (described : Option (FileMeta × Option SegmentMeta)) (log : List Symbol) (f : Frame) :
    (Stage.recovering m described log).dropped E sessionId f = 0 := by
  unfold Stage.dropped
  split
  · rfl
  · rfl

theorem Stage.dropped_data {f : Frame} {sessionId : U128} (own : f.header.sessionId = sessionId)
    (data : f.header.flags &&& flagDescriptor = 0) (stage : Stage) :
    stage.dropped E sessionId f = 0 := by
  cases stage with
  | waiting cache =>
      have verdict : Stage.verdict E sessionId (.waiting cache) f ≠ .honoured := by
        rw [Stage.verdict_data own data]
        simp only [bufferVerdict]
        split_ifs <;> decide
      exact if_neg verdict
  | recovering m described log => exact dropped_recovering sessionId m described log f

theorem frames_symbolVerdict (R : Raptorq) (m : ObjectMeta) (log : List Symbol) (x : Symbol) :
    (symbolVerdict R m log x).frames = 1 := by
  unfold symbolVerdict
  split_ifs <;> rfl

theorem frames_bufferVerdict (cache : Cache) (f : Frame) : (bufferVerdict cache f).frames = 1 := by
  unfold bufferVerdict
  split_ifs <;> rfl

theorem repeatVerdict_counts (R : Raptorq) (m : ObjectMeta)
    (described : Option (FileMeta × Option SegmentMeta)) (f : Frame) :
    (repeatVerdict R m described f).frames = 1 ∧ (repeatVerdict R m described f).duplicates = 0 := by
  unfold repeatVerdict
  split
  · exact ⟨rfl, rfl⟩
  · split <;> exact ⟨rfl, rfl⟩

theorem Stage.frames_verdict (sessionId : U128) (stage : Stage) (f : Frame) :
    (stage.verdict E sessionId f).frames = if f.header.sessionId = sessionId then 1 else 0 := by
  by_cases own : f.header.sessionId = sessionId
  · rw [if_pos own]
    by_cases data : f.header.flags &&& flagDescriptor = 0
    · rw [Stage.verdict_data own data]
      cases stage with
      | waiting cache => exact frames_bufferVerdict cache f
      | recovering m described log => exact frames_symbolVerdict E.raptorq m log (symbolOf f)
    · unfold Stage.verdict
      rw [if_neg (not_not.mpr own), if_pos data]
      cases stage with
      | waiting cache =>
          dsimp only
          split <;> rfl
      | recovering m described log => exact (repeatVerdict_counts E.raptorq m described f).1
  · unfold Stage.verdict
    rw [if_neg own, if_pos own]
    rfl

/-! ## The session each stage stands for -/

structure SameIdentity (s s' : ReceiverSession E) : Prop where
  sessionId : s'.sessionId = s.sessionId
  metaConfirmed : s'.metaConfirmed = s.metaConfirmed
  descriptorSeen : s'.descriptorSeen = s.descriptorSeen
  fileMeta : s'.fileMeta = s.fileMeta
  segmentMeta : s'.segmentMeta = s.segmentMeta

structure Waiting (s : ReceiverSession E) (cache : Cache) : Prop where
  objectMeta : s.objectMeta = none
  decoder : s.decoder = none
  metaConfirmed : s.metaConfirmed = false
  descriptorSeen : s.descriptorSeen = false
  received : s.received = []
  sourceRecv : s.sourceRecv = []
  symbolCache : s.symbolCache = cache
  totalBlocks : s.progress.totalBlocks = 0
  receivedSymbols : s.progress.receivedSymbols = asU32 cache.entries.length

structure Counted (s s' : ReceiverSession E) (frames duplicates corrupts : Nat) : Prop where
  seen : s'.progress.framesSeen = s.progress.framesSeen + BitVec.ofNat 64 frames
  duplicate : s'.progress.framesDuplicate = s.progress.framesDuplicate + BitVec.ofNat 64 duplicates
  corrupt : s'.progress.framesCorrupt = s.progress.framesCorrupt + BitVec.ofNat 64 corrupts

def Described (s : ReceiverSession E) : Option (FileMeta × Option SegmentMeta) → Prop
  | none => s.descriptorSeen = false ∧ s.fileMeta = .default ∧ s.segmentMeta = none
  | some (fileMeta, segment) =>
      s.descriptorSeen = true ∧ s.fileMeta = fileMeta ∧ s.segmentMeta = segment

def Matches (sessionId : U128) (s : ReceiverSession E) : Stage → Prop
  | .waiting cache => s.sessionId = sessionId ∧ Waiting s cache
  | .recovering m described log =>
      s.sessionId = sessionId ∧ s.metaConfirmed = true ∧ Described s described ∧ Recovering s m log

variable {s : ReceiverSession E} {m : ObjectMeta} {log : List Symbol}

theorem Matches.sessionId_eq {sessionId : U128} {s : ReceiverSession E} {stage : Stage}
    (h : Matches sessionId s stage) : s.sessionId = sessionId := by
  cases stage with
  | waiting cache => exact h.1
  | recovering m described log => exact h.1

theorem Described.of_same {s' : ReceiverSession E} (same : SameIdentity s s') :
    ∀ {described}, Described s described → Described s' described
  | none, ⟨seen, file, segment⟩ =>
      ⟨same.descriptorSeen.trans seen, same.fileMeta.trans file, same.segmentMeta.trans segment⟩
  | some _, ⟨seen, file, segment⟩ =>
      ⟨same.descriptorSeen.trans seen, same.fileMeta.trans file, same.segmentMeta.trans segment⟩

theorem counted_same {s' : ReceiverSession E} (seen : s'.progress.framesSeen = s.progress.framesSeen)
    (duplicate : s'.progress.framesDuplicate = s.progress.framesDuplicate)
    (corrupt : s'.progress.framesCorrupt = s.progress.framesCorrupt) : Counted s s' 0 0 0 :=
  ⟨seen.trans (BitVec.add_zero _).symm, duplicate.trans (BitVec.add_zero _).symm,
    corrupt.trans (BitVec.add_zero _).symm⟩

theorem counted_corrupt (s : ReceiverSession E) : Counted s s.corrupt 0 0 1 :=
  ⟨(BitVec.add_zero _).symm, (BitVec.add_zero _).symm, rfl⟩

theorem counted_duplicate (s : ReceiverSession E) : Counted s s.duplicate 0 1 0 :=
  ⟨(BitVec.add_zero _).symm, rfl, (BitVec.add_zero _).symm⟩

theorem counted_seen (s : ReceiverSession E) : Counted s s.seen 1 0 0 :=
  ⟨rfl, (BitVec.add_zero _).symm, (BitVec.add_zero _).symm⟩

theorem Counted.trans {s₁ s₂ : ReceiverSession E} {n n' d d' c c' : Nat} (first : Counted s s₁ n d c)
    (second : Counted s₁ s₂ n' d' c') : Counted s s₂ (n + n') (d + d') (c + c') where
  seen := by rw [second.seen, first.seen, BitVec.add_assoc, ← BitVec.ofNat_add]
  duplicate := by rw [second.duplicate, first.duplicate, BitVec.add_assoc, ← BitVec.ofNat_add]
  corrupt := by rw [second.corrupt, first.corrupt, BitVec.add_assoc, ← BitVec.ofNat_add]

theorem Counted.ofSeen {s' : ReceiverSession E} {d c : Nat} (h : Counted s.seen s' 0 d c) :
    Counted s s' 1 d c := by
  have total := (counted_seen s).trans h
  rwa [Nat.zero_add, Nat.zero_add] at total

/-! ## Data frames -/

theorem fits_iff {f : Frame} (size : f.payload.length = f.header.symbolSize.toNat) :
    Fits m (symbolOf f) ↔ f.header.sbn.toNat < m.blocks.length ∧
      ¬ (2 ^ 24 ≤ f.header.esi.toNat ∨ asU32 f.payload.length ≠ m.symbolSize.toNat) := by
  have short : asU32 f.payload.length = f.payload.length :=
    asU32_of_lt (by rw [size]; exact f.header.symbolSize.isLt)
  rw [short]
  constructor
  · intro fits
    exact ⟨fits.sbn_lt, not_or.mpr ⟨not_le.mpr fits.esi_lt, not_not.mpr fits.size⟩⟩
  · rintro ⟨sbn, rest⟩
    exact ⟨sbn, not_le.mp (not_or.mp rest).1, not_not.mp (not_or.mp rest).2⟩

theorem acceptSymbol_recovering (h : Recovering s m log) {f : Frame} (fits : Fits m (symbolOf f))
    (fresh : (symbolOf f).id.esi ∉ receivedOf log (symbolOf f).id.sbn)
    (inserted : ReceiverSession E)
    (shape : inserted = { s with
      received := m.blocks.map fun b => receivedOf (log ++ [symbolOf f]) b.sbn }) :
    ∃ s' complete, inserted.acceptSymbol f = .ok (s', .ok complete) ∧
      Recovering s' m (log ++ [symbolOf f]) ∧ SameIdentity s s' ∧ Counted s s' 0 0 0 := by
  have room := receivedCount_lt h.valid h.fits
  have grown := receivedCount_append h.valid fits.sbn_lt fresh
  have objectMeta : inserted.objectMeta = some m := shape ▸ h.objectMeta
  have counter : inserted.progress.receivedSymbols = receivedCount m log :=
    shape ▸ h.receivedSymbols
  have fitsLater : ∀ x ∈ log ++ [symbolOf f], Fits m x := by
    intro x member
    rcases List.mem_append.mp member with member | member
    · exact h.fits x member
    · exact List.mem_singleton.mp member ▸ fits
  unfold acceptSymbol
  rw [counter, addU32_of_lt room]
  simp only [bind, Except.bind, pure, Except.pure, objectMeta]
  rw [show f.header.sbn.toNat = (symbolOf f).id.sbn.toNat from rfl,
    show f.header.esi = (symbolOf f).id.esi from rfl, countSource_tracks h.valid fits fresh]
  · simp only
    rw [show Symbol.new f.header.sbn (symbolOf f).id.esi f.payload = symbolOf f from rfl,
      feedDecoder_tracks h.valid log fits]
    · simp only
      rw [refreshDecodedCounts_tracks h.valid _ ⟨rfl, shape ▸ rfl, rfl⟩ rfl]
      subst shape
      exact ⟨_, _, rfl, {
        decoder := rfl
        received := rfl
        sourceRecv := rfl
        valid := h.valid
        fits := fitsLater
        objectMeta := rfl
        symbolCache := h.symbolCache
        pendingSymbolSize := h.pendingSymbolSize
        totalSymbols := h.totalSymbols
        totalBlocks := h.totalBlocks
        receivedSymbols := grown.symm
        decodedSymbols := rfl
        decodedBlocks := rfl }, ⟨rfl, rfl, rfl, rfl, rfl⟩, counted_same rfl rfl rfl⟩
    · exact shape ▸ h.decoder
  · exact shape ▸ h.sourceRecv

/-- A frame whose symbol is accepted; its own `symbolSize` field is never looked at. -/
theorem ingestSymbol_accepts (h : Recovering s m log) {f : Frame}
    (accepted : Accepts E.raptorq m log (symbolOf f)) :
    ∃ s' complete, s.ingestSymbol f = .ok (s', .ok complete) ∧
      Recovering s' m (log ++ [symbolOf f]) ∧ SameIdentity s s' ∧ Counted s s' 0 0 0 := by
  obtain ⟨fits, incomplete, fresh⟩ := accepted
  have inside : ¬ s.received.length ≤ f.header.sbn.toNat := by
    rw [h.received, List.length_map]
    exact not_le.mpr fits.sbn_lt
  have size : f.payload.length = m.symbolSize.toNat := fits.size
  have short : asU32 f.payload.length = m.symbolSize.toNat := by
    rw [size]
    exact asU32_of_lt m.symbolSize.isLt
  have shape : ¬ (2 ^ 24 ≤ f.header.esi.toNat ∨ asU32 f.payload.length ≠ m.symbolSize.toNat) :=
    not_or.mpr ⟨not_le.mpr fits.esi_lt, not_not.mpr short⟩
  have pending : ¬ s.isComplete = true := by
    rw [h.isComplete, incomplete]
    exact Bool.false_ne_true
  unfold ingestSymbol
  simp only [bind, Except.bind, pure, Except.pure, h.objectMeta, Option.map_some, Option.getD_some]
  rw [if_neg inside, if_neg shape, if_neg pending,
    show f.header.sbn.toNat = (symbolOf f).id.sbn.toNat from rfl,
    show f.header.esi = (symbolOf f).id.esi from rfl, insertReceived_tracks h.valid log fits h.received]
  simp only [fresh, not_false_eq_true, decide_true]
  exact acceptSymbol_recovering h fits fresh _ rfl

theorem ingestSymbol_recovering (h : Recovering s m log) {f : Frame}
    (size : f.payload.length = f.header.symbolSize.toNat) :
    ∃ s' complete, s.ingestSymbol f = .ok (s', .ok complete) ∧
      Recovering s' m (offer E.raptorq m log (symbolOf f)) ∧ SameIdentity s s' ∧
      Counted s s' 0 (symbolVerdict E.raptorq m log (symbolOf f)).duplicates
        (symbolVerdict E.raptorq m log (symbolOf f)).corrupts := by
  have kept : ¬ Accepts E.raptorq m log (symbolOf f) →
      offer E.raptorq m log (symbolOf f) = log := fun ignored => if_neg ignored
  have malformed : ¬ Fits m (symbolOf f) →
      Recovering s.corrupt m (offer E.raptorq m log (symbolOf f)) ∧ SameIdentity s s.corrupt ∧
        Counted s s.corrupt 0 (symbolVerdict E.raptorq m log (symbolOf f)).duplicates
          (symbolVerdict E.raptorq m log (symbolOf f)).corrupts := by
    intro unfit
    have ignored : ¬ Accepts E.raptorq m log (symbolOf f) := fun accepted => unfit accepted.1
    rw [kept ignored, symbolVerdict, if_neg ignored, if_neg unfit]
    exact ⟨{ h with }, ⟨rfl, rfl, rfl, rfl, rfl⟩, counted_corrupt s⟩
  have repeated : Fits m (symbolOf f) → ¬ Accepts E.raptorq m log (symbolOf f) →
      Recovering s.duplicate m (offer E.raptorq m log (symbolOf f)) ∧ SameIdentity s s.duplicate ∧
        Counted s s.duplicate 0 (symbolVerdict E.raptorq m log (symbolOf f)).duplicates
          (symbolVerdict E.raptorq m log (symbolOf f)).corrupts := by
    intro fits ignored
    rw [kept ignored, symbolVerdict, if_neg ignored, if_pos fits]
    exact ⟨{ h with }, ⟨rfl, rfl, rfl, rfl, rfl⟩, counted_duplicate s⟩
  by_cases accepted : Accepts E.raptorq m log (symbolOf f)
  · rw [offer, if_pos accepted, symbolVerdict, if_pos accepted]
    exact ingestSymbol_accepts h accepted
  have blocks : s.received.length = m.blocks.length := by rw [h.received, List.length_map]
  unfold ingestSymbol
  simp only [bind, Except.bind, pure, Except.pure, h.objectMeta, Option.map_some, Option.getD_some]
  by_cases beyond : s.received.length ≤ f.header.sbn.toNat
  · rw [if_pos beyond]
    have unfit : ¬ Fits m (symbolOf f) := by
      intro fits
      have := fits.sbn_lt
      change f.header.sbn.toNat < _ at this
      omega
    exact ⟨_, _, rfl, malformed unfit⟩
  rw [if_neg beyond]
  by_cases badShape : 2 ^ 24 ≤ f.header.esi.toNat ∨ asU32 f.payload.length ≠ m.symbolSize.toNat
  · rw [if_pos badShape]
    exact ⟨_, _, rfl, malformed fun fits => ((fits_iff size).mp fits).2 badShape⟩
  rw [if_neg badShape]
  have fits : Fits m (symbolOf f) := (fits_iff size).mpr ⟨by omega, badShape⟩
  by_cases complete : s.isComplete = true
  · rw [if_pos complete]
    exact ⟨_, _, rfl, repeated fits accepted⟩
  rw [if_neg complete]
  have old : (symbolOf f).id.esi ∈ receivedOf log (symbolOf f).id.sbn := by
    by_contra fresh
    refine accepted ⟨fits, ?_, fresh⟩
    rw [← h.isComplete]
    simpa using complete
  have unchanged : (m.blocks.map fun b => receivedOf (log ++ [symbolOf f]) b.sbn) = s.received := by
    rw [h.received]
    exact List.map_congr_left fun b _ => receivedOf_append_old old b.sbn
  rw [show f.header.sbn.toNat = (symbolOf f).id.sbn.toNat from rfl,
    show f.header.esi = (symbolOf f).id.esi from rfl, insertReceived_tracks h.valid log fits h.received]
  simp only [old, not_true_eq_false, decide_false, unchanged]
  exact ⟨_, _, rfl, repeated fits accepted⟩

/-! ## The descriptor -/

structure SameObject (s s' : ReceiverSession E) : Prop extends SameIdentity s s' where
  objectMeta : s'.objectMeta = s.objectMeta
  symbolCache : s'.symbolCache = s.symbolCache
  pendingSymbolSize : s'.pendingSymbolSize = s.pendingSymbolSize
  totalSymbols : s'.progress.totalSymbols = s.progress.totalSymbols
  totalBlocks : s'.progress.totalBlocks = s.progress.totalBlocks

theorem SameObject.trans {s s' s'' : ReceiverSession E} (first : SameObject s s')
    (second : SameObject s' s'') : SameObject s s'' where
  sessionId := second.sessionId.trans first.sessionId
  metaConfirmed := second.metaConfirmed.trans first.metaConfirmed
  descriptorSeen := second.descriptorSeen.trans first.descriptorSeen
  fileMeta := second.fileMeta.trans first.fileMeta
  segmentMeta := second.segmentMeta.trans first.segmentMeta
  objectMeta := second.objectMeta.trans first.objectMeta
  symbolCache := second.symbolCache.trans first.symbolCache
  pendingSymbolSize := second.pendingSymbolSize.trans first.pendingSymbolSize
  totalSymbols := second.totalSymbols.trans first.totalSymbols
  totalBlocks := second.totalBlocks.trans first.totalBlocks

theorem replayEntry_tracks (valid : m.Valid E.raptorq) (h : Tracks s m log) {x : Symbol}
    (fits : Fits m x) (rest : List ((_ : U32 × U32) × Bytes)) :
    ∃ s', replay m s (⟨(x.id.sbn, x.id.esi), x.data⟩ :: rest) = replay m s' rest ∧
      Tracks s' m (log ++ [x]) ∧ SameObject s s' ∧ Counted s s' 0 0 0 := by
  have blocks : s.received.length = m.blocks.length := by rw [h.received, List.length_map]
  have wellFormed : ¬ (s.received.length ≤ x.id.sbn.toNat ∨ 2 ^ 24 ≤ x.id.esi.toNat ∨
      x.data.length ≠ m.symbolSize.toNat) := by
    have := fits.sbn_lt
    have := fits.esi_lt
    have := fits.size
    omega
  rw [replay]
  simp only [bind, Except.bind, pure, Except.pure, if_neg wellFormed]
  rw [show Symbol.new x.id.sbn x.id.esi x.data = x from rfl, feedDecoder_tracks valid log fits]
  · simp only
    rw [insertReceived_tracks valid log fits]
    · by_cases old : x.id.esi ∈ receivedOf log x.id.sbn
      · have counts : s.sourceRecv = m.blocks.map (sourceCount (log ++ [x])) := by
          rw [h.sourceRecv]
          apply List.map_congr_left
          intro b _
          rw [sourceCount, sourceCount, receivedOf_append_old old]
        simp only [old, not_true_eq_false, decide_false, Bool.false_eq_true, if_false]
        exact ⟨_, rfl, ⟨rfl, rfl, counts⟩, ⟨⟨rfl, rfl, rfl, rfl, rfl⟩, rfl, rfl, rfl, rfl, rfl⟩,
          counted_same rfl rfl rfl⟩
      · simp only [old, not_false_eq_true, decide_true, if_true]
        rw [countSource_tracks valid fits old]
        · exact ⟨_, rfl, ⟨rfl, rfl, rfl⟩, ⟨⟨rfl, rfl, rfl, rfl, rfl⟩, rfl, rfl, rfl, rfl, rfl⟩,
            counted_same rfl rfl rfl⟩
        · exact h.sourceRecv
    · exact h.received
  · exact h.decoder

theorem replay_tracks (valid : m.Valid E.raptorq) (entries : List ((_ : U32 × U32) × Bytes))
    (s : ReceiverSession E) (log : List Symbol) (h : Tracks s m log) :
    ∃ s', replay m s entries = .ok (s', .ok ()) ∧ Tracks s' m (log ++ replayed m entries) ∧
      SameObject s s' ∧ Counted s s' 0 0 (refused m entries) := by
  induction entries generalizing s log with
  | nil =>
      refine ⟨s, rfl, ?_, ⟨⟨rfl, rfl, rfl, rfl, rfl⟩, rfl, rfl, rfl, rfl, rfl⟩,
        counted_same rfl rfl rfl⟩
      simpa [replayed] using h
  | cons entry rest ih =>
      by_cases fits : Fits m (cachedSymbol entry)
      · obtain ⟨s₁, first, tracked, same, stored⟩ := replayEntry_tracks valid h fits rest
        obtain ⟨s₂, replayedRest, final, later, counted⟩ := ih s₁ _ tracked
        have none : refused m (entry :: rest) = refused m rest := by simp [refused, fits]
        refine ⟨s₂, first.trans replayedRest, ?_, same.trans later, ?_⟩
        · simpa [replayed, fits] using final
        · have added := stored.trans counted
          rwa [Nat.zero_add, Nat.zero_add, ← none] at added
      · obtain ⟨⟨sbn, esi⟩, data⟩ := entry
        have blocks : s.received.length = m.blocks.length := by rw [h.received, List.length_map]
        have malformed : s.received.length ≤ sbn.toNat ∨ 2 ^ 24 ≤ esi.toNat ∨
            data.length ≠ m.symbolSize.toNat := by
          by_contra wellFormed
          push Not at wellFormed
          exact fits ⟨by change sbn.toNat < _; omega, wellFormed.2.1, wellFormed.2.2⟩
        obtain ⟨s₂, replayedRest, final, later, counted⟩ :=
          ih s.corrupt log ⟨h.decoder, h.received, h.sourceRecv⟩
        have ignored : SameObject s s.corrupt := ⟨⟨rfl, rfl, rfl, rfl, rfl⟩, rfl, rfl, rfl, rfl, rfl⟩
        have one : refused m (⟨(sbn, esi), data⟩ :: rest) = 1 + refused m rest := by
          simp [refused, fits, Nat.add_comm]
        refine ⟨s₂, ?_, ?_, ignored.trans later, ?_⟩
        · rw [replay]
          simp only [if_pos malformed]
          exact replayedRest
        · simpa [replayed, fits] using final
        · rw [one]
          exact (counted_corrupt s).trans counted

theorem fits_replayed (entries : List ((_ : U32 × U32) × Bytes)) :
    ∀ x ∈ replayed m entries, Fits m x := by
  intro x member
  simpa using (List.mem_filter.mp member).2

theorem applyMeta_recovering {cache : Cache} (h : Waiting s cache) (valid : m.Valid E.raptorq) :
    ∃ s', s.applyMeta m = .ok (s', .ok ()) ∧
      Recovering s' m (replayed m (E.drain cache.entries)) ∧ SameIdentity s s' ∧
      Counted s s' 0 0 (refused m (E.drain cache.entries)) := by
  have fits : ∀ x ∈ replayed m (E.drain cache.entries), Fits m x := fits_replayed _
  have total := sumU32_cards valid fits
  unfold applyMeta
  simp only [bind, Except.bind, pure, Except.pure, Decoder.new_ok valid, sumU32_symbols valid,
    asU32_blocks valid, h.symbolCache]
  have start : Tracks { s with
      symbolCache := ∅
      objectMeta := some m
      pendingSymbolSize := m.symbolSize
      progress := { s.progress with
        totalSymbols := m.totalSymbols, totalBlocks := m.blocks.length }
      received := m.blocks.map fun _ => (∅ : Finset U32)
      sourceRecv := m.blocks.map fun _ => 0
      decoder := some (Decoder.ofLog E.raptorq m []) } m [] := ⟨rfl, rfl, rfl⟩
  obtain ⟨s₁, played, tracked, same, counted⟩ := replay_tracks valid (E.drain cache.entries) _ [] start
  rw [List.nil_append] at tracked
  rw [played]
  simp only [tracked.received, total]
  rw [refreshDecodedCounts_tracks valid (replayed m (E.drain cache.entries))]
  rotate_left
  · exact ⟨tracked.decoder, rfl, tracked.sourceRecv⟩
  · exact same.objectMeta
  exact ⟨_, rfl, {
    decoder := tracked.decoder
    received := rfl
    sourceRecv := tracked.sourceRecv
    valid := valid
    fits := fits
    objectMeta := same.objectMeta
    symbolCache := same.symbolCache
    pendingSymbolSize := same.pendingSymbolSize
    totalSymbols := same.totalSymbols
    totalBlocks := same.totalBlocks
    receivedSymbols := rfl
    decodedSymbols := rfl
    decodedBlocks := rfl }, ⟨same.sessionId, same.metaConfirmed, same.descriptorSeen, same.fileMeta,
      same.segmentMeta⟩, ⟨counted.seen, counted.duplicate, counted.corrupt⟩⟩

/-! ## What an accepted descriptor promises -/

structure ValidDescriptor (R : Raptorq) (sessionId : U128) (info : DescriptorInfo) : Prop where
  objectMeta : info.objectMeta.Valid R
  compression : isKnownCompressionTag info.fileMeta.compression = true
  compressedSize_le : info.fileMeta.compressedSizeKnown = true →
    info.fileMeta.compressedSize.toNat ≤ info.objectMeta.transferLength.toNat
  originalSize_le : info.segment = none → info.fileMeta.originalSize.toNat ≤ maxOriginalBytes
  originalSize_pos : info.segment = none → info.fileMeta.compression ≠ compressionNone →
    0 < info.fileMeta.originalSize.toNat
  segment : ∀ segment, info.segment = some segment → segment.Valid sessionId info.fileMeta

theorem isOk_iff {α : Type} {result : Except String α} :
    result.isOk = true ↔ ∃ value, result = .ok value := by
  cases result <;> simp [Except.isOk, Except.toBool]

theorem validDescriptor_spec {R : Raptorq} {f : Frame} {info : DescriptorInfo}
    (h : validDescriptor R f = some info) :
    ValidDescriptor R f.header.sessionId info ∧ f.header.symbolSize = info.objectMeta.symbolSize ∧
      Descriptor.parsePayload f.payload = .ok (some info) := by
  unfold validDescriptor at h
  split at h
  · rename_i parsed read
    split at h
    · cases h
    · rename_i passed
      cases h
      simp only [descriptorInvalid, Bool.not_eq_true, Bool.or_eq_false_iff, Bool.not_eq_false'] at passed
      obtain ⟨⟨⟨objectOk, geometry⟩, file⟩, segment⟩ := passed
      simp only [frameGeometryInvalid, decide_eq_false_iff_not, not_or, not_not] at geometry
      simp only [fileMetaInvalid, decide_eq_false_iff_not, not_or, not_and, not_not, not_lt] at file
      refine ⟨{
        objectMeta := ?_
        compression := file.1
        compressedSize_le := file.2.2.1
        originalSize_le := file.2.1
        originalSize_pos := fun single compressed =>
          Nat.pos_of_ne_zero (file.2.2.2 single compressed)
        segment := ?_ }, geometry.1, read⟩
      · obtain ⟨_, valid⟩ := isOk_iff.mp objectOk
        exact ObjectMeta.validate_ok_iff.mp valid
      · intro found present
        simp only [segmentInvalid, present, Option.any_some, Bool.not_eq_false'] at segment
        obtain ⟨_, valid⟩ := isOk_iff.mp segment
        exact SegmentMeta.validate_ok_iff.mp valid
  · cases h

theorem validDescriptor_of_valid {R : Raptorq} {f : Frame} {info : DescriptorInfo}
    (read : Descriptor.parsePayload f.payload = .ok (some info))
    (geometry : frameGeometryInvalid f info.objectMeta = false)
    (valid : ValidDescriptor R f.header.sessionId info) : validDescriptor R f = some info := by
  have object : (info.objectMeta.validate R).isOk = true :=
    isOk_iff.mpr ⟨_, ObjectMeta.validate_ok_iff.mpr valid.objectMeta⟩
  have file : fileMetaInvalid info = false := by
    simp only [fileMetaInvalid, decide_eq_false_iff_not, not_or, not_and, not_not, not_lt]
    exact ⟨valid.compression, valid.originalSize_le, valid.compressedSize_le,
      fun single compressed => (valid.originalSize_pos single compressed).ne'⟩
  have segment : segmentInvalid f info = false := by
    unfold segmentInvalid
    cases present : info.segment with
    | none => rfl
    | some found =>
        rw [Option.any_some, Bool.not_eq_false']
        exact isOk_iff.mpr ⟨_, SegmentMeta.validate_ok_iff.mpr (valid.segment found present)⟩
  unfold validDescriptor
  rw [read]
  simp only [descriptorInvalid, object, geometry, file, segment]
  rfl

/-! ## One frame -/

theorem ingestDescriptor_waiting {cache : Cache} (h : Waiting s cache) (f : Frame) :
    ∃ s' complete, s.ingestDescriptor f = .ok (s', .ok complete) ∧ s'.sessionId = s.sessionId ∧
      match validDescriptor E.raptorq f with
      | none => Waiting s' cache ∧ Counted s s' 0 0 1
      | some info => s'.metaConfirmed = true ∧
          Described s' (some (info.fileMeta, info.segment)) ∧
          Recovering s' info.objectMeta (replayed info.objectMeta (E.drain cache.entries)) ∧
          Counted s s' 0 0 (refused info.objectMeta (E.drain cache.entries)) := by
  obtain ⟨parsed, read⟩ := Descriptor.parsePayload_total f.payload
  have spec := @validDescriptor_spec E.raptorq f
  unfold ingestDescriptor
  unfold validDescriptor at spec ⊢
  rw [read] at spec ⊢
  simp only [bind, Except.bind, pure, Except.pure] at spec ⊢
  cases parsed with
  | none => exact ⟨_, _, rfl, rfl, { h with }, counted_corrupt s⟩
  | some info =>
      simp only
      by_cases invalid : descriptorInvalid E.raptorq f info = true
      · simp only [if_pos invalid]
        exact ⟨_, _, rfl, rfl, { h with }, counted_corrupt s⟩
      · simp only [if_neg invalid] at spec ⊢
        have valid := (spec rfl).1.objectMeta
        obtain ⟨s', applied, recovering, same, counted⟩ := applyMeta_recovering h valid
        simp only [h.descriptorSeen, Bool.false_eq_true, if_false, h.objectMeta, applied]
        exact ⟨_, _, rfl, same.sessionId, rfl, ⟨rfl, rfl, rfl⟩,
          { recovering with symbolCache := rfl }, ⟨counted.seen, counted.duplicate, counted.corrupt⟩⟩

theorem ingestDescriptor_recovering {described : Option (FileMeta × Option SegmentMeta)}
    (confirmed : s.metaConfirmed = true) (d : Described s described) (h : Recovering s m log)
    (f : Frame) :
    ∃ s' complete, s.ingestDescriptor f = .ok (s', .ok complete) ∧ s'.sessionId = s.sessionId ∧
      s'.metaConfirmed = true ∧ Recovering s' m log ∧
      Described s' (match described, validDescriptor E.raptorq f with
        | none, some info =>
            if m = info.objectMeta then some (info.fileMeta, info.segment) else none
        | _, _ => described) ∧
      Counted s s' 0 0 (repeatVerdict E.raptorq m described f).corrupts := by
  have refused : Recovering s.corrupt m log ∧ ∀ {d}, Described s d → Described s.corrupt d :=
    ⟨{ h with }, Described.of_same ⟨rfl, rfl, rfl, rfl, rfl⟩⟩
  obtain ⟨parsed, read⟩ := Descriptor.parsePayload_total f.payload
  unfold ingestDescriptor repeatVerdict validDescriptor
  rw [read]
  simp only [bind, Except.bind, pure, Except.pure]
  cases parsed with
  | none =>
      refine ⟨_, _, rfl, rfl, confirmed, refused.1, refused.2 ?_, counted_corrupt s⟩
      cases described <;> exact d
  | some info =>
      simp only
      by_cases invalid : descriptorInvalid E.raptorq f info = true
      · simp only [if_pos invalid]
        refine ⟨_, _, rfl, rfl, confirmed, refused.1, refused.2 ?_, counted_corrupt s⟩
        cases described <;> exact d
      · simp only [if_neg invalid]
        cases described with
        | some known =>
            -- a repeat only ever counts as corrupt or as nothing
            have agrees : (s.objectMeta ≠ some info.objectMeta ∨ s.fileMeta ≠ info.fileMeta ∨
                s.segmentMeta ≠ info.segment) ↔
                ¬ (m = info.objectMeta ∧ (some known = none ∨
                  some known = some (info.fileMeta, info.segment))) := by
              obtain ⟨file, segment⟩ := known
              rw [h.objectMeta, d.2.1, d.2.2]
              simp only [reduceCtorEq, false_or, Option.some.injEq, Prod.mk.injEq, ne_eq]
              tauto
            simp only [d.1, if_true]
            by_cases differs : s.objectMeta ≠ some info.objectMeta ∨ s.fileMeta ≠ info.fileMeta ∨
                s.segmentMeta ≠ info.segment
            · rw [if_pos differs, if_neg (agrees.mp differs)]
              exact ⟨_, _, rfl, rfl, confirmed, refused.1, refused.2 d, counted_corrupt s⟩
            · rw [if_neg differs, if_pos (not_not.mp (mt agrees.mpr differs))]
              exact ⟨_, _, rfl, rfl, confirmed, h, d, counted_same rfl rfl rfl⟩
        | none =>
            simp only [d.1, Bool.false_eq_true, if_false, h.objectMeta]
            by_cases same : m = info.objectMeta
            · simp only [same, ne_eq, not_true_eq_false, if_false, if_true, true_or, and_self]
              exact ⟨_, _, rfl, rfl, rfl, same ▸ { h with symbolCache := rfl }, ⟨rfl, rfl, rfl⟩,
                counted_same rfl rfl rfl⟩
            · simp only [ne_eq, same, not_false_eq_true, if_true, if_false, false_and]
              exact ⟨_, _, rfl, rfl, confirmed, refused.1, refused.2 d, counted_corrupt s⟩

theorem bufferSymbol_waiting {cache : Cache} (h : Waiting s cache) (f : Frame) :
    Waiting (s.bufferSymbol f) (bufferFrame cache f) ∧ (s.bufferSymbol f).sessionId = s.sessionId ∧
      Counted s (s.bufferSymbol f) 0 (bufferVerdict cache f).duplicates
        (bufferVerdict cache f).corrupts := by
  unfold bufferSymbol cacheSymbol bufferFrame bufferVerdict
  simp only [h.symbolCache]
  split_ifs
  · exact ⟨{ h with symbolCache := rfl, receivedSymbols := rfl }, rfl,
      ⟨(counted_duplicate s).seen, (counted_duplicate s).duplicate, (counted_duplicate s).corrupt⟩⟩
  · exact ⟨{ h with symbolCache := rfl, receivedSymbols := rfl }, rfl,
      ⟨(counted_corrupt s).seen, (counted_corrupt s).duplicate, (counted_corrupt s).corrupt⟩⟩
  · exact ⟨{ h with symbolCache := rfl, receivedSymbols := rfl }, rfl, counted_same rfl rfl rfl⟩

def Expected (sessionId : U128) (result : Except TransferEngine.Error Bool) : Prop :=
  (∃ complete, result = .ok complete) ∨ ∃ got, result = .error (.sessionMismatch sessionId got)

def Simulated (sessionId : U128) (s : ReceiverSession E) (stage : Stage) (f : Frame) : Prop :=
  ∃ s' result, s.ingest f = .ok (s', result) ∧
    Matches sessionId s' (stage.next E sessionId f) ∧ Expected sessionId result ∧
    Counted s s' (stage.verdict E sessionId f).frames (stage.verdict E sessionId f).duplicates
      ((stage.verdict E sessionId f).corrupts + stage.dropped E sessionId f)

theorem simulated_foreign {sessionId : U128} {stage : Stage} {f : Frame} (h : Matches sessionId s stage)
    (foreign : f.header.sessionId ≠ sessionId) : Simulated sessionId s stage f := by
  have same : s.sessionId = sessionId := h.sessionId_eq
  unfold Simulated ingest Stage.next Stage.dropped Stage.verdict
  rw [same]
  simp only [if_pos foreign]
  refine ⟨_, _, rfl, ?_, Or.inr ⟨_, rfl⟩, counted_same rfl rfl rfl⟩
  cases stage with
  | waiting cache => exact ⟨same, { h.2 with }⟩
  | recovering m described log =>
      exact ⟨same, h.2.1, h.2.2.1.of_same ⟨rfl, rfl, rfl, rfl, rfl⟩, { h.2.2.2 with }⟩

theorem simulated_descriptor {sessionId : U128} {stage : Stage} {f : Frame}
    (h : Matches sessionId s stage) (own : f.header.sessionId = sessionId)
    (descriptor : f.header.flags &&& flagDescriptor ≠ 0) : Simulated sessionId s stage f := by
  have same : s.sessionId = sessionId := h.sessionId_eq
  unfold Simulated ingest Stage.next Stage.dropped Stage.verdict
  rw [same]
  simp only [if_neg (not_not.mpr own), if_pos descriptor]
  cases stage with
  | waiting cache =>
      obtain ⟨s', complete, run, id, outcome⟩ :=
        @ingestDescriptor_waiting E s.seen cache { h.2 with } f
      refine ⟨s', _, run, ?_⟩
      cases found : validDescriptor E.raptorq f with
      | none =>
          rw [found] at outcome
          exact ⟨⟨id.trans same, outcome.1⟩, Or.inl ⟨complete, rfl⟩, outcome.2.ofSeen⟩
      | some info =>
          rw [found] at outcome
          obtain ⟨confirmed, described, recovering, counted⟩ := outcome
          refine ⟨⟨id.trans same, confirmed, described, recovering⟩, Or.inl ⟨complete, rfl⟩, ?_⟩
          simp only [reduceCtorEq, if_false, if_true]
          have total := counted.ofSeen
          rwa [← Nat.zero_add (refused _ _)] at total
  | recovering m described log =>
      obtain ⟨s', complete, run, id, confirmed, recovering, outcome, counted⟩ :=
        @ingestDescriptor_recovering E s.seen m log described h.2.1
          (h.2.2.1.of_same ⟨rfl, rfl, rfl, rfl, rfl⟩) { h.2.2.2 with } f
      have verdict := repeatVerdict_counts E.raptorq m described f
      refine ⟨s', _, run, ?_, Or.inl ⟨complete, rfl⟩, ?_⟩
      · cases described with
        | some known => exact ⟨id.trans same, confirmed, outcome, recovering⟩
        | none =>
            cases found : validDescriptor E.raptorq f with
            | none =>
                rw [found] at outcome
                exact ⟨id.trans same, confirmed, outcome, recovering⟩
            | some info =>
                rw [found] at outcome
                simp only at outcome ⊢
                split
                · rename_i equal
                  rw [if_pos equal] at outcome
                  exact ⟨id.trans same, confirmed, outcome, recovering⟩
                · rename_i differs
                  rw [if_neg differs] at outcome
                  exact ⟨id.trans same, confirmed, outcome, recovering⟩
      · simp only [verdict.1, verdict.2, ite_self, Nat.add_zero]
        exact counted.ofSeen

theorem simulated_data {sessionId : U128} {stage : Stage} {f : Frame} (h : Matches sessionId s stage)
    (own : f.header.sessionId = sessionId) (data : f.header.flags &&& flagDescriptor = 0)
    (size : f.payload.length = f.header.symbolSize.toNat) : Simulated sessionId s stage f := by
  have same : s.sessionId = sessionId := h.sessionId_eq
  unfold Simulated
  rw [Stage.next_data own data, Stage.verdict_data own data, Stage.dropped_data own data]
  unfold ingest
  rw [same, if_neg (not_not.mpr own), if_neg (not_not.mpr data)]
  cases stage with
  | waiting cache =>
      have unconfirmed : ¬ s.metaConfirmed = true := by simp [h.2.metaConfirmed]
      rw [if_pos unconfirmed]
      obtain ⟨stored, id, counted⟩ := @bufferSymbol_waiting E s.seen cache { h.2 with } f
      refine ⟨_, _, rfl, ⟨id.trans same, stored⟩, Or.inl ⟨_, rfl⟩, ?_⟩
      rw [frames_bufferVerdict]
      exact counted.ofSeen
  | recovering m described log =>
      rw [if_neg (not_not.mpr h.2.1)]
      obtain ⟨s', complete, run, recovering, unchanged, counted⟩ :=
        @ingestSymbol_recovering E s.seen m log { h.2.2.2 with } f size
      refine ⟨s', _, run, ⟨unchanged.sessionId.trans same, unchanged.metaConfirmed.trans h.2.1,
        h.2.2.1.of_same ⟨unchanged.sessionId, unchanged.metaConfirmed, unchanged.descriptorSeen,
          unchanged.fileMeta, unchanged.segmentMeta⟩, recovering⟩, Or.inl ⟨complete, rfl⟩, ?_⟩
      rw [frames_symbolVerdict]
      exact counted.ofSeen

theorem ingest_simulates (sessionId : U128) (s : ReceiverSession E) (stage : Stage)
    (f : WireFrame E.crc32) (h : Matches sessionId s stage) :
    ∃ s' result, s.ingest f.1 = .ok (s', result) ∧
      Matches sessionId s' (stage.next E sessionId f.1) ∧ Expected sessionId result ∧
      Counted s s' (stage.verdict E sessionId f.1).frames (stage.verdict E sessionId f.1).duplicates
        ((stage.verdict E sessionId f.1).corrupts + stage.dropped E sessionId f.1) := by
  by_cases foreign : f.1.header.sessionId ≠ sessionId
  · exact simulated_foreign h foreign
  have own : f.1.header.sessionId = sessionId := not_not.mp foreign
  by_cases descriptor : f.1.header.flags &&& flagDescriptor ≠ 0
  · exact simulated_descriptor h own descriptor
  · exact simulated_data h own (not_not.mp descriptor) f.wireValid.size

/-! ## Whole runs -/

def Stage.run (E : Env) (sessionId : U128) (frames : List (WireFrame E.crc32)) : Stage → Stage :=
  fun stage => frames.foldl (fun stage f => stage.next E sessionId f.1) stage

theorem Stage.recovering_next (sessionId : U128) (m : ObjectMeta)
    (described : Option (FileMeta × Option SegmentMeta)) (log : List Symbol) (f : Frame) :
    ∃ described' later, Stage.next E sessionId (.recovering m described log) f =
      .recovering m described' later ∧ log <+: later ∧ (described ≠ none → described' = described) := by
  unfold Stage.next
  split
  · exact ⟨described, log, rfl, List.prefix_rfl, fun _ => rfl⟩
  split
  · cases described with
    | some known => exact ⟨some known, log, rfl, List.prefix_rfl, fun _ => rfl⟩
    | none =>
        cases validDescriptor E.raptorq f with
        | none => exact ⟨none, log, rfl, List.prefix_rfl, fun _ => rfl⟩
        | some info =>
            simp only
            split
            · exact ⟨_, log, rfl, List.prefix_rfl, fun known => absurd rfl known⟩
            · exact ⟨none, log, rfl, List.prefix_rfl, fun _ => rfl⟩
  · refine ⟨described, _, rfl, ?_, fun _ => rfl⟩
    unfold offer
    split
    · exact List.prefix_append log _
    · exact List.prefix_rfl

theorem Stage.recovering_run (sessionId : U128) (m : ObjectMeta)
    (described : Option (FileMeta × Option SegmentMeta)) (frames : List (WireFrame E.crc32))
    (log : List Symbol) :
    ∃ described' later, Stage.run E sessionId frames (.recovering m described log) =
      .recovering m described' later ∧ log <+: later ∧ (described ≠ none → described' = described) := by
  induction frames generalizing described log with
  | nil => exact ⟨described, log, rfl, List.prefix_rfl, fun _ => rfl⟩
  | cons f rest ih =>
      obtain ⟨middle, grown, step, more, kept⟩ :=
        Stage.recovering_next sessionId m described log f.1
      obtain ⟨last, later, run, further, kept'⟩ := ih middle grown
      refine ⟨last, later, ?_, more.trans further, ?_⟩
      · rw [← run]
        exact congrArg (Stage.run E sessionId rest) step
      · intro known
        obtain rfl := kept known
        exact kept' known

theorem Stage.run_append (sessionId : U128) (frames later : List (WireFrame E.crc32))
    (stage : Stage) :
    stage.run E sessionId (frames ++ later) = (stage.run E sessionId frames).run E sessionId later :=
  List.foldl_append

theorem matches_simulates (sessionId : U128) (frames : List (WireFrame E.crc32))
    (s : ReceiverSession E) (stage : Stage) (h : Matches sessionId s stage) :
    ∃ s' outs, Run.run (fun s (f : WireFrame E.crc32) => s.ingest f.1) s frames = .ok (s', outs) ∧
      Matches sessionId s' (stage.run E sessionId frames) ∧ ∀ o ∈ outs, Expected sessionId o :=
  Run.run_simulates _ (fun s stage f matched =>
    let ⟨s', result, step, next, expected, _⟩ := ingest_simulates sessionId s stage f matched
    ⟨s', result, step, next, expected⟩) frames s stage h

theorem newPending_waiting (E : Env) (sessionId : U128) :
    ∃ s, newPending (E := E) sessionId = .ok s ∧ Matches sessionId s (.waiting ∅) :=
  ⟨_, rfl, rfl, ⟨rfl, rfl, rfl, rfl, rfl, rfl, rfl, rfl, rfl⟩⟩

theorem fromPending_simulates (E : Env) (sessionId : U128) (frames : List (WireFrame E.crc32)) :
    ∃ s outs, fromPending E sessionId frames = .ok (s, outs) ∧
      Matches sessionId s ((Stage.waiting ∅).run E sessionId frames) ∧
      ∀ o ∈ outs, Expected sessionId o := by
  obtain ⟨s, new, start⟩ := newPending_waiting E sessionId
  obtain ⟨s', outs, run, final, expected⟩ := matches_simulates sessionId frames s _ start
  refine ⟨s', outs, ?_, final, expected⟩
  rw [fromPending, new]
  exact run

end AirFerry.Proof
