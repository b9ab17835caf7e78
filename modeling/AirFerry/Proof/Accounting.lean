import AirFerry.Proof.Buffering
import AirFerry.Proof.CacheBudget
import AirFerry.TransferEngine.ReceiverAbi

/-!
# Every frame is accounted for

A frame of the session is stored, refused as a duplicate or as corrupt, or is a descriptor that
confirms the metadata. The descriptor moves cached symbols that do not fit it from one account to
another.
-/

namespace AirFerry.Proof
open Library QrProtocol RaptorqCore TransferEngine ReceiverSession

variable {E : Env} {s : ReceiverSession E} {m : ObjectMeta} {log : List Symbol}

def Stage.ids : Stage → List SymbolId
  | .waiting cache => cache.keys.map fun key => ⟨key.1, key.2⟩
  | .recovering _ _ log => log.map Symbol.id

theorem replayed_ids (m : ObjectMeta) (entries : List ((_ : U32 × U32) × Bytes)) :
    ((replayed m entries).map Symbol.id).Sublist
      (entries.map fun entry => (⟨entry.1.1, entry.1.2⟩ : SymbolId)) := by
  have cut : (replayed m entries).Sublist (entries.map cachedSymbol) := List.filter_sublist
  have named := cut.map Symbol.id
  rwa [List.map_map] at named

theorem cache_ids_nodup (cache : Cache) : (Stage.waiting cache).ids.Nodup := by
  apply cache.keys_nodup.map
  intro a b same
  exact Prod.ext (congrArg SymbolId.sbn same) (congrArg SymbolId.esi same)

theorem ids_entries (cache : Cache) :
    (Stage.waiting cache).ids =
      cache.entries.map fun entry => (⟨entry.1.1, entry.1.2⟩ : SymbolId) := by
  rw [Stage.ids, AList.keys, List.keys, List.map_map]
  rfl

theorem replayed_ids_nodup (cache : Cache) : ((replayed m (E.drain cache.entries)).map
    Symbol.id).Nodup := by
  have unique := cache_ids_nodup cache
  rw [ids_entries] at unique
  have drained := ((E.drain_perm cache.entries).map fun entry =>
    (⟨entry.1.1, entry.1.2⟩ : SymbolId)).nodup_iff.mpr unique
  exact drained.sublist (replayed_ids m _)

theorem fresh_id {x : Symbol} :
    x.id.esi ∉ receivedOf log x.id.sbn ↔ x.id ∉ log.map Symbol.id := by
  rw [mem_receivedOf]

theorem receivedCount_length (valid : m.Valid E.raptorq) (fits : ∀ x ∈ log, Fits m x)
    (distinct : (log.map Symbol.id).Nodup) : receivedCount m log = log.length := by
  induction log using List.reverseRecOn with
  | nil => simp [receivedCount]
  | append_singleton before x ih =>
      rw [List.map_append, List.nodup_append] at distinct
      have fresh : x.id ∉ before.map Symbol.id := fun old => distinct.2.2 _ old _ (by simp) rfl
      rw [receivedCount_append valid (fits x (by simp)).sbn_lt (fresh_id.mpr fresh),
        ih (fun y member => fits y (by simp [member])) distinct.1, List.length_append,
        List.length_singleton]

theorem Stage.ids_next {sessionId : U128} {stage : Stage} (distinct : stage.ids.Nodup) (f : Frame) :
    (stage.next E sessionId f).ids.Nodup := by
  unfold Stage.next
  split
  · exact distinct
  split
  · split
    · exact replayed_ids_nodup _
    · split
      · exact distinct
      · exact distinct
    · exact distinct
  · cases stage with
    | waiting cache => exact cache_ids_nodup _
    | recovering m described log =>
        simp only [Stage.ids, offer]
        split
        · rename_i accepted
          rw [List.map_append, List.nodup_append]
          refine ⟨distinct, by simp, ?_⟩
          intro a old b new same
          obtain rfl : b = (symbolOf f).id := by simpa using new
          subst same
          exact fresh_id.mp accepted.2.2 old
        · exact distinct

theorem length_ids_waiting (cache : Cache) :
    (Stage.waiting cache).ids.length = cache.entries.length := by
  rw [ids_entries, List.length_map]

def Verdict.honours : Verdict → Nat
  | honoured => 1
  | _ => 0

theorem bufferFrame_balance (cache : Cache) (f : Frame) :
    (Stage.waiting (bufferFrame cache f)).ids.length + (bufferVerdict cache f).duplicates +
        (bufferVerdict cache f).corrupts + (bufferVerdict cache f).honours =
      (Stage.waiting cache).ids.length + (bufferVerdict cache f).frames := by
  rw [length_ids_waiting, length_ids_waiting]
  unfold bufferFrame bufferVerdict
  split
  · rfl
  split
  · rfl
  · rename_i fresh room
    rw [AList.entries_insert_of_notMem fresh]
    rfl

theorem offer_balance (R : Raptorq) (m : ObjectMeta) (log : List Symbol) (x : Symbol) :
    (offer R m log x).length + (symbolVerdict R m log x).duplicates +
        (symbolVerdict R m log x).corrupts + (symbolVerdict R m log x).honours =
      log.length + (symbolVerdict R m log x).frames := by
  unfold offer symbolVerdict
  split
  · rw [List.length_append]
    rfl
  split
  · rfl
  · rfl

theorem adopt_balance (m : ObjectMeta) (cache : Cache) :
    (replayed m (E.drain cache.entries)).length + refused m (E.drain cache.entries) =
      (Stage.waiting cache).ids.length := by
  rw [length_replayed, length_ids_waiting, (E.drain_perm cache.entries).length_eq]

theorem repeat_balance (R : Raptorq) (m : ObjectMeta)
    (described : Option (FileMeta × Option SegmentMeta)) (f : Frame) :
    (repeatVerdict R m described f).duplicates + (repeatVerdict R m described f).corrupts +
      (repeatVerdict R m described f).honours = (repeatVerdict R m described f).frames := by
  unfold repeatVerdict
  split
  · rfl
  split
  · rfl
  · rfl

theorem ids_next_descriptor {sessionId : U128} {f : Frame} (own : f.header.sessionId = sessionId)
    (flagged : f.header.flags &&& flagDescriptor ≠ 0)
    (described : Option (FileMeta × Option SegmentMeta)) :
    ((Stage.recovering m described log).next E sessionId f).ids = log.map Symbol.id := by
  unfold Stage.next
  rw [if_neg (not_not.mpr own), if_pos flagged]
  split
  · rename_i waiting _
    cases waiting
  · rename_i same _
    cases same
    split
    · rfl
    · rfl
  · rfl

theorem Stage.balance (sessionId : U128) (stage : Stage) (f : Frame) :
    (stage.next E sessionId f).ids.length + (stage.verdict E sessionId f).duplicates +
        ((stage.verdict E sessionId f).corrupts + stage.dropped E sessionId f) +
        (stage.verdict E sessionId f).honours =
      stage.ids.length + (stage.verdict E sessionId f).frames := by
  by_cases foreign : f.header.sessionId ≠ sessionId
  · unfold Stage.dropped Stage.next Stage.verdict
    simp only [if_pos foreign]
    rfl
  by_cases flagged : f.header.flags &&& flagDescriptor ≠ 0
  · cases stage with
    | waiting cache =>
        unfold Stage.dropped Stage.next Stage.verdict
        simp only [if_neg foreign, if_pos flagged]
        cases found : validDescriptor E.raptorq f with
        | none => rfl
        | some info =>
            simp only [reduceCtorEq, if_false, if_true]
            have moved := adopt_balance (E := E) info.objectMeta cache
            rw [← moved, Stage.ids, List.length_map]
            simp only [Verdict.duplicates, Verdict.corrupts, Verdict.honours, Verdict.frames]
            omega
    | recovering m described log =>
        have kept : ((Stage.recovering m described log).next E sessionId f).ids =
            log.map Symbol.id := ids_next_descriptor (not_not.mp foreign) flagged described
        have verdict : (Stage.recovering m described log).verdict E sessionId f =
            repeatVerdict E.raptorq m described f := by
          unfold Stage.verdict
          rw [if_neg foreign, if_pos flagged]
        have balanced := repeat_balance E.raptorq m described f
        rw [kept, verdict, Stage.dropped_recovering, Stage.ids]
        omega
  · have own : f.header.sessionId = sessionId := not_not.mp foreign
    have data : f.header.flags &&& flagDescriptor = 0 := not_not.mp flagged
    rw [Stage.next_data own data, Stage.verdict_data own data, Stage.dropped_data own data,
      Nat.add_zero]
    cases stage with
    | waiting cache => exact bufferFrame_balance cache f
    | recovering m described log =>
        rw [Stage.ids, Stage.ids, List.length_map, List.length_map]
        exact offer_balance E.raptorq m log (symbolOf f)

theorem Stage.ids_grow (sessionId : U128) (stage : Stage) (f : Frame) :
    ((symbolOf f).id ∉ stage.ids ∧ (symbolOf f).id ∈ (stage.next E sessionId f).ids ∧
        (stage.next E sessionId f).ids.length = stage.ids.length + 1) ∨
      (stage.next E sessionId f).ids ⊆ stage.ids := by
  by_cases foreign : f.header.sessionId ≠ sessionId
  · right
    unfold Stage.next
    rw [if_pos foreign]
    exact List.Subset.refl _
  by_cases flagged : f.header.flags &&& flagDescriptor ≠ 0
  · right
    cases stage with
    | waiting cache =>
        unfold Stage.next
        rw [if_neg foreign, if_pos flagged]
        cases found : validDescriptor E.raptorq f with
        | none => exact List.Subset.refl _
        | some info =>
            have drained := (E.drain_perm cache.entries).map fun entry =>
              (⟨entry.1.1, entry.1.2⟩ : SymbolId)
            rw [ids_entries]
            exact List.Subset.trans (replayed_ids _ _).subset drained.subset
    | recovering m described log =>
        rw [ids_next_descriptor (not_not.mp foreign) flagged]
        exact List.Subset.refl _
  have own : f.header.sessionId = sessionId := not_not.mp foreign
  have data : f.header.flags &&& flagDescriptor = 0 := not_not.mp flagged
  rw [Stage.next_data own data]
  cases stage with
  | waiting cache =>
      by_cases cached : (f.header.sbn, f.header.esi) ∈ cache
      · right
        simp only [bufferFrame, if_pos cached]
        exact List.Subset.refl _
      by_cases full : preMetaCacheMax f.header.symbolSize ≤ cache.entries.length
      · right
        simp only [bufferFrame, if_neg cached, if_pos full]
        exact List.Subset.refl _
      left
      simp only [bufferFrame_new cached (not_le.mp full)]
      rw [ids_entries, ids_entries, AList.entries_insert_of_notMem cached]
      refine ⟨?_, List.mem_cons_self, by rw [List.map_cons, List.length_cons]⟩
      intro old
      rw [← ids_entries] at old
      obtain ⟨key, member, same⟩ := List.mem_map.mp old
      have here : key = (f.header.sbn, f.header.esi) :=
        Prod.ext (congrArg SymbolId.sbn same) (congrArg SymbolId.esi same)
      exact cached (here ▸ member)
  | recovering m described log =>
      by_cases accepted : Accepts E.raptorq m log (symbolOf f)
      · left
        simp only [offer, if_pos accepted, Stage.ids, List.map_append, List.length_append]
        exact ⟨fresh_id.mp accepted.2.2, by simp, rfl⟩
      · right
        simp only [offer, if_neg accepted]
        exact List.Subset.refl _

structure Stage.Distinct (stage : Stage) : Prop where
  ids : stage.ids.Nodup
  cache : stage.cache.entries.length < 2 ^ 32

theorem Stage.distinct_next {sessionId : U128} {stage : Stage} (h : stage.Distinct) (f : Frame) :
    (stage.next E sessionId f).Distinct := by
  refine ⟨Stage.ids_next h.ids f, ?_⟩
  unfold Stage.next
  split
  · exact h.cache
  split
  · split
    · exact Nat.two_pow_pos 32
    · split
      · exact Nat.two_pow_pos 32
      · exact h.cache
    · exact h.cache
  · cases stage with
    | recovering m described log => exact Nat.two_pow_pos 32
    | waiting cache =>
        simp only [Stage.cache, bufferFrame]
        split
        · exact h.cache
        split
        · exact h.cache
        · rename_i fresh full
          have budget := cached_lt_budget (not_le.mp full)
          have least := Nat.mul_le_mul_left cache.entries.length
            (le_max_right f.header.symbolSize.toNat preMetaCacheBytesPerEntry)
          simp only [preMetaCacheBytesBudget, preMetaCacheBytesPerEntry, maxObjectBytes] at budget least
          rw [AList.entries_insert_of_notMem fresh, List.length_cons]
          omega

theorem Matches.receivedSymbols {sessionId : U128} {stage : Stage} (h : Matches sessionId s stage)
    (distinct : stage.Distinct) : s.progress.receivedSymbols = stage.ids.length := by
  cases stage with
  | waiting cache =>
      rw [h.2.receivedSymbols, length_ids_waiting]
      exact asU32_of_lt distinct.cache
  | recovering m described log =>
      have r := h.2.2.2
      rw [r.receivedSymbols, receivedCount_length r.valid r.fits distinct.ids, Stage.ids,
        List.length_map]

/-- The session holds the symbol of this frame, in its cache or in a received set. -/
def Held (s : ReceiverSession E) (f : Frame) : Prop :=
  coordinate f ∈ s.symbolCache ∨ Received s f

theorem Matches.held_iff {sessionId : U128} {stage : Stage} (h : Matches sessionId s stage)
    (f : Frame) : Held s f ↔ (symbolOf f).id ∈ stage.ids := by
  cases stage with
  | waiting cache =>
      have nothing : ¬ Received s f := by
        rintro ⟨block, found, -⟩
        rw [h.2.received] at found
        cases found
      rw [Held, or_iff_left nothing, h.2.symbolCache, Stage.ids, List.mem_map]
      constructor
      · intro cached
        exact ⟨coordinate f, cached, rfl⟩
      · rintro ⟨key, member, same⟩
        have here : key = coordinate f :=
          Prod.ext (congrArg SymbolId.sbn same) (congrArg SymbolId.esi same)
        exact here ▸ member
  | recovering m described log =>
      have r := h.2.2.2
      have nothing : coordinate f ∉ s.symbolCache := by
        rw [r.symbolCache]
        exact AList.notMem_empty _
      rw [Held, or_iff_right nothing, Stage.ids]
      by_cases inside : f.header.sbn.toNat < m.blocks.length
      · rw [received_iff r inside, List.mem_map]
      · constructor
        · rintro ⟨block, found, -⟩
          rw [r.received, List.getElem?_map, List.getElem?_eq_none (not_lt.mp inside)] at found
          cases found
        · intro member
          obtain ⟨x, inLog, same⟩ := List.mem_map.mp member
          have within := (r.fits x inLog).sbn_lt
          rw [same] at within
          exact absurd within inside

/-- It confirms the metadata, or repeats the confirmed metadata identically. -/
def agrees (s : ReceiverSession E) (info : DescriptorInfo) : Bool :=
  if s.descriptorSeen then
    s.objectMeta = some info.objectMeta ∧ s.fileMeta = info.fileMeta ∧ s.segmentMeta = info.segment
  else s.objectMeta = none ∨ s.objectMeta = some info.objectMeta

/-- A valid descriptor of this session that agrees with what the session knows. -/
def honours (s : ReceiverSession E) (f : Frame) : Bool :=
  f.header.sessionId = s.sessionId ∧ f.header.flags &&& flagDescriptor ≠ 0 ∧
    (validDescriptor E.raptorq f).any (agrees s)

def honoured : ReceiverSession E → List (WireFrame E.crc32) → Nat
  | _, [] => 0
  | s, f :: rest =>
      match s.ingest f.1 with
      | .ok (s', _) => (honours s f.1).toNat + honoured s' rest
      | .error _ => 0

theorem Matches.agrees_waiting {sessionId : U128} {cache : Cache}
    (h : Matches sessionId s (.waiting cache)) (info : DescriptorInfo) : agrees s info = true := by
  rw [agrees, h.2.descriptorSeen, h.2.objectMeta]
  rfl

theorem Matches.agrees_iff {sessionId : U128} {described : Option (FileMeta × Option SegmentMeta)}
    (h : Matches sessionId s (.recovering m described log)) (info : DescriptorInfo) :
    agrees s info = true ↔ m = info.objectMeta ∧
      (described = none ∨ described = some (info.fileMeta, info.segment)) := by
  obtain ⟨-, -, known, recovering⟩ := h
  rw [agrees, recovering.objectMeta]
  cases described with
  | none =>
      rw [known.1]
      simp
  | some held =>
      obtain ⟨file, segment⟩ := held
      rw [known.1, known.2.1, known.2.2]
      simp

theorem Matches.honours {sessionId : U128} {stage : Stage} (h : Matches sessionId s stage)
    (f : Frame) : (honours s f).toNat = (stage.verdict E sessionId f).honours := by
  have same := h.sessionId_eq
  by_cases foreign : f.header.sessionId ≠ sessionId
  · have silent : Proof.honours s f = false := by simp [Proof.honours, same, foreign]
    unfold Stage.verdict
    rw [if_pos foreign, silent]
    rfl
  have own : f.header.sessionId = sessionId := not_not.mp foreign
  by_cases flagged : f.header.flags &&& flagDescriptor ≠ 0
  · have spoken : Proof.honours s f = (validDescriptor E.raptorq f).any (agrees s) := by
      simp only [Proof.honours, same, own, flagged, ne_eq, not_false_eq_true, true_and,
        Bool.decide_eq_true]
    rw [spoken]
    unfold Stage.verdict
    rw [if_neg foreign, if_pos flagged]
    cases stage with
    | waiting cache =>
        cases validDescriptor E.raptorq f with
        | none => rfl
        | some info =>
            rw [Option.any_some, h.agrees_waiting info]
            rfl
    | recovering m described log =>
        unfold repeatVerdict
        cases validDescriptor E.raptorq f with
        | none => rfl
        | some info =>
            have agreed := h.agrees_iff info
            simp only [Option.any_some]
            cases known : agrees s info with
            | true =>
                rw [if_pos (agreed.mp known)]
                rfl
            | false =>
                rw [if_neg fun both => Bool.false_ne_true (known.symm.trans (agreed.mpr both))]
                rfl
  · have data : f.header.flags &&& flagDescriptor = 0 := not_not.mp flagged
    have silent : Proof.honours s f = false := by simp [Proof.honours, data]
    rw [Stage.verdict_data own data, silent]
    cases stage with
    | waiting cache =>
        simp only [bufferVerdict]
        split_ifs <;> rfl
    | recovering m described log =>
        simp only [symbolVerdict]
        split_ifs <;> rfl

theorem run_balance (sessionId : U128) (frames : List (WireFrame E.crc32)) (s : ReceiverSession E)
    (stage : Stage) (matched : Matches sessionId s stage) (distinct : stage.Distinct) :
    ∃ s' outs duplicates corrupts, Run.run (fun s (f : WireFrame E.crc32) => s.ingest f.1) s frames =
        .ok (s', outs) ∧
      Matches sessionId s' (stage.run E sessionId frames) ∧ (stage.run E sessionId frames).Distinct ∧
      Counted s s' (frames.countP fun f => f.1.header.sessionId = sessionId) duplicates corrupts ∧
      (stage.run E sessionId frames).ids.length + duplicates + corrupts + honoured s frames =
        stage.ids.length + frames.countP fun f => f.1.header.sessionId = sessionId := by
  induction frames generalizing s stage with
  | nil =>
      exact ⟨s, [], 0, 0, rfl, matched, distinct, counted_same rfl rfl rfl, rfl⟩
  | cons f rest ih =>
      obtain ⟨s₁, result, step, next, -, counted⟩ := ingest_simulates sessionId s stage f matched
      obtain ⟨s₂, outs, d, c, tail, final, apart, later, balance⟩ :=
        ih s₁ _ next (Stage.distinct_next distinct f.1)
      have first := stage.balance (E := E) sessionId f.1
      have total := counted.trans later
      rw [stage.frames_verdict (E := E)] at first total
      refine ⟨s₂, result :: outs, (stage.verdict E sessionId f.1).duplicates + d,
        (stage.verdict E sessionId f.1).corrupts + stage.dropped E sessionId f.1 + c,
        Run.run_cons step tail, final, apart, ?_, ?_⟩
      · rw [List.countP_cons, Nat.add_comm]
        simpa only [decide_eq_true_eq] using total
      · rw [honoured, step]
        simp only [matched.honours f.1, List.countP_cons, decide_eq_true_eq]
        change ((stage.next E sessionId f.1).run E sessionId rest).ids.length + _ + _ + _ = _
        omega

theorem stored_iff {sessionId : U128} {s s' : ReceiverSession E} {stage : Stage}
    (matched : Matches sessionId s stage) (distinct : stage.Distinct) {f : Frame}
    (next : Matches sessionId s' (stage.next E sessionId f)) :
    s.progress.receivedSymbols < s'.progress.receivedSymbols ↔ ¬ Held s f ∧ Held s' f := by
  have later : (stage.next E sessionId f).Distinct := Stage.distinct_next distinct f
  rw [matched.receivedSymbols distinct, next.receivedSymbols later, matched.held_iff, next.held_iff]
  rcases stage.ids_grow (E := E) sessionId f with ⟨fresh, stored, longer⟩ | none
  · exact ⟨fun _ => ⟨fresh, stored⟩, fun _ => by omega⟩
  · constructor
    · intro more
      have bound := (List.subperm_of_subset later.ids none).length_le
      omega
    · rintro ⟨fresh, stored⟩
      exact absurd (none stored) fresh

theorem accepted_iff_stored {sessionId : U128} {s : ReceiverSession E} {stage : Stage}
    (matched : Matches sessionId s stage) (distinct : stage.Distinct) (bytes : Bytes) :
    ∃ s' status, airferryReceiverIngest s bytes = .ok (s', status) ∧
      (status.getLsbD 1 = true ↔
        ∃ f, Frame.fromBytes E.crc32 bytes = .ok (.ok f) ∧ ¬ Held s f ∧ Held s' f) := by
  obtain ⟨result, read⟩ := @Frame.fromBytes_total E.crc32 bytes
  have silent : IngestStatus.ingestError.getLsbD 1 = false := by decide
  unfold airferryReceiverIngest
  by_cases empty : bytes = []
  · refine ⟨s, _, if_pos empty, ?_⟩
    rw [silent]
    constructor
    · intro h
      cases h
    · rintro ⟨f, accepted, fresh, stored⟩
      exact absurd stored fresh
  rw [if_neg empty]
  simp only [bind, Except.bind, pure, Except.pure, read]
  cases result with
  | error e =>
      refine ⟨s, _, rfl, ?_⟩
      rw [silent]
      constructor
      · intro h
        cases h
      · rintro ⟨f, accepted, -⟩
        cases accepted
  | ok f =>
      obtain ⟨s', result, step, next, -⟩ := ingest_simulates sessionId s stage ⟨f, bytes, read⟩ matched
      simp only [step]
      refine ⟨s', _, rfl, ?_⟩
      rw [IngestStatus.pack_accepted, decide_eq_true_eq]
      exact (stored_iff matched distinct next).trans
        ⟨fun both => ⟨f, rfl, both⟩, fun ⟨g, same, both⟩ => by cases same; exact both⟩

theorem every_frame_accounted (E : Env) (sessionId : U128) (frames : List (WireFrame E.crc32)) :
    ∃ start s outs, newPending sessionId = .ok start ∧
      Run.run (fun s (f : WireFrame E.crc32) => s.ingest f.1) start frames = .ok (s, outs) ∧
      (∃ seen duplicates corrupts : Nat,
        seen = frames.countP (fun f => f.1.header.sessionId = sessionId) ∧
        s.progress.framesSeen = BitVec.ofNat 64 seen ∧
        s.progress.framesDuplicate = BitVec.ofNat 64 duplicates ∧
        s.progress.framesCorrupt = BitVec.ofNat 64 corrupts ∧
        seen = s.progress.receivedSymbols + duplicates + corrupts + honoured start frames) ∧
      (frames.length < 2 ^ 64 →
        s.progress.framesSeen.toNat = s.progress.receivedSymbols + s.progress.framesDuplicate.toNat +
          s.progress.framesCorrupt.toNat + honoured start frames ∧
        s.progress.framesDuplicate.toNat + s.progress.framesCorrupt.toNat ≤
          s.progress.framesSeen.toNat) ∧
      ∀ bytes, ∃ s' status, airferryReceiverIngest s bytes = .ok (s', status) ∧
        (status.getLsbD 1 = true ↔
          ∃ f, Frame.fromBytes E.crc32 bytes = .ok (.ok f) ∧ ¬ Held s f ∧ Held s' f) := by
  have fresh : (Stage.waiting ∅).Distinct := ⟨List.nodup_nil, Nat.two_pow_pos 32⟩
  obtain ⟨start, new, waiting⟩ := newPending_waiting E sessionId
  obtain ⟨s, outs, duplicates, corrupts, run, final, distinct, counted, balance⟩ :=
    run_balance sessionId frames start _ waiting fresh
  have zero : start.progress.framesSeen = 0 ∧ start.progress.framesDuplicate = 0 ∧
      start.progress.framesCorrupt = 0 := by
    cases new
    exact ⟨rfl, rfl, rfl⟩
  have seen : s.progress.framesSeen = BitVec.ofNat 64 _ :=
    counted.seen.trans (by rw [zero.1]; exact BitVec.zero_add _)
  have duplicate : s.progress.framesDuplicate = BitVec.ofNat 64 duplicates :=
    counted.duplicate.trans (by rw [zero.2.1]; exact BitVec.zero_add _)
  have corrupt : s.progress.framesCorrupt = BitVec.ofNat 64 corrupts :=
    counted.corrupt.trans (by rw [zero.2.2]; exact BitVec.zero_add _)
  have law : frames.countP (fun f => f.1.header.sessionId = sessionId) =
      s.progress.receivedSymbols + duplicates + corrupts + honoured start frames := by
    rw [final.receivedSymbols distinct]
    exact ((Nat.zero_add _).symm.trans balance.symm)
  refine ⟨start, s, outs, new, run, ⟨_, duplicates, corrupts, rfl, seen, duplicate, corrupt, law⟩, ?_,
    accepted_iff_stored final distinct⟩
  intro short
  have few := List.countP_le_length (p := fun f => f.1.header.sessionId = sessionId) (l := frames)
  have exact64 : ∀ n, n ≤ frames.length → (BitVec.ofNat 64 n).toNat = n := by
    intro n small
    rw [BitVec.toNat_ofNat]
    exact Nat.mod_eq_of_lt (lt_of_le_of_lt small short)
  rw [seen, duplicate, corrupt, exact64 _ few, exact64 duplicates (by omega),
    exact64 corrupts (by omega)]
  exact ⟨law, by omega⟩

end AirFerry.Proof
