import AirFerry.Proof.Reference

/-!
# Symbols buffered before the descriptor

The cache keeps the first payload of each coordinate, and its length is only checked when the
descriptor arrives. What is received then is decided by those first payloads.
-/

namespace AirFerry.Proof
open QrProtocol RaptorqCore TransferEngine ReceiverSession

variable {E : Env}

def coordinate (f : Frame) : U32 × U32 := (f.header.sbn, f.header.esi)

/-- The frame of `frames` whose payload the cache keeps for a coordinate. -/
def firstAt (frames : List (WireFrame E.crc32)) (key : U32 × U32) : Option (WireFrame E.crc32) :=
  frames.find? fun f => coordinate f.1 = key

def NotCapped (s : ReceiverSession E) (f : Frame) : Prop :=
  coordinate f ∈ s.symbolCache ∨ s.symbolCache.entries.length < preMetaCacheMax f.header.symbolSize

/-- A session still without a descriptor, shown data frames of which its cap refuses none. -/
structure Buffers (E : Env) (sessionId : U128) (frames : List (WireFrame E.crc32)) : Prop where
  session : ∀ f ∈ frames, f.1.header.sessionId = sessionId
  data : ∀ f ∈ frames, f.1.header.flags &&& flagDescriptor = 0
  uncapped : ∀ pre f, pre ++ [f] <+: frames → ∃ s outs,
    fromPending E sessionId pre = .ok (s, outs) ∧ NotCapped s f.1

theorem Buffers.of_append {sessionId : U128} {frames : List (WireFrame E.crc32)}
    {f : WireFrame E.crc32} (h : Buffers E sessionId (frames ++ [f])) :
    Buffers E sessionId frames where
  session := fun g member => h.session g (List.mem_append_left _ member)
  data := fun g member => h.data g (List.mem_append_left _ member)
  uncapped := fun pre g inside => h.uncapped pre g (inside.trans (List.prefix_append frames [f]))

theorem lookup_bufferFrame {cache : Cache} {f : Frame}
    (uncapped : coordinate f ∈ cache ∨
      cache.entries.length < preMetaCacheMax f.header.symbolSize) (key : U32 × U32) :
    (bufferFrame cache f).lookup key =
      (cache.lookup key).or (if coordinate f = key then some f.payload else none) := by
  by_cases old : coordinate f ∈ cache
  · have kept : bufferFrame cache f = cache := if_pos old
    rw [kept]
    by_cases same : coordinate f = key
    · obtain ⟨data, found⟩ := Option.isSome_iff_exists.mp (AList.lookup_isSome.mpr old)
      rw [← same, found]
      rfl
    · rw [if_neg same, Option.or_none]
  · rw [bufferFrame_new old (uncapped.resolve_left old)]
    by_cases same : coordinate f = key
    · subst same
      rw [if_pos rfl, AList.lookup_eq_none.mpr old]
      exact AList.lookup_insert cache
    · rw [if_neg same, Option.or_none]
      exact AList.lookup_insert_ne (Ne.symm same)

theorem buffered_run {sessionId : U128} {frames : List (WireFrame E.crc32)}
    (h : Buffers E sessionId frames) :
    ∃ cache, (Stage.waiting ∅).run E sessionId frames = .waiting cache ∧
      ∀ key, cache.lookup key = (firstAt frames key).map fun f => f.1.payload := by
  induction frames using List.reverseRecOn with
  | nil => exact ⟨∅, rfl, fun key => rfl⟩
  | append_singleton frames f ih =>
      obtain ⟨cache, run, lookups⟩ := ih h.of_append
      obtain ⟨s, outs, reached, uncapped⟩ := h.uncapped frames f List.prefix_rfl
      obtain ⟨s', outs', reached', final, -⟩ := fromPending_simulates E sessionId frames
      rw [reached'] at reached
      cases reached
      rw [run] at final
      rw [NotCapped, final.2.symbolCache] at uncapped
      have own := h.session f (by simp)
      have data := h.data f (by simp)
      refine ⟨bufferFrame cache f.1, ?_, ?_⟩
      · rw [Stage.run_append, run]
        exact Stage.next_data own data _
      · intro key
        rw [lookup_bufferFrame uncapped, lookups, firstAt, firstAt, List.find?_append,
          Option.map_or]
        congr 1
        by_cases same : coordinate f.1 = key
        · simp [same]
        · simp [same]

theorem mem_replayed {m : ObjectMeta} {cache : Cache} {x : Symbol} :
    x ∈ replayed m (E.drain cache.entries) ↔
      Fits m x ∧ cache.lookup (x.id.sbn, x.id.esi) = some x.data := by
  rw [replayed, List.mem_filter, decide_eq_true_iff, and_comm]
  apply and_congr_right
  intro _
  rw [← Option.mem_def, AList.mem_lookup_iff, ← (E.drain_perm cache.entries).mem_iff]
  constructor
  · intro member
    obtain ⟨entry, cached, rfl⟩ := List.mem_map.mp member
    exact cached
  · intro cached
    exact List.mem_map.mpr ⟨_, cached, rfl⟩

theorem mem_bufferFrame {cache : Cache} {f : Frame} {key : U32 × U32}
    (h : key ∈ bufferFrame cache f) : key ∈ cache ∨ key = coordinate f := by
  unfold bufferFrame at h
  split at h
  · exact Or.inl h
  split at h
  · exact Or.inl h
  · exact ((AList.mem_insert cache).mp h).symm

theorem data_run {sessionId : U128} {frames : List (WireFrame E.crc32)}
    (session : ∀ f ∈ frames, f.1.header.sessionId = sessionId)
    (data : ∀ f ∈ frames, f.1.header.flags &&& flagDescriptor = 0) :
    ∃ cache, (Stage.waiting ∅).run E sessionId frames = .waiting cache ∧
      ∀ key ∈ cache, ∃ f ∈ frames, coordinate f.1 = key := by
  induction frames using List.reverseRecOn with
  | nil => exact ⟨∅, rfl, fun key old => absurd old (AList.notMem_empty key)⟩
  | append_singleton frames f ih =>
      obtain ⟨cache, run, keys⟩ := ih (fun g member => session g (List.mem_append_left _ member))
        (fun g member => data g (List.mem_append_left _ member))
      refine ⟨bufferFrame cache f.1, ?_, ?_⟩
      · rw [Stage.run_append, run]
        exact Stage.next_data (session f (by simp)) (data f (by simp)) _
      · intro key member
        rcases mem_bufferFrame member with old | rfl
        · obtain ⟨g, before, same⟩ := keys key old
          exact ⟨g, List.mem_append_left _ before, same⟩
        · exact ⟨f, by simp, rfl⟩

theorem buffers_of_few {sessionId : U128} {frames : List (WireFrame E.crc32)}
    (session : ∀ f ∈ frames, f.1.header.sessionId = sessionId)
    (data : ∀ f ∈ frames, f.1.header.flags &&& flagDescriptor = 0)
    (room : ∀ f ∈ frames, (frames.map fun f => coordinate f.1).toFinset.card ≤
      preMetaCacheMax f.1.header.symbolSize) : Buffers E sessionId frames where
  session := session
  data := data
  uncapped := by
    intro pre f inside
    have earlier : ∀ g ∈ pre, g ∈ frames := fun g member =>
      inside.subset (List.mem_append_left _ member)
    have present : f ∈ frames := inside.subset (by simp)
    obtain ⟨s, outs, run, final, -⟩ := fromPending_simulates E sessionId pre
    obtain ⟨cache, buffered, keys⟩ := data_run (fun g member => session g (earlier g member))
      (fun g member => data g (earlier g member))
    rw [buffered] at final
    refine ⟨s, outs, run, ?_⟩
    rw [NotCapped, final.2.symbolCache]
    by_cases old : coordinate f.1 ∈ cache
    · exact Or.inl old
    · right
      have new : coordinate f.1 ∉ cache.keys.toFinset := by
        rw [List.mem_toFinset]
        exact old
      have covered : insert (coordinate f.1) cache.keys.toFinset ⊆
          (frames.map fun f => coordinate f.1).toFinset := by
        intro key member
        rw [List.mem_toFinset, List.mem_map]
        rcases Finset.mem_insert.mp member with rfl | member
        · exact ⟨f, present, rfl⟩
        · obtain ⟨g, before, same⟩ := keys key (List.mem_toFinset.mp member)
          exact ⟨g, earlier g before, same⟩
      have count := Finset.card_le_card covered
      rw [Finset.card_insert_of_notMem new, List.toFinset_card_of_nodup cache.keys_nodup] at count
      have length : cache.keys.length = cache.entries.length := List.length_map _
      exact lt_of_lt_of_le (by omega) (room f present)

def Received (s : ReceiverSession E) (f : Frame) : Prop :=
  ∃ block, s.received[f.header.sbn.toNat]? = some block ∧ f.header.esi ∈ block

theorem received_iff {s : ReceiverSession E} {m : ObjectMeta} {log : List Symbol}
    (h : Recovering s m log) {f : Frame} (inside : f.header.sbn.toNat < m.blocks.length) :
    Received s f ↔ ∃ x ∈ log, x.id = (symbolOf f).id := by
  obtain ⟨b, found⟩ : ∃ b, m.blocks[f.header.sbn.toNat]? = some b :=
    ⟨_, List.getElem?_eq_getElem inside⟩
  have same : f.header.sbn = b.sbn := BitVec.eq_of_toNat_eq (h.valid.sbn_toNat found).1.symm
  rw [Received, h.received, List.getElem?_map, found]
  simp only [Option.map_some, Option.some.injEq, exists_eq_left', ← same, mem_receivedOf]
  exact List.mem_map

theorem exists_replayed {m : ObjectMeta} {cache : Cache} {frames : List (WireFrame E.crc32)}
    (lookups : ∀ key, cache.lookup key = (firstAt frames key).map fun f => f.1.payload)
    {f : WireFrame E.crc32} (member : f ∈ frames) (fits : Fits m (symbolOf f.1))
    (sized : ∀ first ∈ firstAt frames (coordinate f.1), first.1.payload.length = m.symbolSize.toNat) :
    ∃ x ∈ replayed m (E.drain cache.entries), x.id = (symbolOf f.1).id := by
  obtain ⟨first, found⟩ : ∃ first, firstAt frames (coordinate f.1) = some first := by
    apply Option.isSome_iff_exists.mp
    rw [firstAt, List.find?_isSome]
    exact ⟨f, member, by simp⟩
  refine ⟨Symbol.new f.1.header.sbn f.1.header.esi first.1.payload, mem_replayed.mpr ⟨?_, ?_⟩, rfl⟩
  · exact ⟨fits.sbn_lt, fits.esi_lt, sized first found⟩
  · have cached := lookups (coordinate f.1)
    rw [found] at cached
    exact cached

theorem received_after_descriptor {sessionId : U128} {frames : List (WireFrame E.crc32)}
    {descriptor : WireFrame E.crc32} {info : DescriptorInfo} (buffers : Buffers E sessionId frames)
    (own : descriptor.1.header.sessionId = sessionId)
    (flagged : descriptor.1.header.flags &&& flagDescriptor ≠ 0)
    (valid : validDescriptor E.raptorq descriptor.1 = some info) :
    ∃ s outs, fromPending E sessionId (frames ++ [descriptor]) = .ok (s, outs) ∧
      ∀ f ∈ frames, Fits info.objectMeta (symbolOf f.1) →
        (Received s f.1 ↔ ∀ first ∈ firstAt frames (coordinate f.1),
          first.1.payload.length = info.objectMeta.symbolSize.toNat) := by
  obtain ⟨s, outs, run, final, -⟩ := fromPending_simulates E sessionId (frames ++ [descriptor])
  obtain ⟨cache, buffered, lookups⟩ := buffered_run buffers
  rw [Stage.run_append, buffered] at final
  change Matches sessionId s ((Stage.waiting cache).next E sessionId descriptor.1) at final
  rw [Stage.next_descriptor own flagged valid] at final
  refine ⟨s, outs, run, fun f member fits => ?_⟩
  rw [received_iff final.2.2.2 fits.sbn_lt]
  constructor
  · rintro ⟨x, played, same⟩ first found
    obtain ⟨fit, cached⟩ := mem_replayed.mp played
    have key : (x.id.sbn, x.id.esi) = coordinate f.1 := by rw [same]; rfl
    rw [key, lookups, Option.mem_def.mp found] at cached
    have payload : first.1.payload = x.data := Option.some.inj cached
    rw [payload]
    exact fit.size
  · exact exists_replayed lookups member fits

theorem buffered_symbols_received_iff (E : Env) (sessionId : U128)
    (frames : List (WireFrame E.crc32)) (descriptor : WireFrame E.crc32) (info : DescriptorInfo)
    (buffers : Buffers E sessionId frames) (own : descriptor.1.header.sessionId = sessionId)
    (flagged : descriptor.1.header.flags &&& flagDescriptor ≠ 0)
    (valid : validDescriptor E.raptorq descriptor.1 = some info) :
    ∃ s outs, fromPending E sessionId (frames ++ [descriptor]) = .ok (s, outs) ∧
      ((∀ f ∈ frames, Fits info.objectMeta (symbolOf f.1) → Received s f.1) ↔
        ∀ f ∈ frames, Fits info.objectMeta (symbolOf f.1) →
          ∀ first ∈ firstAt frames (coordinate f.1),
            first.1.payload.length = info.objectMeta.symbolSize.toNat) := by
  obtain ⟨s, outs, run, each⟩ := received_after_descriptor buffers own flagged valid
  exact ⟨s, outs, run, forall₂_congr fun f member => forall_congr' (each f member)⟩

def oneSymbolMeta : ObjectMeta where
  transferLength := 64
  symbolSize := 64
  otiBytes := ⟨[0, 0, 0, 0, 64, 0, 0, 64, 1, 0, 1, 8], rfl⟩
  blocks := [{ sbn := 0, numSourceSymbols := 1, blockLength := 64 }]

def oneSymbolInfo : DescriptorInfo :=
  { objectMeta := oneSymbolMeta, fileMeta := .default, segment := none }

def oneSymbolPayload : Bytes :=
  [0xD5, 1, 0, 1, 0, 0, 0, 0, 0, 0, 0, 64, 0, 0, 0, 64] ++ oneSymbolMeta.otiBytes.1 ++
    oneSymbolMeta.blocks.flatMap Descriptor.blockBytes ++ List.replicate 20 0

def oneSymbolDescriptor : WireFrame reference.crc32 :=
  .build reference.crc32 0 flagDescriptor 0 0 1 1 64 0 0 oneSymbolPayload (by decide)

theorem oneSymbolDescriptor_valid :
    validDescriptor reference.raptorq oneSymbolDescriptor.1 = some oneSymbolInfo := by
  decide +kernel

theorem coordinate_zeroFrame (sessionId : U128) (sbn size : U32) (esi : Nat) :
    coordinate (zeroFrame E sessionId sbn size esi).1 = (sbn, BitVec.ofNat 32 esi) := rfl

def resentDenser : List (WireFrame reference.crc32) :=
  [zeroFrame reference 0 0 72 0, zeroFrame reference 0 0 64 0]

theorem resentDenser_buffers : Buffers reference 0 resentDenser := by
  have frames : ∀ f ∈ resentDenser, ∃ size ∈ ([72, 64] : List U32),
      f = zeroFrame reference 0 0 size 0 := by
    intro f member
    simpa [resentDenser] using member
  apply buffers_of_few
  · intro f member
    obtain ⟨size, -, rfl⟩ := frames f member
    rfl
  · intro f member
    obtain ⟨size, -, rfl⟩ := frames f member
    exact zeroFrame_data ..
  · intro f member
    have few := List.toFinset_card_le (resentDenser.map fun f => coordinate f.1)
    obtain ⟨size, sizes, rfl⟩ := frames f member
    refine few.trans ?_
    have caps : ∀ size ∈ ([72, 64] : List U32), 2 ≤ preMetaCacheMax size := by
      intro size member
      rcases List.mem_pair.mp member with rfl | rfl
      · decide
      · decide
    have count : (resentDenser.map fun f => coordinate f.1).length = 2 := rfl
    rw [count]
    exact caps size sizes

theorem buffered_symbols_received_resent :
    ∃ s outs, fromPending reference 0 (resentDenser ++ [oneSymbolDescriptor]) = .ok (s, outs) ∧
      ((∀ f ∈ resentDenser, Fits oneSymbolMeta (symbolOf f.1) → Received s f.1) ↔
        ∀ f ∈ resentDenser, Fits oneSymbolMeta (symbolOf f.1) →
          ∀ first ∈ firstAt resentDenser (coordinate f.1),
            first.1.payload.length = oneSymbolMeta.symbolSize.toNat) :=
  buffered_symbols_received_iff reference 0 resentDenser oneSymbolDescriptor oneSymbolInfo
    resentDenser_buffers rfl (by decide) oneSymbolDescriptor_valid

theorem resent_denser_loses_symbol :
    Buffers reference 0 resentDenser ∧
      validDescriptor reference.raptorq oneSymbolDescriptor.1 = some oneSymbolInfo ∧
      ∃ s outs, fromPending reference 0 (resentDenser ++ [oneSymbolDescriptor]) = .ok (s, outs) ∧
        ∃ f ∈ resentDenser, Fits oneSymbolMeta (symbolOf f.1) ∧ ¬ Received s f.1 := by
  refine ⟨resentDenser_buffers, oneSymbolDescriptor_valid, ?_⟩
  obtain ⟨s, outs, run, each⟩ := received_after_descriptor resentDenser_buffers rfl (by decide)
    oneSymbolDescriptor_valid
  have member : zeroFrame reference 0 0 64 0 ∈ resentDenser := by simp [resentDenser]
  have fits : Fits oneSymbolMeta (symbolOf (zeroFrame reference 0 0 64 0).1) :=
    ⟨by decide, by decide, List.length_replicate ..⟩
  refine ⟨s, outs, run, _, member, fits, ?_⟩
  · rw [each _ member fits]
    intro sized
    have kept : zeroFrame reference 0 0 72 0 ∈
        firstAt resentDenser (coordinate (zeroFrame reference 0 0 64 0).1) := by
      simp [firstAt, resentDenser, coordinate_zeroFrame]
    have short : 72 = 64 := (List.length_replicate ..).symm.trans (sized _ kept)
    omega

end AirFerry.Proof
