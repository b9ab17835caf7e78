import AirFerry.Proof.Reference

/-!
# The bytes of the pre-descriptor cache

The cap of the cache counts entries, at the symbol size of the frame at hand. What it says about
bytes is that the entry count times that size is within the budget.
-/

namespace AirFerry.Proof
open QrProtocol RaptorqCore TransferEngine ReceiverSession

variable {E : Env}

def entryCost (data : Bytes) : Nat := max data.length preMetaCacheBytesPerEntry

def cacheCost (cache : Cache) : Nat := (cache.entries.map fun entry => entryCost entry.2).sum

/-- Within the budget but for the entry stored last, which `insert` puts in front. -/
def WithinBudget (cache : Cache) : Prop :=
  ∀ newest ∈ cache.entries.head?, cacheCost cache ≤ preMetaCacheBytesBudget + entryCost newest.2

structure Stores (s : ReceiverSession E) (f : Frame) : Prop where
  session : f.header.sessionId = s.sessionId
  data : f.header.flags &&& flagDescriptor = 0
  unconfirmed : s.metaConfirmed = false
  fresh : (f.header.sbn, f.header.esi) ∉ s.symbolCache
  room : s.symbolCache.entries.length < preMetaCacheMax f.header.symbolSize

theorem lt_ceilDiv_iff {n a b : Nat} (positive : 0 < b) : n < ceilDiv a b ↔ n * b < a := by
  rw [ceilDiv, Nat.lt_div_iff_mul_lt positive, show a + b - 1 - (b - 1) = a by omega, mul_comm]

theorem cached_lt_budget {n : Nat} {size : U32} (room : n < preMetaCacheMax size) :
    n * max size.toNat preMetaCacheBytesPerEntry < preMetaCacheBytesBudget := by
  unfold preMetaCacheMax at room
  split at room
  · rename_i empty
    subst empty
    change n < 12000 at room
    show n * 64 < 33554432
    omega
  · exact (lt_ceilDiv_iff (lt_of_lt_of_le (by decide) (le_max_right _ _))).mp room

/-- What the cap takes the cached entries for when it is asked about this frame. -/
def cacheCharge (cache : Cache) (f : Frame) : Nat := cache.entries.length * entryCost f.payload

theorem cacheCost_le_of_room {cache : Cache} {f : Frame}
    (size : f.payload.length = f.header.symbolSize.toNat)
    (room : cache.entries.length < preMetaCacheMax f.header.symbolSize)
    (charged : cacheCost cache ≤ cacheCharge cache f) : cacheCost cache ≤ preMetaCacheBytesBudget := by
  have capped := cached_lt_budget room
  rw [← size] at capped
  exact charged.trans capped.le

theorem cacheCost_le_charge {cache : Cache} {f : Frame}
    (smaller : ∀ entry ∈ cache.entries, entryCost entry.2 ≤ entryCost f.payload) :
    cacheCost cache ≤ cacheCharge cache f := by
  have costs : ∀ cost ∈ cache.entries.map (fun entry => entryCost entry.2),
      cost ≤ entryCost f.payload := by
    intro cost member
    obtain ⟨entry, cached, rfl⟩ := List.mem_map.mp member
    exact smaller entry cached
  have bound := List.sum_le_card_nsmul _ _ costs
  rwa [List.length_map, smul_eq_mul] at bound

def Stage.cache : Stage → Cache
  | .waiting cache => cache
  | .recovering .. => ∅

theorem Matches.symbolCache {sessionId : U128} {s : ReceiverSession E} {stage : Stage}
    (h : Matches sessionId s stage) : s.symbolCache = stage.cache := by
  cases stage with
  | waiting cache => exact h.2.symbolCache
  | recovering m described log => exact h.2.2.2.symbolCache

theorem cacheCost_insert {cache : Cache} {key : U32 × U32} (fresh : key ∉ cache) (data : Bytes) :
    cacheCost (cache.insert key data) = entryCost data + cacheCost cache := by
  rw [cacheCost, AList.entries_insert_of_notMem fresh, List.map_cons, List.sum_cons]
  rfl

theorem withinBudget_insert {cache : Cache} {key : U32 × U32} (fresh : key ∉ cache) (data : Bytes)
    (before : cacheCost cache ≤ preMetaCacheBytesBudget) : WithinBudget (cache.insert key data) := by
  intro newest found
  rw [AList.entries_insert_of_notMem fresh] at found
  cases found
  rw [cacheCost_insert fresh, Nat.add_comm]
  exact Nat.add_le_add_right before _

theorem withinBudget_empty : WithinBudget ∅ := by
  intro newest found
  cases found

theorem next_cache {sessionId : U128} {s : ReceiverSession E} {stage : Stage}
    (h : Matches sessionId s stage) (f : Frame) :
    (Stores s f ∧ (stage.next E sessionId f).cache =
        s.symbolCache.insert (f.header.sbn, f.header.esi) f.payload) ∨
      (¬ Stores s f ∧ ((stage.next E sessionId f).cache = s.symbolCache ∨
        (stage.next E sessionId f).cache = ∅)) := by
  cases stage with
  | recovering m described log =>
      obtain ⟨described', later, step, -, -⟩ :=
        @Stage.recovering_next E sessionId m described log f
      refine Or.inr ⟨fun stores => ?_, Or.inr (by rw [step]; rfl)⟩
      have unconfirmed := stores.unconfirmed
      rw [h.2.1] at unconfirmed
      cases unconfirmed
  | waiting cache =>
      have cached := h.2.symbolCache
      by_cases foreign : f.header.sessionId ≠ sessionId
      · refine Or.inr ⟨fun stores => foreign (stores.session.trans h.1), Or.inl ?_⟩
        unfold Stage.next
        rw [if_pos foreign, cached]
        rfl
      have own := not_not.mp foreign
      by_cases descriptor : f.header.flags &&& flagDescriptor ≠ 0
      · refine Or.inr ⟨fun stores => descriptor stores.data, ?_⟩
        unfold Stage.next
        rw [if_neg foreign, if_pos descriptor]
        cases validDescriptor E.raptorq f with
        | none => exact Or.inl cached.symm
        | some info => exact Or.inr rfl
      have data := not_not.mp descriptor
      rw [Stage.next_data own data]
      show _ ∧ bufferFrame cache f = _ ∨ _ ∧ (bufferFrame cache f = _ ∨ _)
      rw [bufferFrame, cached]
      by_cases old : (f.header.sbn, f.header.esi) ∈ cache
      · rw [if_pos old]
        exact Or.inr ⟨fun stores => stores.fresh (cached.symm ▸ old), Or.inl rfl⟩
      rw [if_neg old]
      by_cases full : preMetaCacheMax f.header.symbolSize ≤ cache.entries.length
      · rw [if_pos full]
        refine Or.inr ⟨fun stores => ?_, Or.inl rfl⟩
        have room := stores.room
        rw [cached] at room
        exact not_lt.mpr full room
      · rw [if_neg full]
        exact Or.inl ⟨⟨own.trans h.1.symm, data, h.2.metaConfirmed, cached.symm ▸ old,
          cached.symm ▸ not_le.mp full⟩, rfl⟩

theorem Burst.cost {cache filled : Cache} {sbn size : U32} {n : Nat}
    (h : Burst cache sbn size n filled) :
    cacheCost filled = n * max size.toNat preMetaCacheBytesPerEntry + cacheCost cache := by
  obtain ⟨added, entries, payloads⟩ := h.entries
  have costs : added.map (fun entry => entryCost entry.2) =
      List.replicate n (max size.toNat preMetaCacheBytesPerEntry) := by
    have same := congrArg (List.map entryCost) payloads
    rw [List.map_map, List.map_replicate] at same
    rw [entryCost, List.length_replicate] at same
    exact same
  rw [cacheCost, entries, List.map_append, List.sum_append, costs, List.sum_replicate, smul_eq_mul]
  rfl

theorem Burst.cost_le {cache filled : Cache} {sbn size : U32} {n : Nat}
    (h : Burst cache sbn size n filled) {bound : Nat}
    (old : ∀ entry ∈ cache.entries, entryCost entry.2 ≤ bound)
    (new : max size.toNat preMetaCacheBytesPerEntry ≤ bound) :
    ∀ entry ∈ filled.entries, entryCost entry.2 ≤ bound := by
  obtain ⟨added, entries, payloads⟩ := h.entries
  intro entry member
  rw [entries] at member
  rcases List.mem_append.mp member with fresh | cached
  · have payload := List.mem_map_of_mem (f := fun entry => entry.2) fresh
    rw [payloads] at payload
    rw [List.eq_of_mem_replicate payload, entryCost, List.length_replicate]
    exact new
  · exact old entry cached

/-- A session id does not depend on the symbol size, so a file re-sent at another density fills the
same cache. -/
theorem two_bursts (E : Env) (sessionId : U128) {early late : U32} {n k : Nat}
    (n_le : n ≤ preMetaCacheMax early) (k_le : n + k ≤ preMetaCacheMax late) (wide : n + k ≤ 2 ^ 32) :
    ∃ s outs full, fromPending E sessionId
        (burst E sessionId 0 early n ++ burst E sessionId 1 late k) = .ok (s, outs) ∧
      Burst ∅ 0 early n full ∧ Burst full 1 late k s.symbolCache := by
  obtain ⟨full, first, filled⟩ := @burst_run E sessionId ∅ 0 early n (by simp) (by omega)
    (by simpa using n_le)
  have unused : ∀ key ∈ full, key.1 ≠ 1 := by
    intro key member
    rcases filled.keys key member with old | ⟨same, -⟩
    · exact absurd old (AList.notMem_empty key)
    · rw [same]
      decide
  have count : full.entries.length = n := by simpa using filled.length
  obtain ⟨both, second, overfilled⟩ := @burst_run E sessionId full 1 late k unused (by omega)
    (by omega)
  obtain ⟨s, outs, run, final, -⟩ := fromPending_simulates E sessionId
    (burst E sessionId 0 early n ++ burst E sessionId 1 late k)
  rw [Stage.run_append, first, second] at final
  have cached : s.symbolCache = both := final.symbolCache
  exact ⟨s, outs, full, run, filled, cached ▸ overfilled⟩

theorem mem_symbolCache {sessionId : U128} {pre : List (WireFrame E.crc32)} {s : ReceiverSession E}
    {outs : List (Except TransferEngine.Error Bool)} (run : fromPending E sessionId pre = .ok (s, outs)) :
    ∀ entry ∈ s.symbolCache.entries, ∃ f ∈ pre, entry.2 = f.1.payload := by
  induction pre using List.reverseRecOn generalizing s outs with
  | nil =>
      obtain ⟨s', outs', again, final, -⟩ := fromPending_simulates E sessionId []
      rw [run] at again
      cases again
      intro entry member
      rw [final.symbolCache] at member
      cases member
  | append_singleton pre f ih =>
      obtain ⟨s₀, outs₀, run₀, before, -⟩ := fromPending_simulates E sessionId pre
      obtain ⟨s', outs', again, final, -⟩ := fromPending_simulates E sessionId (pre ++ [f])
      rw [run] at again
      cases again
      have old : ∀ entry ∈ s₀.symbolCache.entries, ∃ g ∈ pre ++ [f], entry.2 = g.1.payload := by
        intro entry member
        obtain ⟨g, earlier, same⟩ := ih run₀ entry member
        exact ⟨g, List.mem_append_left _ earlier, same⟩
      rw [Stage.run_append] at final
      have cached : s.symbolCache = (Stage.next E sessionId _ f.1).cache := final.symbolCache
      intro entry member
      rw [cached] at member
      rcases next_cache before f.1 with ⟨stores, grown⟩ | ⟨-, kept | emptied⟩
      · rw [grown, AList.entries_insert_of_notMem stores.fresh] at member
        rcases List.mem_cons.mp member with rfl | member
        · exact ⟨f, by simp, rfl⟩
        · exact old entry member
      · rw [kept] at member
        exact old entry member
      · rw [emptied] at member
        cases member

theorem burst_cost {sessionId : U128} {sbn size : U32} {n : Nat} :
    ∀ f ∈ burst E sessionId sbn size n,
      entryCost f.1.payload = max size.toNat preMetaCacheBytesPerEntry := by
  intro f member
  obtain ⟨esi, -, rfl⟩ := List.mem_map.mp member
  exact congrArg (max · preMetaCacheBytesPerEntry) List.length_replicate

theorem bursts_sorted {sessionId : U128} {early late : U32} {n k : Nat}
    (larger : max early.toNat preMetaCacheBytesPerEntry ≤ max late.toNat preMetaCacheBytesPerEntry) :
    (burst E sessionId 0 early n ++ burst E sessionId 1 late k).Pairwise fun before after =>
      entryCost before.1.payload ≤ entryCost after.1.payload := by
  refine List.pairwise_append.mpr ⟨?_, ?_, ?_⟩
  · exact List.pairwise_of_forall_mem_list fun before first after second =>
      ((burst_cost before first).trans (burst_cost after second).symm).le
  · exact List.pairwise_of_forall_mem_list fun before first after second =>
      ((burst_cost before first).trans (burst_cost after second).symm).le
  · intro before first after second
    rw [burst_cost before first, burst_cost after second]
    exact larger

theorem charged_of_sorted {sessionId : U128} {frames : List (WireFrame E.crc32)}
    (sorted : frames.Pairwise fun early late => entryCost early.1.payload ≤ entryCost late.1.payload)
    {pre : List (WireFrame E.crc32)} {f : WireFrame E.crc32} (inside : pre ++ [f] <+: frames)
    {s : ReceiverSession E} {outs : List (Except TransferEngine.Error Bool)}
    (run : fromPending E sessionId pre = .ok (s, outs)) :
    cacheCost s.symbolCache ≤ cacheCharge s.symbolCache f.1 := by
  apply cacheCost_le_charge
  intro entry member
  obtain ⟨g, earlier, same⟩ := mem_symbolCache run entry member
  rw [same]
  exact (List.pairwise_append.mp (sorted.sublist inside.sublist)).2.2 g earlier f
    (List.mem_singleton_self f)

theorem cache_within_budget (E : Env) (sessionId : U128) (frames : List (WireFrame E.crc32))
    (charged : ∀ pre f, pre ++ [f] <+: frames → ∀ s outs, fromPending E sessionId pre = .ok (s, outs) →
      Stores s f.1 → cacheCost s.symbolCache ≤ cacheCharge s.symbolCache f.1) :
    ∀ pre, pre <+: frames → ∃ s outs, fromPending E sessionId pre = .ok (s, outs) ∧
      WithinBudget s.symbolCache := by
  intro pre inside
  induction pre using List.reverseRecOn with
  | nil =>
      obtain ⟨s, outs, run, final, -⟩ := fromPending_simulates E sessionId []
      refine ⟨s, outs, run, ?_⟩
      rw [final.symbolCache]
      exact withinBudget_empty
  | append_singleton pre f ih =>
      obtain ⟨s, outs, run, final, -⟩ := fromPending_simulates E sessionId pre
      obtain ⟨s₀, outs₀, run₀, before⟩ := ih ((List.prefix_append pre [f]).trans inside)
      rw [run] at run₀
      cases run₀
      obtain ⟨s', outs', run', final', -⟩ := fromPending_simulates E sessionId (pre ++ [f])
      refine ⟨s', outs', run', ?_⟩
      rw [Stage.run_append] at final'
      rw [final'.symbolCache]
      show WithinBudget (Stage.next E sessionId _ f.1).cache
      rcases next_cache final f.1 with ⟨stores, grown⟩ | ⟨-, kept | emptied⟩
      · rw [grown]
        exact withinBudget_insert stores.fresh _
          (cacheCost_le_of_room f.wireValid.size stores.room (charged pre f inside s outs run stores))
      · rw [kept]
        exact before
      · rw [emptied]
        exact withinBudget_empty

def resentLarger : List (WireFrame reference.crc32) :=
  burst reference 0 0 1024 16382 ++ burst reference 0 1 2048 2

theorem resent_larger_within_budget :
    ∃ s outs, fromPending reference 0 resentLarger = .ok (s, outs) ∧
      s.symbolCache.entries.length = preMetaCacheMax 2048 ∧ WithinBudget s.symbolCache := by
  obtain ⟨s, outs, full, run, filled, overfilled⟩ := @two_bursts reference 0 1024 2048 16382 2
    (by decide) (by decide) (by decide)
  obtain ⟨s', outs', again, within⟩ := cache_within_budget reference 0 resentLarger
    (fun pre f inside s outs run _ => charged_of_sorted (bursts_sorted (by decide)) inside run) _
    List.prefix_rfl
  cases run.symm.trans again
  refine ⟨s, outs, run, ?_, within⟩
  rw [overfilled.length, filled.length]
  decide

def resentSmaller : List (WireFrame reference.crc32) :=
  burst reference 0 0 2048 16384 ++ burst reference 0 1 1024 3

theorem resent_smaller_exceeds_budget :
    (∀ f ∈ resentSmaller, f.1.header.sessionId = 0 ∧ f.1.header.flags &&& flagDescriptor = 0) ∧
      ∃ s outs, fromPending reference 0 resentSmaller = .ok (s, outs) ∧
        ∀ entry ∈ s.symbolCache.entries,
          preMetaCacheBytesBudget + entryCost entry.2 < cacheCost s.symbolCache := by
  constructor
  · intro f member
    rcases List.mem_append.mp member with member | member
    · exact burst_data member
    · exact burst_data member
  · have large : max (2048 : U32).toNat preMetaCacheBytesPerEntry = 2048 := by decide
    have small : max (1024 : U32).toNat preMetaCacheBytesPerEntry = 1024 := by decide
    obtain ⟨s, outs, full, run, filled, overfilled⟩ := @two_bursts reference 0 2048 1024 16384 3
      (by decide) (by decide) (by decide)
    have cost : cacheCost s.symbolCache = 3 * 1024 + (16384 * 2048 + 0) := by
      rw [overfilled.cost, filled.cost, large, small]
      rfl
    have largest := overfilled.cost_le (filled.cost_le (by simp) le_rfl) (by decide)
    refine ⟨s, outs, run, fun entry member => ?_⟩
    have bound := largest entry member
    rw [large] at bound
    rw [cost, preMetaCacheBytesBudget, maxObjectBytes]
    omega

end AirFerry.Proof
