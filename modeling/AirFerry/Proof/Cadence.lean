import AirFerry.Proof.FreshSymbols

/-!
# How often descriptors come

A run holds a descriptor frame exactly at the multiples of the interval: symbol ids run out long
before the 64-bit frame index wraps.
-/

namespace AirFerry.Proof
open Library Library.Cadence QrProtocol RaptorqCore TransferEngine

variable {R : Raptorq} {crc32 : Bytes → U32} {s : SenderSession} {encs : List SourceBlockEncoder}

def descriptorPlaces (frames : List Frame) (start n : Nat) : List Nat :=
  (List.range' start n).filter fun place => frames[place]?.any fun f => !isData f

theorem Ready.dataId_lt (ready : Ready s encs) {sent : Nat} {id : U32 × U32}
    (h : dataId s sent = some id) : sent < 2 ^ 57 := by
  have planned := ready.plan_length
  have total := ready.total_lt
  have few := ready.numbered.few
  unfold dataId at h
  split at h
  · omega
  · obtain ⟨b, -, -, esi, small⟩ := Proof.repairId_some h
    have quotient : (sent - s.sourcePlan.length) / s.objectMeta.blocks.length < 2 ^ 24 := by omega
    rw [Nat.div_lt_iff_lt_mul ready.blocks_pos] at quotient
    omega

theorem Emits.length_dataIds_le (ready : Ready s encs) {emitted : Nat} {frames : List Frame}
    (emits : Emits crc32 s encs 0 emitted frames) : (dataIds frames).length ≤ 2 ^ 57 := by
  cases size : (dataIds frames).length with
  | zero => exact Nat.zero_le _
  | succ last =>
      have inside : last < (dataIds frames).length := by rw [size]; exact Nat.lt_succ_self last
      have carried := emits.getElem?_dataIds (List.getElem?_eq_getElem inside)
      have small := ready.dataId_lt carried
      rw [Nat.zero_add] at small
      exact small

theorem Emits.length_lt (ready : Ready s encs) (sparse : 2 ≤ beatOf s) {frames : List Frame}
    (emits : Emits crc32 s encs 0 0 frames) : frames.length < 2 ^ 59 := by
  by_contra long
  have inside := not_lt.mp long
  have counted := emits.count_data inside (Nat.pow_le_pow_right Nat.two_pos (Nat.le_of_ble_eq_true rfl))
  have few := length_beats_le sparse (2 ^ 59)
  have carried : (dataIds (frames.take (2 ^ 59))).length ≤ (dataIds frames).length :=
    ((frames.take_sublist (2 ^ 59)).filter isData |>.map frameId).length_le
  have bounded := emits.length_dataIds_le ready
  omega

theorem Emits.descriptor_iff (ready : Ready s encs) {frames : List Frame}
    (emits : Emits crc32 s encs 0 0 frames) {place : Nat} {f : Frame} (found : frames[place]? = some f) :
    isData f = false ↔ place % beatOf s = 0 := by
  rw [emits.isData_iff found, Nat.zero_add, descriptorAt]
  have positive := beatOf_pos s
  rcases Nat.lt_or_ge (beatOf s) 2 with single | sparse
  · have one : beatOf s = 1 := by omega
    rw [← beatOf, one, Nat.mod_one, Nat.mod_one]
  · have inside := (List.getElem?_eq_some_iff.mp found).1
    have short := emits.length_lt ready sparse
    have narrow : place % 2 ^ 64 = place := Nat.mod_eq_of_lt (by omega)
    rw [narrow, beatOf]

theorem Emits.descriptorPlaces_eq (ready : Ready s encs) {frames : List Frame}
    (emits : Emits crc32 s encs 0 0 frames) {start n : Nat} (inside : start + n ≤ frames.length) :
    descriptorPlaces frames start n = beats (beatOf s) start n := by
  apply List.filter_congr
  intro place member
  have before := (List.mem_range'_1.mp member).2
  have found := List.getElem?_eq_getElem (lt_of_lt_of_le before inside)
  have marked := emits.descriptor_iff ready found
  rw [found, Option.any_some]
  by_cases due : place % beatOf s = 0
  · rw [decide_eq_true due, marked.mpr due]
    rfl
  · rw [decide_eq_false due, eq_true_of_ne_false (mt marked.mp due)]
    rfl

theorem Emits.all_descriptors (ready : Ready s encs) (dense : beatOf s = 1) {frames : List Frame}
    (emits : Emits crc32 s encs 0 0 frames) : ∀ f ∈ frames, isData f = false := by
  intro f member
  obtain ⟨place, found⟩ := List.getElem?_of_mem member
  rw [emits.descriptor_iff ready found, dense]
  exact Nat.mod_one place

theorem not_spent_of_dense (dense : beatOf s = 1) (sent emitted : Nat) : ¬ Spent s sent emitted := by
  intro spent
  apply spent.1
  rw [descriptorAt, ← beatOf, dense]
  exact Nat.mod_one _

theorem Emits.half_data (ready : Ready s encs) (sparse : 2 ≤ beatOf s) {frames : List Frame}
    (emits : Emits crc32 s encs 0 0 frames) {n : Nat} (inside : 2 * n ≤ frames.length) :
    n ≤ (dataIds (frames.take (2 * n))).length := by
  have short := emits.length_lt ready sparse
  have counted := emits.count_data inside (by omega)
  have few := length_beats_le sparse (2 * n)
  omega

theorem Emits.source_sent (ready : Ready s encs) (sparse : 2 ≤ beatOf s) {frames : List Frame}
    (emits : Emits crc32 s encs 0 0 frames)
    (enough : 2 * s.sourcePlan.length ≤ frames.length ∨
      s.sourcePlan.length ≤ (dataIds frames).length) {id : U32 × U32} (planned : id ∈ s.sourcePlan) :
    id ∈ dataIds (frames.take (2 * s.sourcePlan.length)) := by
  have covered : s.sourcePlan.length ≤ (dataIds (frames.take (2 * s.sourcePlan.length))).length := by
    rcases Nat.le_total (2 * s.sourcePlan.length) frames.length with long | short
    · exact emits.half_data ready sparse long
    · rw [List.take_of_length_le short]
      rcases enough with long | spent
      · have whole := emits.half_data ready sparse long
        rwa [List.take_of_length_le short] at whole
      · exact spent
  have whole : dataIds (frames.take (2 * s.sourcePlan.length)) ++
      dataIds (frames.drop (2 * s.sourcePlan.length)) = dataIds frames := by
    rw [← dataIds_append, List.take_append_drop]
  have order := emits.source
  rw [← whole, List.take_append_of_le_length covered, List.length_append,
    List.take_of_length_le (covered.trans (Nat.le_add_right ..))] at order
  rw [← order] at planned
  exact List.mem_of_mem_take planned

theorem descriptors_leave_room (packetizes : R.Packetizes) {payload : Bytes} {sessionId : U128}
    {config : SenderConfig} {fileMeta : FileMeta} {segmentMeta : Option SegmentMeta}
    {fresh s : SenderSession}
    (made : openSession R payload sessionId config fileMeta segmentMeta = .ok (.ok fresh))
    {interval : U32} (paced : s = fresh.setDescriptorInterval interval) (clock : List U64) :
    ∃ s' frames rest,
      s.run crc32 clock =
        .ok (s', frames.map .ok ++ List.replicate rest (.error .symbolIdSpaceExhausted)) ∧
      frames.length + rest = clock.length ∧ (0 < rest → Exhausted s frames) ∧
      (2 ≤ interval.toNat →
        (∀ n, 2 * n ≤ frames.length → n ≤ (dataIds (frames.take (2 * n))).length) ∧
        (2 * s.totalK.toNat ≤ clock.length → ∀ sbn esi b,
          s.objectMeta.blocks[sbn.toNat]? = some b → esi.toNat < b.numSourceSymbols.toNat →
          (sbn, esi) ∈ dataIds (frames.take (2 * s.totalK.toNat)))) ∧
      (interval.toNat < 2 → rest = 0 ∧ ∀ f ∈ frames, isData f = false) := by
  obtain ⟨encs, s', frames, rest, ready, run, count, emits, spent⟩ :=
    @run_emits _ crc32 packetizes _ _ _ _ _ _ _ made _ paced clock
  have beat : beatOf s = max interval.toNat 1 := by rw [paced, beatOf_setDescriptorInterval]
  have exhausted : 0 < rest → Exhausted s frames := fun more => (ready.spent_iff frames).mp (spent more)
  refine ⟨s', frames, rest, run, count, exhausted, ?_, ?_⟩
  · intro wide
    have sparse : 2 ≤ beatOf s := by
      rw [beat]
      exact wide.trans (le_max_left ..)
    refine ⟨fun n inside => emits.half_data ready sparse inside, ?_⟩
    intro enough sbn esi b found inside
    rw [ready.totalK_toNat] at enough ⊢
    refine emits.source_sent ready sparse ?_ ?_
    · rcases Nat.eq_zero_or_pos rest with none | more
      · left
        rwa [← count, none] at enough
      · exact Or.inr (exhausted more).2.1
    · rw [ready.plan]
      exact ((sourceOrder ready.numbered).complete sbn esi).mpr ⟨b, found, inside⟩
  · intro narrow
    have dense : beatOf s = 1 := by omega
    refine ⟨?_, emits.all_descriptors ready dense⟩
    by_contra more
    exact not_spent_of_dense dense _ _ (spent (Nat.pos_of_ne_zero more))

/-- An interval of 0 means 1, and then every frame is a descriptor. -/
theorem descriptors_leave_no_room :
    ∃ fresh, openSession systematic [1, 2, 3] 7 tightConfig FileMeta.default none = .ok (.ok fresh) ∧
      ∃ s', ∃ frames : List Frame, (fresh.setDescriptorInterval 0).run Library.Digest.crc32 [5, 6] =
          .ok (s', frames.map .ok) ∧
        2 * 1 = frames.length ∧ ¬ 1 ≤ (dataIds (frames.take (2 * 1))).length := by
  obtain ⟨encs, s', frames, rest, ready, run, count, emits, spent⟩ :=
    @run_emits systematic Library.Digest.crc32 Systematic.packetizes _ _ _ _ _ _ _ tight_made 0 rfl [5, 6]
  have dense := beatOf_setDescriptorInterval (newSession systematic
    (padToSymbols [1, 2, 3] tightConfig.codec) 7 tightConfig FileMeta.default none) 0
  have none : rest = 0 := by
    by_contra more
    exact not_spent_of_dense dense _ _ (spent (Nat.pos_of_ne_zero more))
  rw [none, List.replicate_zero, List.append_nil] at run
  rw [none, Nat.add_zero] at count
  refine ⟨_, tight_made, s', frames, run, count.symm, ?_⟩
  rw [List.take_of_length_le (show frames.length ≤ 2 * 1 from count.le), dataIds,
    List.filter_eq_nil_iff.mpr]
  · exact Nat.not_succ_le_zero 0
  · intro f member
    rw [emits.all_descriptors ready dense f member]
    exact Bool.noConfusion

theorem descriptors_leave_room_pair :
    ∃ fresh, openSession systematic pairPayload 7 pairConfig FileMeta.default none = .ok (.ok fresh) ∧
      ∃ s', ∃ frames : List Frame,
        (fresh.setDescriptorInterval 2).run Library.Digest.crc32 (List.replicate 112808 5) =
          .ok (s', frames.map .ok) ∧
        50 ≤ (dataIds (frames.take (2 * 50))).length ∧
        ∀ sbn esi b, fresh.objectMeta.blocks[sbn.toNat]? = some b →
          esi.toNat < b.numSourceSymbols.toNat → (sbn, esi) ∈ dataIds (frames.take 112808) := by
  obtain ⟨s', frames, rest, run, count, exhausted, room, -⟩ :=
    @descriptors_leave_room systematic Library.Digest.crc32 Systematic.packetizes _ _ _ _ _ _ _ pair_made 2
      rfl (List.replicate 112808 5)
  rw [List.length_replicate] at count
  obtain rfl := pair_unspent (by omega) exhausted
  rw [List.replicate_zero, List.append_nil] at run
  have total := (ready_of_open Systematic.packetizes pair_made).totalK_toNat
  rw [pair_plan] at total
  obtain ⟨half, every⟩ := room (by decide)
  rw [SenderSession.setDescriptorInterval_totalK, SenderSession.setDescriptorInterval_objectMeta, total,
    List.length_replicate] at every
  exact ⟨_, pair_made, s', frames, run, half 50 (by omega), every (by decide)⟩

theorem descriptors_visit_slots (packetizes : R.Packetizes) {payload : Bytes} {sessionId : U128}
    {config : SenderConfig} {fileMeta : FileMeta} {segmentMeta : Option SegmentMeta}
    {fresh s : SenderSession}
    (made : openSession R payload sessionId config fileMeta segmentMeta = .ok (.ok fresh))
    {interval : U32} (positive : 1 ≤ interval.toNat) (paced : s = fresh.setDescriptorInterval interval)
    (clock : List U64) :
    ∃ s' frames rest,
      s.run crc32 clock =
        .ok (s', frames.map .ok ++ List.replicate rest (.error .symbolIdSpaceExhausted)) ∧
      frames.length + rest = clock.length ∧ (0 < rest → Exhausted s frames) ∧
      ∀ slots start, 1 ≤ slots → interval.toNat.Coprime slots →
        start + interval.toNat * slots ≤ frames.length →
        (descriptorPlaces frames start (interval.toNat * slots)).length = slots ∧
        ((descriptorPlaces frames start (interval.toNat * slots)).map (· % slots)).Perm
          (List.range slots) ∧
        ∀ slot < slots, ∃ place f, start ≤ place ∧ place < start + interval.toNat * slots ∧
          place % slots = slot ∧ frames[place]? = some f ∧ isData f = false := by
  obtain ⟨encs, s', frames, rest, ready, run, count, emits, spent⟩ :=
    @run_emits _ crc32 packetizes _ _ _ _ _ _ _ made _ paced clock
  have beat : beatOf s = interval.toNat := by
    rw [paced, beatOf_setDescriptorInterval]
    exact max_eq_left positive
  refine ⟨s', frames, rest, run, count, fun more => (ready.spent_iff frames).mp (spent more), ?_⟩
  intro slots start some coprime inside
  have visited := beats_slots positive some coprime start
  rw [emits.descriptorPlaces_eq ready inside, beat]
  refine ⟨length_beats_period positive start slots, visited, ?_⟩
  intro slot small
  obtain ⟨place, marked, same⟩ := List.mem_map.mp (visited.mem_iff.mpr (List.mem_range.mpr small))
  obtain ⟨⟨low, high⟩, due⟩ := mem_beats.mp marked
  have found := List.getElem?_eq_getElem (lt_of_lt_of_le high inside)
  refine ⟨place, _, low, high, same, found, (emits.descriptor_iff ready found).mpr ?_⟩
  rwa [beat]

theorem descriptors_visit_slots_pair :
    ∃ fresh, openSession systematic pairPayload 7 pairConfig FileMeta.default none = .ok (.ok fresh) ∧
      ∃ s', ∃ frames : List Frame,
        (fresh.setDescriptorInterval 3).run Library.Digest.crc32 (List.replicate 13 5) =
          .ok (s', frames.map .ok) ∧
        (descriptorPlaces frames 1 (3 * 4)).length = 4 ∧
        ((descriptorPlaces frames 1 (3 * 4)).map (· % 4)).Perm (List.range 4) := by
  obtain ⟨s', frames, rest, run, count, exhausted, visits⟩ :=
    @descriptors_visit_slots systematic Library.Digest.crc32 Systematic.packetizes _ _ _ _ _ _ _ pair_made 3
      (by decide) rfl (List.replicate 13 5)
  rw [List.length_replicate] at count
  obtain rfl := pair_unspent (by omega) exhausted
  rw [List.replicate_zero, List.append_nil] at run
  obtain ⟨visited, slots, -⟩ := visits 4 1 (by decide) (by decide) count.ge
  exact ⟨_, pair_made, s', frames, run, visited, slots⟩

end AirFerry.Proof
