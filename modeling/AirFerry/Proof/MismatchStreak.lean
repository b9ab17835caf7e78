import AirFerry.Proof.Origins
import AirFerry.Proof.StatusWord

/-!
# The mismatch streak in the status word

The session counts frames of other sessions in 32 bits and the word carries the low 16 of them. The
reported streak follows the real one up to 65535 frames and starts again from 0 after that.
-/

namespace AirFerry.Proof
open Library QrProtocol RaptorqCore TransferEngine ReceiverSession

variable {E : Env} {s s' : ReceiverSession E}

structure SameStreak (s s' : ReceiverSession E) : Prop where
  counted : s'.sessionMismatchStreak = s.sessionMismatchStreak
  shown : s'.progress.sessionMismatchStreak = s.progress.sessionMismatchStreak

theorem SameStreak.rfl : SameStreak s s := ⟨Eq.refl _, Eq.refl _⟩

theorem SameStreak.trans {s'' : ReceiverSession E} (first : SameStreak s s') (later : SameStreak s' s'') :
    SameStreak s s'' :=
  ⟨later.counted.trans first.counted, later.shown.trans first.shown⟩

theorem insertReceived_streak {sbn : Nat} {esi : U32} {fresh : Bool}
    (h : s.insertReceived sbn esi = .ok (s', fresh)) : SameStreak s s' := by
  unfold insertReceived at h
  obtain ⟨block, -, h⟩ := Exec.bind_ok h
  cases h
  exact ⟨rfl, rfl⟩

theorem countSource_streak {m : ObjectMeta} {sbn : Nat} {esi : U32}
    (h : s.countSource m sbn esi = .ok s') : SameStreak s s' := by
  unfold countSource at h
  obtain ⟨block, -, h⟩ := Exec.bind_ok h
  split at h
  · obtain ⟨seen, -, h⟩ := Exec.bind_ok h
    obtain ⟨count, -, h⟩ := Exec.bind_ok h
    cases h
    exact ⟨rfl, rfl⟩
  · cases h
    exact .rfl

theorem feedDecoder_streak {x : Symbol} {result : Except RaptorqCore.Error Unit}
    (h : s.feedDecoder x = .ok (s', result)) : SameStreak s s' := by
  unfold feedDecoder at h
  split at h
  · cases h
    exact .rfl
  · obtain ⟨⟨decoder, added⟩, -, h⟩ := Exec.bind_ok h
    cases h
    exact ⟨rfl, rfl⟩

theorem refreshDecodedCounts_streak (h : s.refreshDecodedCounts = .ok s') : SameStreak s s' := by
  unfold refreshDecodedCounts at h
  split at h
  · obtain ⟨⟨decodedSymbols, decodedBlocks⟩, -, h⟩ := Exec.bind_ok h
    cases h
    exact ⟨rfl, rfl⟩
  · cases h
    exact .rfl

theorem replay_streak {m : ObjectMeta} {entries : List ((_ : U32 × U32) × Bytes)}
    {result : Except TransferEngine.Error Unit} (h : replay m s entries = .ok (s', result)) :
    SameStreak s s' := by
  induction entries generalizing s with
  | nil =>
      cases h
      exact .rfl
  | cons entry rest ih =>
      obtain ⟨⟨sbn, esi⟩, data⟩ := entry
      rw [replay] at h
      simp only at h
      split at h
      · have later := ih h
        exact ⟨later.counted, later.shown⟩
      obtain ⟨⟨fed, outcome⟩, first, h⟩ := Exec.bind_ok h
      have fedSame := feedDecoder_streak first
      cases outcome with
      | error e =>
          cases h
          exact fedSame
      | ok done =>
          obtain ⟨⟨inserted, fresh⟩, second, h⟩ := Exec.bind_ok h
          have insertedSame := fedSame.trans (insertReceived_streak second)
          simp only at h
          split at h
          · obtain ⟨counted, third, h⟩ := Exec.bind_ok h
            exact (insertedSame.trans (countSource_streak third)).trans (ih h)
          · exact insertedSame.trans (ih h)

theorem applyMeta_streak {m : ObjectMeta} {result : Except TransferEngine.Error Unit}
    (h : s.applyMeta m = .ok (s', result)) : SameStreak s s' := by
  unfold applyMeta at h
  obtain ⟨made, -, h⟩ := Exec.bind_ok h
  cases made with
  | error e =>
      cases h
      exact .rfl
  | ok decoder =>
      obtain ⟨totalSymbols, -, h⟩ := Exec.bind_ok h
      obtain ⟨⟨played, outcome⟩, replayed, h⟩ := Exec.bind_ok h
      have reset := replay_streak replayed
      have playedSame : SameStreak s played := ⟨reset.counted, reset.shown⟩
      cases outcome with
      | error e =>
          cases h
          exact playedSame
      | ok done =>
          obtain ⟨receivedSymbols, -, h⟩ := Exec.bind_ok h
          obtain ⟨refreshed, refresh, h⟩ := Exec.bind_ok h
          cases h
          have refreshSame := refreshDecodedCounts_streak refresh
          exact playedSame.trans ⟨refreshSame.counted, refreshSame.shown⟩

theorem ingestDescriptor_streak {f : Frame} {result : Except TransferEngine.Error Bool}
    (h : s.ingestDescriptor f = .ok (s', result)) : SameStreak s s' := by
  unfold ingestDescriptor at h
  obtain ⟨parsed, -, h⟩ := Exec.bind_ok h
  cases parsed with
  | none =>
      cases h
      exact ⟨rfl, rfl⟩
  | some info =>
      simp only at h
      split at h
      · cases h
        exact ⟨rfl, rfl⟩
      split at h
      · split at h
        · cases h
          exact ⟨rfl, rfl⟩
        · cases h
          exact .rfl
      split at h
      · obtain ⟨⟨applied, outcome⟩, step, h⟩ := Exec.bind_ok h
        have appliedSame := applyMeta_streak step
        cases outcome with
        | error e =>
            cases h
            exact appliedSame
        | ok done =>
            cases h
            exact ⟨appliedSame.counted, appliedSame.shown⟩
      · split at h
        · cases h
          exact ⟨rfl, rfl⟩
        · cases h
          exact ⟨rfl, rfl⟩

theorem feed_refresh_streak {x : Symbol} {result : Except TransferEngine.Error Bool}
    (h : (do
      match ← s.feedDecoder x with
      | (s, .error e) => return (s, .error (.raptorq e))
      | (s, .ok ()) =>
          let s ← s.refreshDecodedCounts
          return (s, .ok s.isComplete)) = (.ok (s', result) : Exec _)) : SameStreak s s' := by
  obtain ⟨⟨fed, outcome⟩, feed, h⟩ := Exec.bind_ok h
  have fedSame := feedDecoder_streak feed
  cases outcome with
  | error e =>
      cases h
      exact fedSame
  | ok done =>
      obtain ⟨refreshed, refresh, h⟩ := Exec.bind_ok h
      cases h
      exact fedSame.trans (refreshDecodedCounts_streak refresh)

theorem acceptSymbol_streak {f : Frame} {result : Except TransferEngine.Error Bool}
    (h : s.acceptSymbol f = .ok (s', result)) : SameStreak s s' := by
  unfold acceptSymbol at h
  obtain ⟨receivedSymbols, -, h⟩ := Exec.bind_ok h
  simp only at h
  split at h
  · obtain ⟨counted, source, h⟩ := Exec.bind_ok h
    have step := countSource_streak source
    have later := feed_refresh_streak h
    exact ⟨later.counted.trans step.counted, later.shown.trans step.shown⟩
  · obtain ⟨counted, source, h⟩ := Exec.bind_ok h
    cases source
    have later := feed_refresh_streak h
    exact ⟨later.counted, later.shown⟩

theorem ingestSymbol_streak {f : Frame} {result : Except TransferEngine.Error Bool}
    (h : s.ingestSymbol f = .ok (s', result)) : SameStreak s s' := by
  unfold ingestSymbol at h
  simp only at h
  by_cases beyond : s.received.length ≤ f.header.sbn.toNat
  · rw [if_pos beyond] at h
    cases h
    exact ⟨rfl, rfl⟩
  rw [if_neg beyond] at h
  by_cases malformed : 2 ^ 24 ≤ f.header.esi.toNat ∨ asU32 f.payload.length ≠
      (s.objectMeta.map fun m => m.symbolSize.toNat).getD 0
  · rw [if_pos malformed] at h
    cases h
    exact ⟨rfl, rfl⟩
  rw [if_neg malformed] at h
  by_cases complete : s.isComplete = true
  · rw [if_pos complete] at h
    cases h
    exact ⟨rfl, rfl⟩
  rw [if_neg complete] at h
  obtain ⟨⟨inserted, fresh⟩, insertion, h⟩ := Exec.bind_ok h
  have insertedSame := insertReceived_streak insertion
  cases fresh with
  | false =>
      cases h
      exact ⟨insertedSame.counted, insertedSame.shown⟩
  | true => exact insertedSame.trans (acceptSymbol_streak h)

theorem bufferSymbol_streak (s : ReceiverSession E) (f : Frame) : SameStreak s (s.bufferSymbol f) := by
  unfold bufferSymbol cacheSymbol
  simp only
  split_ifs
  · exact ⟨rfl, rfl⟩
  · exact ⟨rfl, rfl⟩
  · exact ⟨rfl, rfl⟩

def Calm (s : ReceiverSession E) : Prop :=
  s.sessionMismatchStreak = 0 ∧ s.progress.sessionMismatchStreak = 0

theorem SameStreak.calm (same : SameStreak s s') (calm : Calm s) : Calm s' :=
  ⟨same.counted.trans calm.1, same.shown.trans calm.2⟩

theorem calm_of_own {f : Frame} {result : Except TransferEngine.Error Bool}
    (own : f.header.sessionId = s.sessionId) (h : s.ingest f = .ok (s', result)) : Calm s' := by
  have seen : Calm s.seen := ⟨rfl, rfl⟩
  unfold ingest at h
  rw [if_neg (not_not.mpr own)] at h
  split at h
  · exact (ingestDescriptor_streak h).calm seen
  split at h
  · cases h
    exact (bufferSymbol_streak s.seen f).calm seen
  · exact (ingestSymbol_streak h).calm seen

theorem build_calm {sessionId : U128} {m : Option ObjectMeta} {decoder : Option (Decoder E.raptorq)}
    {confirmed : Bool} (h : build sessionId m decoder confirmed = .ok s) : Calm s := by
  unfold build at h
  obtain ⟨totalSymbols, -, h⟩ := Exec.bind_ok h
  cases h
  exact ⟨rfl, rfl⟩

theorem newConfirmed_calm {sessionId : U128} {m : ObjectMeta}
    (h : newConfirmed sessionId m = .ok (.ok s)) : Calm s := by
  unfold newConfirmed at h
  obtain ⟨made, -, h⟩ := Exec.bind_ok h
  cases made with
  | error e => cases h
  | ok decoder =>
      obtain ⟨built, build, h⟩ := Exec.bind_ok h
      cases h
      exact build_calm build

theorem restoreSymbols_streak {symbols : List (U32 × U32 × Bytes)}
    (h : s.restoreSymbols symbols = .ok s') : SameStreak s s' := by
  induction symbols generalizing s with
  | nil =>
      cases h
      exact .rfl
  | cons entry rest ih =>
      obtain ⟨sbn, esi, data⟩ := entry
      rw [restoreSymbols] at h
      simp only at h
      split at h
      · obtain ⟨⟨inserted, fresh⟩, insertion, h⟩ := Exec.bind_ok h
        have insertedSame := insertReceived_streak insertion
        cases fresh with
        | false => exact insertedSame.trans (ih h)
        | true =>
            simp only at h
            split at h
            · obtain ⟨counted, source, h⟩ := Exec.bind_ok h
              obtain ⟨⟨fed, outcome⟩, feed, h⟩ := Exec.bind_ok h
              have sourceSame := insertedSame.trans (countSource_streak source)
              exact (sourceSame.trans (feedDecoder_streak feed)).trans (ih h)
            · obtain ⟨counted, source, h⟩ := Exec.bind_ok h
              cases source
              obtain ⟨⟨fed, outcome⟩, feed, h⟩ := Exec.bind_ok h
              exact (insertedSame.trans (feedDecoder_streak feed)).trans (ih h)
      · exact ih h

theorem restore_calm {state : ResumeState} (h : restore state = .ok (.ok s)) : Calm s := by
  unfold restore at h
  split at h
  · cases h
  obtain ⟨made, confirmed, h⟩ := Exec.bind_ok h
  cases made with
  | error e => cases h
  | ok start =>
      obtain ⟨restored, symbols, h⟩ := Exec.bind_ok h
      obtain ⟨receivedSymbols, -, h⟩ := Exec.bind_ok h
      obtain ⟨refreshed, refresh, h⟩ := Exec.bind_ok h
      cases h
      have calm := (restoreSymbols_streak symbols).calm (newConfirmed_calm confirmed)
      have same := refreshDecodedCounts_streak refresh
      exact ⟨same.counted.trans calm.1, same.shown.trans calm.2⟩

def strayed (s : ReceiverSession E) (n : Nat) : ReceiverSession E :=
  { s with
    sessionMismatchStreak := BitVec.ofNat 32 n
    progress := { s.progress with sessionMismatchStreak := BitVec.ofNat 32 n } }

theorem strayed_zero (calm : Calm s) : strayed s 0 = s := by
  have whole : s = { s with
      sessionMismatchStreak := s.sessionMismatchStreak
      progress := { s.progress with sessionMismatchStreak := s.progress.sessionMismatchStreak } } := rfl
  rw [calm.1, calm.2] at whole
  exact whole.symm

def strayStatus (s : ReceiverSession E) (k : Nat) : U64 :=
  IngestStatus.pack s.isComplete false (BitVec.ofNat 32 k) s.progress.receivedSymbols

def Foreign (s : ReceiverSession E) (bytes : Bytes) : Prop :=
  ∃ f, Frame.fromBytes E.crc32 bytes = .ok (.ok f) ∧ f.header.sessionId ≠ s.sessionId

theorem ingest_strayed {bytes : Bytes} (foreign : Foreign s bytes) (n : Nat) :
    airferryReceiverIngest (strayed s n) bytes = .ok (strayed s (n + 1), strayStatus s (n + 1)) := by
  obtain ⟨f, read, other⟩ := foreign
  have ingested : (strayed s n).ingest f = .ok (strayed s (n + 1),
      .error (.sessionMismatch s.sessionId f.header.sessionId)) := by
    unfold ingest
    rw [if_pos (by exact other)]
    simp only [mismatch, strayed, BitVec.ofNat_add]
    rfl
  rw [airferryReceiverIngest_read read ingested, strayStatus]
  have same : decide ((strayed s n).getProgress.receivedSymbols <
      (strayed s (n + 1)).getProgress.receivedSymbols) = false := decide_eq_false (lt_irrefl _)
  rw [same]
  rfl

theorem run_strayed (foreign : List Bytes) (every : ∀ bytes ∈ foreign, Foreign s bytes) (n : Nat) :
    Run.run airferryReceiverIngest (strayed s n) foreign = .ok (strayed s (n + foreign.length),
      (List.range' (n + 1) foreign.length).map (strayStatus s)) := by
  induction foreign generalizing n with
  | nil => rfl
  | cons bytes rest ih =>
      have head := ingest_strayed (every bytes (List.mem_cons_self ..)) n
      have tail := ih (fun other member => every other (List.mem_cons_of_mem bytes member)) (n + 1)
      have place : n + (rest.length + 1) = n + 1 + rest.length := by omega
      rw [Run.run_cons head tail, List.length_cons, List.range'_succ, List.map_cons, place]

theorem shownStreak_stray (s : ReceiverSession E) (k : Nat) :
    shownStreak (strayStatus s k) = k % 2 ^ 16 := by
  rw [strayStatus, shownStreak_pack, BitVec.toNat_ofNat]
  exact Nat.mod_mod_of_dvd k ⟨2 ^ 16, rfl⟩

structure Unpacks (s : ReceiverSession E) (accepted : Bool) (status : U64) : Prop where
  complete : shownComplete status = s.isComplete
  accepted : shownAccepted status = accepted
  received : shownReceived status = BitVec.ofNat 32 s.progress.receivedSymbols

theorem unpacks_stray (s : ReceiverSession E) (k : Nat) : Unpacks s false (strayStatus s k) :=
  ⟨IngestStatus.pack_complete .., IngestStatus.pack_accepted .., IngestStatus.pack_received ..⟩

/-- What a clamped streak would show after `k` foreign frames. -/
structure Saturates (s : ReceiverSession E) (k : Nat) (statuses : List U64) : Prop where
  last : ∀ status ∈ statuses.getLast?, shownStreak status = min k 65535
  unpacks : ∀ status ∈ statuses, Unpacks s false status
  steady : (statuses.map shownStreak).Pairwise (· ≤ ·)

theorem streaks_stray (s : ReceiverSession E) (k : Nat) :
    ((List.range' 1 k).map (strayStatus s)).map shownStreak = (List.range' 1 k).map (· % 2 ^ 16) := by
  rw [List.map_map]
  exact List.map_congr_left fun n _ => shownStreak_stray s n

theorem steady_iff (k : Nat) :
    ((List.range' 1 k).map (· % 2 ^ 16)).Pairwise (· ≤ ·) ↔ k ≤ 65535 := by
  rw [List.pairwise_map]
  constructor
  · intro steady
    by_contra long
    have before : 65534 < (List.range' 1 k).length := by rw [List.length_range']; omega
    have after : 65535 < (List.range' 1 k).length := by rw [List.length_range']; omega
    have fall := List.pairwise_iff_getElem.mp steady 65534 65535 before after (Nat.lt_succ_self _)
    rw [List.getElem_range', List.getElem_range'] at fall
    exact absurd fall (by decide)
  · intro short
    refine List.Pairwise.imp_of_mem ?_ List.pairwise_lt_range'
    intro first second early late order
    have small := (List.mem_range'_1.mp early).2
    have small' := (List.mem_range'_1.mp late).2
    rw [Nat.mod_eq_of_lt (by omega), Nat.mod_eq_of_lt (by omega)]
    exact order.le

theorem last_stray_iff (s : ReceiverSession E) (k : Nat) :
    (∀ status ∈ ((List.range' 1 k).map (strayStatus s)).getLast?, shownStreak status = min k 65535) ↔
      k ≤ 65535 ∨ k % 2 ^ 16 = 65535 := by
  cases k with
  | zero => exact iff_of_true (fun status member => by cases member) (Or.inl (Nat.zero_le _))
  | succ k =>
      rw [List.getLast?_map, List.getLast?_range', if_neg (Nat.succ_ne_zero k), Option.map_some]
      simp only [Option.mem_some_iff, forall_eq', shownStreak_stray]
      omega

/-- A session as it is created, or as a frame of its own leaves it. -/
inductive Attuned : ReceiverSession E → Prop
  | created {origin : Origin} {s : ReceiverSession E} (made : origin.start E = .ok (.ok s)) : Attuned s
  | heard {before s : ReceiverSession E} {f : Frame} {result : Except TransferEngine.Error Bool}
      (own : f.header.sessionId = before.sessionId) (ingested : before.ingest f = .ok (s, result)) :
      Attuned s

theorem Attuned.calm (attuned : Attuned s) : Calm s := by
  cases attuned with
  | created made =>
      rename_i origin
      cases origin with
      | pending sessionId =>
          obtain ⟨built, build, made⟩ := Exec.bind_ok made
          cases made
          exact build_calm build
      | confirmed sessionId m => exact newConfirmed_calm made
      | restored state => exact restore_calm made
  | heard own ingested => exact calm_of_own own ingested

theorem streak_saturates_iff (attuned : Attuned s) (foreign : List Bytes)
    (every : ∀ bytes ∈ foreign, Foreign s bytes) :
    ∃ statuses, Run.run airferryReceiverIngest s foreign =
        .ok (strayed s foreign.length, statuses) ∧
      statuses.length = foreign.length ∧
      (∀ status ∈ statuses, Unpacks s false status) ∧
      ((∀ status ∈ statuses.getLast?, shownStreak status = min foreign.length 65535) ↔
        foreign.length ≤ 65535 ∨ foreign.length % 2 ^ 16 = 65535) ∧
      (Saturates s foreign.length statuses ↔ foreign.length ≤ 65535) := by
  have run := run_strayed foreign every 0
  rw [strayed_zero attuned.calm, Nat.zero_add, Nat.zero_add] at run
  have unpacks : ∀ status ∈ (List.range' 1 foreign.length).map (strayStatus s),
      Unpacks s false status := by
    intro status member
    obtain ⟨k, -, rfl⟩ := List.mem_map.mp member
    exact unpacks_stray s k
  have last := last_stray_iff s foreign.length
  have steady := steady_iff foreign.length
  rw [← streaks_stray s] at steady
  refine ⟨_, run, Run.length_of_run run, unpacks, last, ?_⟩
  constructor
  · exact fun saturates => steady.mp saturates.steady
  · exact fun short => ⟨last.mpr (Or.inl short), unpacks, steady.mpr short⟩

def strangers (n : Nat) : List Bytes :=
  List.replicate n (zeroFrame reference 4 0 8 0).1.toBytes

theorem foreign_strangers {s : ReceiverSession reference} (session : s.sessionId = 3) (n : Nat) :
    ∀ bytes ∈ strangers n, Foreign s bytes := by
  intro bytes member
  obtain rfl := List.eq_of_mem_replicate member
  refine ⟨_, Frame.fromBytes_toBytes (zeroFrame reference 4 0 8 0).wireValid, ?_⟩
  rw [session]
  show (4 : U128) ≠ 3
  decide

theorem pending_attuned (sessionId : U128) : ∃ s : ReceiverSession E,
    newPending sessionId = .ok s ∧ s.sessionId = sessionId ∧ Attuned s :=
  ⟨_, rfl, rfl, @Attuned.created E (.pending sessionId) _ rfl⟩

theorem streak_saturates_two : ∃ s : ReceiverSession reference, newPending 3 = .ok s ∧
    ∃ statuses, Run.run airferryReceiverIngest s (strangers 2) = .ok (strayed s 2, statuses) ∧
      Saturates s 2 statuses := by
  obtain ⟨s, new, session, attuned⟩ := @pending_attuned reference 3
  obtain ⟨statuses, run, -, -, -, saturates⟩ :=
    streak_saturates_iff attuned (strangers 2) (foreign_strangers session 2)
  exact ⟨s, new, statuses, run, saturates.mpr (by decide)⟩

/-- One frame past the 16 bits, the host reads that there was no foreign frame at all. -/
theorem streak_wraps_to_zero : ∃ s : ReceiverSession reference, newPending 3 = .ok s ∧
    (∀ bytes ∈ strangers 65536, Foreign s bytes) ∧
    ∃ s' statuses, Run.run airferryReceiverIngest s (strangers 65536) = .ok (s', statuses) ∧
      ∃ status ∈ statuses.getLast?, shownStreak status = 0 ∧
        shownStreak status ≠ min (strangers 65536).length 65535 := by
  obtain ⟨s, new, session, attuned⟩ := @pending_attuned reference 3
  have every := foreign_strangers session 65536
  have run := run_strayed (strangers 65536) every 0
  have length : (strangers 65536).length = 65536 := List.length_replicate
  rw [strayed_zero attuned.calm, length] at run
  refine ⟨s, new, every, _, _, run, strayStatus s 65536, ?_, ?_, ?_⟩
  · rw [List.getLast?_map, List.getLast?_range', if_neg (by decide), Option.map_some]
    rfl
  · rw [shownStreak_stray]
    rfl
  · rw [shownStreak_stray, length]
    decide

end AirFerry.Proof
