import AirFerry.Proof.Accounting
import AirFerry.Proof.ProgressLaws

/-!
# What a checkpoint brings back

A checkpoint names its symbols twice, as claimed ESIs and as payloads. A restored session holds the
payloads and nothing else, and a session never writes a checkpoint that `validate` refuses.
-/

namespace AirFerry.Proof
open Library Library.FirstOf QrProtocol RaptorqCore TransferEngine ReceiverSession

variable {E : Env} {R : Raptorq} {s : ReceiverSession E} {m : ObjectMeta} {log : List Symbol}

/-- The frame's symbol was counted, put in its block's set and handed to the decoder. -/
structure TakenAsNew (s s' : ReceiverSession E) (f : Frame) : Prop where
  receivedSymbols : s'.progress.receivedSymbols = s.progress.receivedSymbols + 1
  framesDuplicate : s'.progress.framesDuplicate = s.progress.framesDuplicate
  framesCorrupt : s'.progress.framesCorrupt = s.progress.framesCorrupt
  received : ∀ i, s'.received[i]? = s.received[i]?.map fun esis =>
    if i = f.header.sbn.toNat then insert f.header.esi esis else esis
  decoder : ∃ d d' result, s.decoder = some d ∧ d.addSymbol (symbolOf f) = .ok (d', result) ∧
    s'.decoder = some d'

theorem received_append (valid : m.Valid R) (log : List Symbol) (x : Symbol) (i : Nat) :
    (m.blocks.map fun b => receivedOf (log ++ [x]) b.sbn)[i]? =
      (m.blocks.map fun b => receivedOf log b.sbn)[i]?.map fun esis =>
        if i = x.id.sbn.toNat then insert x.id.esi esis else esis := by
  rw [List.getElem?_map, List.getElem?_map]
  cases found : m.blocks[i]? with
  | none => rfl
  | some b =>
      obtain rfl := (valid.sbn_toNat found).1
      simp only [Option.map_some, BitVec.toNat_inj]
      by_cases same : x.id.sbn = b.sbn
      · rw [if_pos same.symm, receivedOf_append_same same]
      · rw [if_neg (Ne.symm same), receivedOf_append_other same]

theorem Recovering.takes_new (h : Recovering s m log) (confirmed : s.metaConfirmed = true) {f : Frame}
    (own : f.header.sessionId = s.sessionId) (data : f.header.flags &&& flagDescriptor = 0)
    (accepted : Accepts E.raptorq m log (symbolOf f)) :
    ∃ s' complete, s.ingest f = .ok (s', .ok complete) ∧ TakenAsNew s s' f := by
  have start : Recovering s.seen m log := { h with }
  obtain ⟨s', complete, run, after, -, counted⟩ := ingestSymbol_accepts start accepted
  refine ⟨s', complete, ?_, {
    receivedSymbols := ?_
    framesDuplicate := counted.duplicate.trans (BitVec.add_zero _)
    framesCorrupt := counted.corrupt.trans (BitVec.add_zero _)
    received := ?_
    decoder := ⟨_, _, _, h.decoder, Decoder.addSymbol_ofLog h.valid log accepted.1, after.decoder⟩ }⟩
  · unfold ingest
    rw [if_neg (not_not.mpr own), if_neg (not_not.mpr data), if_neg (not_not.mpr confirmed)]
    exact run
  · rw [after.receivedSymbols, h.receivedSymbols]
    exact receivedCount_append h.valid accepted.1.sbn_lt accepted.2.2
  · rw [after.received, h.received]
    exact received_append h.valid log (symbolOf f)

def listedIds (symbols : List (U32 × U32 × Bytes)) : List SymbolId :=
  symbols.map fun (sbn, esi, _) => { sbn, esi }

/-- `fed` is the first listed payload of each coordinate and no other. -/
structure FirstListed (symbols : List (U32 × U32 × Bytes)) (fed : List Symbol) : Prop where
  once : (fed.map Symbol.id).Nodup
  first : ∀ x, x ∈ fed ↔ (symbols.map listed).find? (fun y => y.id = x.id) = some x
  order : fed.Sublist (symbols.map listed)

theorem firstListed_restoredLog (symbols : List (U32 × U32 × Bytes)) :
    FirstListed symbols (restoredLog symbols) where
  once := nodup_firsts _
  first := mem_firsts _
  order := firsts_sublist _

structure HoldsListed (state : ResumeState) (s : ReceiverSession E) : Prop where
  received_length : s.received.length = state.objectMeta.blocks.length
  received : ∀ b esis, s.received[b]? = some esis →
    ∀ esi, esi ∈ esis ↔ ∃ sbn data, (sbn, esi, data) ∈ state.symbols ∧ sbn.toNat = b
  decoder : ∃ fresh fed d results, Decoder.new state.objectMeta = .ok (.ok fresh) ∧
    FirstListed state.symbols fed ∧
    Run.run (fun (d : Decoder E.raptorq) x => d.addSymbol x) fresh fed = .ok (d, results) ∧
    s.decoder = some d
  receivedSymbols : s.progress.receivedSymbols = (listedIds state.symbols).toFinset.card
  welcomes : s.isComplete = false → ∀ f : Frame, f.header.sessionId = state.sessionId →
    f.header.flags &&& flagDescriptor = 0 → Fits state.objectMeta (symbolOf f) →
    (symbolOf f).id ∉ listedIds state.symbols →
    ∃ s' complete, s.ingest f = .ok (s', .ok complete) ∧ TakenAsNew s s' f

theorem mem_ids_restoredLog {symbols : List (U32 × U32 × Bytes)} {id : SymbolId} :
    id ∈ (restoredLog symbols).map Symbol.id ↔ id ∈ listedIds symbols := by
  rw [restoredLog, mem_keys_firsts, List.map_map]
  rfl

theorem length_restoredLog (symbols : List (U32 × U32 × Bytes)) :
    (restoredLog symbols).length = (listedIds symbols).toFinset.card := by
  rw [restoredLog, length_firsts, List.map_map]
  rfl

theorem Recovering.holdsListed {state : ResumeState}
    (h : Recovering s state.objectMeta (restoredLog state.symbols)) (id : s.sessionId = state.sessionId)
    (confirmed : s.metaConfirmed = true) : HoldsListed state s where
  received_length := by rw [h.received, List.length_map]
  received := by
    intro i esis here esi
    rw [h.received, List.getElem?_map] at here
    obtain ⟨b, found, rfl⟩ := Option.map_eq_some_iff.mp here
    rw [mem_receivedOf, mem_ids_restoredLog, listedIds, List.mem_map]
    constructor
    · rintro ⟨⟨sbn, esi, data⟩, stored, same⟩
      cases same
      exact ⟨b.sbn, data, stored, (h.valid.sbn_toNat found).1⟩
    · rintro ⟨sbn, data, stored, position⟩
      have same : sbn = b.sbn :=
        BitVec.eq_of_toNat_eq (position.trans (h.valid.sbn_toNat found).1.symm)
      exact ⟨(sbn, esi, data), stored, by rw [same]⟩
  decoder := by
    obtain ⟨results, run⟩ := Decoder.run_addSymbol h.valid [] h.fits
    exact ⟨_, _, _, results, Decoder.new_ok h.valid, firstListed_restoredLog _, run, h.decoder⟩
  receivedSymbols := by
    rw [h.receivedSymbols, receivedCount_length h.valid h.fits (firstListed_restoredLog _).once,
      length_restoredLog]
  welcomes := by
    intro pending f own data fits unlisted
    refine h.takes_new confirmed (own.trans id.symm) data ⟨fits, ?_, ?_⟩
    · rw [← h.isComplete]
      exact pending
    · rw [fresh_id, mem_ids_restoredLog]
      exact unlisted

theorem validateReceived_empty {α : Type} (budget : Nat) (blocks : List α) :
    ResumeState.validateReceived budget (blocks.map fun _ => ∅) 0 = .ok () := by
  induction blocks with
  | nil => rfl
  | cons b rest ih =>
      rw [List.map_cons, ResumeState.validateReceived, Finset.card_empty,
        checkedAdd_of_lt (Nat.two_pow_pos 64)]
      simp only
      rw [if_neg (by simp), Nat.add_zero]
      exact ih

theorem validate_bare (valid : m.Valid R) (sessionId : U128) :
    (ResumeState.mk sessionId m (m.blocks.map fun _ => ∅) []).validate R = .ok () := by
  have padding := ObjectMeta.padding_le valid.symbolSize.upper valid.blocks_le
  have records : checkedMul maxTotalSourceSymbols 2 = some (maxTotalSourceSymbols * 2) :=
    checkedMul_of_lt (by decide)
  have bytes : checkedMul maxObjectBytes 2 = some (maxObjectBytes * 2) :=
    checkedMul_of_lt (by decide)
  unfold ResumeState.validate
  simp only [ObjectMeta.validate_ok_iff.mpr valid, bind, Except.bind, List.length_map, lt_irrefl,
    if_false, records, bytes, validateReceived_empty, List.length_nil, Nat.not_lt_zero, Option.bind_some]
  rw [checkedMul_of_lt (by omega)]
  simp only
  rw [checkedAdd_of_lt (by simp only [maxObjectBytes]; omega)]
  rfl

theorem drain_empty (E : Env) : E.drain (∅ : Cache).entries = [] :=
  (E.drain_perm _).eq_nil

theorem Matches.saved_valid {sessionId : U128} {stage : Stage} (h : Matches sessionId s stage)
    {state : ResumeState} (saved : s.saveState = some state) : state.validate E.raptorq = .ok () := by
  cases stage with
  | waiting cache =>
      rw [saveState, h.2.objectMeta] at saved
      cases saved
  | recovering m described log =>
      have r := h.2.2.2
      rw [saveState, r.objectMeta, r.symbolCache, drain_empty] at saved
      cases saved
      exact validate_bare r.valid s.sessionId

theorem checkpoint_honest (E : Env) :
    (∀ state : ResumeState, state.validate E.raptorq = .ok () →
      ∃ s : ReceiverSession E, restore state = .ok (.ok s) ∧ HoldsListed state s) ∧
    ∀ (origin : Origin) (frames : List (WireFrame E.crc32)) (s : ReceiverSession E)
      (outs : List (Except TransferEngine.Error Bool)) (state : ResumeState),
      origin.reach E frames = .ok (.ok (s, outs)) → s.saveState = some state →
      state.validate E.raptorq = .ok () := by
  constructor
  · intro state checked
    obtain ⟨s, restored, id, confirmed, -, recovering⟩ := restore_recovers (E := E) checked
    exact ⟨s, restored, recovering.holdsListed id confirmed⟩
  · intro origin frames s outs state reached saved
    rcases reach_stage E origin with ⟨e, failed⟩ | ⟨start, run⟩
    · rw [failed frames] at reached
      cases reached
    · obtain ⟨s', outs', reached', matched⟩ := run frames
      rw [reached'] at reached
      cases reached
      exact matched.saved_valid saved

end AirFerry.Proof
