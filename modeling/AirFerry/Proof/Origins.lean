import AirFerry.Library.FirstOf
import AirFerry.Proof.Stage
import AirFerry.TransferEngine.Resume

namespace AirFerry.Proof
open Library Library.FirstOf QrProtocol RaptorqCore TransferEngine ReceiverSession

variable {E : Env}

inductive Origin
  | pending (sessionId : U128)
  | confirmed (sessionId : U128) (objectMeta : ObjectMeta)
  | restored (state : ResumeState)

def Origin.sessionId : Origin → U128
  | .pending sessionId => sessionId
  | .confirmed sessionId _ => sessionId
  | .restored state => state.sessionId

def Origin.start (E : Env) : Origin → Exec (Except TransferEngine.Error (ReceiverSession E))
  | .pending sessionId => do return .ok (← newPending sessionId)
  | .confirmed sessionId objectMeta => newConfirmed sessionId objectMeta
  | .restored state => restore state

def Origin.reach (E : Env) (origin : Origin) (frames : List (WireFrame E.crc32)) :
    Exec (Except TransferEngine.Error
      (ReceiverSession E × List (Except TransferEngine.Error Bool))) := do
  match ← origin.start E with
  | .error e => return .error e
  | .ok s => return .ok (← Run.run (fun s frame => s.ingest frame.1) s frames)

theorem newConfirmed_recovers (sessionId : U128) {m : ObjectMeta} (valid : m.Valid E.raptorq) :
    ∃ s, newConfirmed (E := E) sessionId m = .ok (.ok s) ∧
      Matches sessionId s (.recovering m none []) := by
  rw [newConfirmed, Decoder.new_ok valid]
  simp only [build, bind, Except.bind, pure, Except.pure, Option.map_some, Option.getD_some,
    sumU32_symbols valid, asU32_blocks valid]
  have empty : ∀ b ∈ m.blocks, blockSymbols E.raptorq m [] b = 0 := by
    intro b _
    simp [blockSymbols, reconstructed, Decoder.blockOf, sourceCount]
  have noSymbols : decodedCount E.raptorq m [] = 0 := by
    rw [decodedCount, List.map_congr_left empty, List.map_const', List.sum_replicate]
    rfl
  have noBlocks : (Decoder.ofLog E.raptorq m []).decodedBlockCount = 0 := by
    rw [Decoder.decodedBlockCount_ofLog]
    exact List.countP_eq_zero.mpr fun b _ => by simp [Decoder.blockOf]
  have noReceived : receivedCount m [] = 0 := by
    simp [receivedCount]
  exact ⟨_, rfl, rfl, rfl, ⟨rfl, rfl, rfl⟩, {
    decoder := rfl
    received := by simp
    sourceRecv := List.map_congr_left fun b _ => by simp [sourceCount]
    valid := valid
    fits := by simp
    objectMeta := rfl
    symbolCache := rfl
    pendingSymbolSize := rfl
    totalSymbols := rfl
    totalBlocks := rfl
    receivedSymbols := noReceived.symm
    decodedSymbols := noSymbols.symm
    decodedBlocks := noBlocks.symm }⟩

theorem newConfirmed_stage (E : Env) (sessionId : U128) (m : ObjectMeta) :
    (∃ e, newConfirmed (E := E) sessionId m = .ok (.error e)) ∨
      ∃ s, newConfirmed (E := E) sessionId m = .ok (.ok s) ∧
        Matches sessionId s (.recovering m none []) := by
  cases checked : m.validate E.raptorq with
  | error reason =>
      refine Or.inl ⟨.raptorq (.invalidObjectMeta reason), ?_⟩
      rw [newConfirmed, Decoder.new, checked]
      rfl
  | ok _ =>
      obtain ⟨s, opened, stage⟩ :=
        newConfirmed_recovers sessionId (ObjectMeta.validate_ok_iff.mp checked)
      exact Or.inr ⟨s, opened, stage⟩

def listed (entry : U32 × U32 × Bytes) : Symbol := Symbol.new entry.1 entry.2.1 entry.2.2

def restoredLog (symbols : List (U32 × U32 × Bytes)) : List Symbol :=
  firsts Symbol.id (symbols.map listed)

theorem validateSymbols_fits {m : ObjectMeta} {budget : Nat} (symbols : List (U32 × U32 × Bytes))
    (bytes : Nat) (h : ResumeState.validateSymbols m budget symbols bytes = .ok ()) :
    ∀ entry ∈ symbols, Fits m (listed entry) := by
  induction symbols generalizing bytes with
  | nil => simp
  | cons entry rest ih =>
      obtain ⟨sbn, esi, data⟩ := entry
      rw [ResumeState.validateSymbols] at h
      obtain ⟨inside, h⟩ := guard_ok h
      obtain ⟨sized, h⟩ := guard_ok h
      split at h
      · cases h
      obtain ⟨-, h⟩ := guard_ok h
      intro other member
      rcases List.mem_cons.mp member with rfl | member
      · rw [not_or, not_le, not_le] at inside
        exact ⟨inside.1, inside.2, not_not.mp sized⟩
      · exact ih _ h other member

theorem restoreEntry_tracks {s : ReceiverSession E} {m : ObjectMeta} {log : List Symbol}
    (valid : m.Valid E.raptorq) (h : Tracks s m log) (objectMeta : s.objectMeta = some m)
    (size : s.pendingSymbolSize = m.symbolSize) {x : Symbol} (fit : Fits m x)
    (rest : List (U32 × U32 × Bytes)) :
    ∃ s', s.restoreSymbols ((x.id.sbn, x.id.esi, x.data) :: rest) = s'.restoreSymbols rest ∧
      Tracks s' m (remember Symbol.id log x) ∧ SameObject s s' := by
  have short : asU32 x.data.length = s.pendingSymbolSize.toNat := by
    rw [size, ← fit.size]
    exact asU32_of_lt (by rw [fit.size]; exact m.symbolSize.isLt)
  have inRange : x.id.sbn.toNat < s.received.length ∧ x.id.esi.toNat < 2 ^ 24 ∧
      asU32 x.data.length = s.pendingSymbolSize.toNat := by
    refine ⟨?_, fit.esi_lt, short⟩
    rw [h.received, List.length_map]
    exact fit.sbn_lt
  rw [restoreSymbols]
  simp only [bind, Except.bind, pure, Except.pure]
  rw [if_pos inRange, insertReceived_tracks valid log fit h.received]
  by_cases old : x.id.esi ∈ receivedOf log x.id.sbn
  · have unchanged : (m.blocks.map fun b => receivedOf (log ++ [x]) b.sbn) = s.received := by
      rw [h.received]
      exact List.map_congr_left fun b _ => receivedOf_append_old old b.sbn
    rw [remember_old (mem_receivedOf.mp old)]
    simp only [old, not_true_eq_false, decide_false, unchanged]
    exact ⟨s, rfl, h, ⟨⟨rfl, rfl, rfl, rfl, rfl⟩, rfl, rfl, rfl, rfl, rfl⟩⟩
  · rw [remember_new fun earlier => old (mem_receivedOf.mpr earlier)]
    simp only [old, not_false_eq_true, decide_true, objectMeta]
    rw [countSource_tracks valid fit old]
    · simp only
      rw [show Symbol.new x.id.sbn x.id.esi x.data = x from rfl, feedDecoder_tracks valid log fit]
      · exact ⟨_, rfl, ⟨rfl, rfl, rfl⟩,
          ⟨⟨rfl, rfl, rfl, rfl, rfl⟩, objectMeta.symm, rfl, rfl, rfl, rfl⟩⟩
      · exact h.decoder
    · exact h.sourceRecv

theorem restoreSymbols_tracks {m : ObjectMeta} (valid : m.Valid E.raptorq)
    (symbols : List (U32 × U32 × Bytes)) (fits : ∀ entry ∈ symbols, Fits m (listed entry))
    (s : ReceiverSession E) (log : List Symbol) (h : Tracks s m log)
    (objectMeta : s.objectMeta = some m) (size : s.pendingSymbolSize = m.symbolSize) :
    ∃ s', s.restoreSymbols symbols = .ok s' ∧
      Tracks s' m ((symbols.map listed).foldl (remember Symbol.id) log) ∧ SameObject s s' := by
  induction symbols generalizing s log with
  | nil => exact ⟨s, rfl, h, ⟨⟨rfl, rfl, rfl, rfl, rfl⟩, rfl, rfl, rfl, rfl, rfl⟩⟩
  | cons entry rest ih =>
      obtain ⟨s₁, first, tracked, same⟩ :=
        restoreEntry_tracks valid h objectMeta size (fits entry (by simp)) rest
      obtain ⟨s₂, restored, final, same'⟩ := ih (fun other member => fits other (by simp [member]))
        s₁ _ tracked (same.objectMeta.trans objectMeta) (same.pendingSymbolSize.trans size)
      exact ⟨s₂, first.trans restored, final, same.trans same'⟩

theorem validate_inv {R : Raptorq} {state : ResumeState} (h : state.validate R = .ok ()) :
    state.objectMeta.Valid R ∧ ∀ entry ∈ state.symbols, Fits state.objectMeta (listed entry) := by
  unfold ResumeState.validate at h
  simp only [bind, Except.bind, throw, throwThe, MonadExceptOf.throw] at h
  split at h
  · cases h
  rename_i checked
  split at h
  · cases h
  split at h
  · split at h
    · cases h
    split at h
    · cases h
    split at h
    · split at h
      · exact ⟨ObjectMeta.validate_ok_iff.mp checked, validateSymbols_fits _ _ h⟩
      · cases h
    · cases h
  · cases h

theorem fits_restoredLog {m : ObjectMeta} {symbols : List (U32 × U32 × Bytes)}
    (fits : ∀ entry ∈ symbols, Fits m (listed entry)) : ∀ x ∈ restoredLog symbols, Fits m x := by
  intro x member
  obtain ⟨entry, stored, rfl⟩ := List.mem_map.mp ((firsts_sublist _).subset member)
  exact fits entry stored

theorem restore_recovers {state : ResumeState} (checked : state.validate E.raptorq = .ok ()) :
    ∃ s, restore (E := E) state = .ok (.ok s) ∧
      Matches state.sessionId s (.recovering state.objectMeta none (restoredLog state.symbols)) := by
  obtain ⟨valid, stored⟩ := validate_inv checked
  have fits := fits_restoredLog stored
  obtain ⟨s, opened, id, confirmed, described, recovering⟩ :=
    newConfirmed_recovers state.sessionId valid
  obtain ⟨s', restored, tracked, same⟩ := restoreSymbols_tracks valid state.symbols stored s []
    recovering.toTracks recovering.objectMeta recovering.pendingSymbolSize
  have total := sumU32_cards valid fits
  have received : s'.received = state.objectMeta.blocks.map fun b =>
      receivedOf (restoredLog state.symbols) b.sbn := tracked.received
  rw [← received] at total
  unfold restore
  simp only [checked, opened, restored, bind, Except.bind, pure, Except.pure, total]
  rw [refreshDecodedCounts_tracks valid (restoredLog state.symbols)]
  rotate_left
  · exact ⟨tracked.decoder, tracked.received, tracked.sourceRecv⟩
  · exact same.objectMeta.trans recovering.objectMeta
  exact ⟨_, rfl, same.sessionId.trans id, same.metaConfirmed.trans confirmed,
    described.of_same same.toSameIdentity, {
      decoder := tracked.decoder
      received := tracked.received
      sourceRecv := tracked.sourceRecv
      valid := valid
      fits := fits
      objectMeta := same.objectMeta.trans recovering.objectMeta
      symbolCache := same.symbolCache.trans recovering.symbolCache
      pendingSymbolSize := same.pendingSymbolSize.trans recovering.pendingSymbolSize
      totalSymbols := same.totalSymbols.trans recovering.totalSymbols
      totalBlocks := same.totalBlocks.trans recovering.totalBlocks
      receivedSymbols := rfl
      decodedSymbols := rfl
      decodedBlocks := rfl }⟩

theorem restore_stage (E : Env) (state : ResumeState) :
    (∃ e, restore (E := E) state = .ok (.error e)) ∨
      ∃ s log, restore (E := E) state = .ok (.ok s) ∧
        Matches state.sessionId s (.recovering state.objectMeta none log) := by
  cases checked : state.validate E.raptorq with
  | error reason =>
      refine Or.inl ⟨.invalidResume reason, ?_⟩
      unfold restore
      rw [checked]
      rfl
  | ok _ =>
      obtain ⟨s, restored, stage⟩ := restore_recovers checked
      exact Or.inr ⟨s, _, restored, stage⟩

end AirFerry.Proof
