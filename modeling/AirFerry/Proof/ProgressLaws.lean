import AirFerry.Proof.Origins

namespace AirFerry.Proof
open Library QrProtocol RaptorqCore TransferEngine ReceiverSession

variable {E : Env} {R : Raptorq} {m : ObjectMeta} {log later : List Symbol}

theorem receivedOf_mono (grown : log <+: later) (sbn : U32) :
    receivedOf log sbn ⊆ receivedOf later sbn := by
  intro esi member
  obtain ⟨rest, rfl⟩ := grown
  rw [mem_receivedOf] at member ⊢
  rw [List.map_append]
  exact List.mem_append_left _ member

theorem sourceCount_mono (grown : log <+: later) (b : SourceBlockMeta) :
    sourceCount log b ≤ sourceCount later b :=
  Finset.card_le_card (Finset.filter_subset_filter _ (receivedOf_mono grown b.sbn))

theorem reconstructed_mono (grown : log <+: later) {b : SourceBlockMeta}
    (done : reconstructed R m log b = true) : reconstructed R m later b = true := by
  rw [reconstructed, Decoder.decoded_of_prefix grown done]
  exact done

theorem blockSymbols_mono (grown : log <+: later) (b : SourceBlockMeta) :
    blockSymbols R m log b ≤ blockSymbols R m later b := by
  by_cases done : reconstructed R m later b = true
  · rw [blockSymbols.eq_1 R m later, if_pos done]
    exact blockSymbols_le m log b
  · have before : ¬ reconstructed R m log b = true := fun early =>
      done (reconstructed_mono grown early)
    rw [blockSymbols, blockSymbols, if_neg done, if_neg before]
    exact sourceCount_mono grown b

theorem decodedCount_mono (grown : log <+: later) :
    decodedCount R m log ≤ decodedCount R m later :=
  List.sum_le_sum fun b _ => blockSymbols_mono grown b

theorem decodedBlockCount_mono (grown : log <+: later) :
    (Decoder.ofLog R m log).decodedBlockCount ≤ (Decoder.ofLog R m later).decodedBlockCount := by
  rw [Decoder.decodedBlockCount_ofLog, Decoder.decodedBlockCount_ofLog]
  exact List.countP_mono_left fun b _ done => reconstructed_mono (R := R) grown done

theorem isComplete_iff_count :
    (Decoder.ofLog R m log).isComplete = true ↔
      (Decoder.ofLog R m log).decodedBlockCount = m.blocks.length := by
  rw [Decoder.isComplete_ofLog, Decoder.decodedBlockCount_ofLog, List.countP_eq_length]

theorem every_source_of_count {b : SourceBlockMeta}
    (full : sourceCount log b = b.numSourceSymbols.toNat) :
    ∀ esi < b.numSourceSymbols.toNat, ∃ s ∈ log, s.id.sbn = b.sbn ∧ s.id.esi.toNat = esi := by
  have image : ((receivedOf log b.sbn).filter fun esi =>
      esi.toNat < b.numSourceSymbols.toNat).image BitVec.toNat =
        Finset.range b.numSourceSymbols.toNat := by
    apply Finset.eq_of_subset_of_card_le
    · intro n member
      obtain ⟨esi, found, rfl⟩ := Finset.mem_image.mp member
      exact Finset.mem_range.mpr (Finset.mem_filter.mp found).2
    · rw [Finset.card_range, Finset.card_image_of_injective _ fun _ _ => BitVec.eq_of_toNat_eq]
      exact full.ge
  intro esi small
  have member : esi ∈ Finset.range b.numSourceSymbols.toNat := Finset.mem_range.mpr small
  rw [← image] at member
  obtain ⟨found, inBlock, rfl⟩ := Finset.mem_image.mp member
  obtain ⟨s, inLog, same⟩ := List.mem_map.mp (mem_receivedOf.mp (Finset.mem_filter.mp inBlock).1)
  exact ⟨s, inLog, congrArg SymbolId.sbn same, congrArg (fun id => id.esi.toNat) same⟩

theorem decodedCount_eq_total_iff (v : m.Valid R) (source : R.DecodesFromSource)
    (fits : ∀ s ∈ log, Fits m s) :
    decodedCount R m log = m.totalSymbols ↔ (Decoder.ofLog R m log).isComplete = true := by
  rw [Decoder.isComplete_ofLog]
  constructor
  · intro total b member
    by_contra silent
    have waiting : ¬ reconstructed R m log b = true := silent
    have full : blockSymbols R m log b = b.numSourceSymbols.toNat := by
      by_contra short
      have less := lt_of_le_of_ne (blockSymbols_le (R := R) m log b) short
      have strict := List.sum_lt_sum _ _ (fun c _ => blockSymbols_le (R := R) m log c)
        ⟨b, member, less⟩
      exact absurd total (Nat.ne_of_lt strict)
    rw [blockSymbols, if_neg waiting] at full
    exact silent (Decoder.decoded_of_source v source fits member (every_source_of_count full))
  · intro complete
    unfold decodedCount ObjectMeta.totalSymbols
    congr 1
    exact List.map_congr_left fun b member => if_pos (complete b member)

structure ProgressAgrees (s : ReceiverSession E) (m : ObjectMeta) (d : Decoder E.raptorq) : Prop where
  objectMeta : s.objectMeta = some m
  decoder : s.decoder = some d
  received_length : s.received.length = m.blocks.length
  sourceRecv_length : s.sourceRecv.length = m.blocks.length
  decoder_length : d.blocks.length = m.blocks.length
  sourceRecv : ∀ (i : Nat) (b : SourceBlockMeta) (esis : Finset U32),
    m.blocks[i]? = some b → s.received[i]? = some esis →
    s.sourceRecv[i]? = some (esis.filter fun esi => esi.toNat < b.numSourceSymbols.toNat).card
  receivedSymbols : s.progress.receivedSymbols = (s.received.map Finset.card).sum
  decodedBlocks : s.progress.decodedBlocks = d.blocks.countP fun b => b.decoded.isSome
  decodedSymbols : s.progress.decodedSymbols =
    ((m.blocks.zip (d.blocks.zip s.sourceRecv)).map fun (b, state, count) =>
      if state.decoded.isSome then b.numSourceSymbols.toNat else count).sum
  totalSymbols : s.progress.totalSymbols = (m.blocks.map fun b => b.numSourceSymbols.toNat).sum
  decodedSymbols_le : s.progress.decodedSymbols ≤ s.progress.totalSymbols
  isComplete : s.getProgress.isComplete = s.isComplete

theorem Recovering.progressAgrees {s : ReceiverSession E} (h : Recovering s m log) :
    ProgressAgrees s m (Decoder.ofLog E.raptorq m log) where
  objectMeta := h.objectMeta
  decoder := h.decoder
  received_length := by rw [h.received, List.length_map]
  sourceRecv_length := by rw [h.sourceRecv, List.length_map]
  decoder_length := Decoder.length_blocks_ofLog m log
  sourceRecv := by
    intro i b esis block received
    rw [h.received, List.getElem?_map, block] at received
    cases received
    rw [h.sourceRecv, List.getElem?_map, block]
    rfl
  receivedSymbols := by
    rw [h.receivedSymbols, h.received, List.map_map]
    rfl
  decodedBlocks := h.decodedBlocks
  decodedSymbols := by
    have pairs := @List.zip_map' _ _ _ id
      (fun b => (Decoder.blockOf E.raptorq m log b, sourceCount log b)) m.blocks
    rw [List.map_id] at pairs
    rw [h.decodedSymbols, h.sourceRecv, Decoder.ofLog, List.zip_map', pairs, List.map_map]
    rfl
  totalSymbols := h.totalSymbols
  decodedSymbols_le := by
    rw [h.decodedSymbols, h.totalSymbols]
    exact decodedCount_le m log
  isComplete := by
    rw [h.isComplete, Bool.eq_iff_iff, isComplete_iff_count]
    have blocks := h.valid.blocks_pos
    simp only [getProgress, Progress.isComplete, h.totalBlocks, h.decodedBlocks, decide_eq_true_eq]
    exact ⟨fun both => both.2, fun all => ⟨by omega, all⟩⟩

theorem reach_stage (E : Env) (origin : Origin) :
    (∃ e, ∀ frames, origin.reach E frames = .ok (.error e)) ∨
      ∃ stage : Stage, ∀ frames, ∃ s outs, origin.reach E frames = .ok (.ok (s, outs)) ∧
        Matches origin.sessionId s (stage.run E origin.sessionId frames) := by
  have opened : (∃ e, origin.start E = .ok (.error e)) ∨ ∃ s stage, origin.start E = .ok (.ok s) ∧
      Matches origin.sessionId s stage := by
    cases origin with
    | pending sessionId =>
        obtain ⟨s, new, stage⟩ := newPending_waiting E sessionId
        refine Or.inr ⟨s, _, ?_, stage⟩
        rw [Origin.start, new]
        rfl
    | confirmed sessionId m =>
        rcases newConfirmed_stage E sessionId m with failed | ⟨s, new, stage⟩
        · exact Or.inl failed
        · exact Or.inr ⟨s, _, new, stage⟩
    | restored state =>
        rcases restore_stage E state with failed | ⟨s, log, new, stage⟩
        · exact Or.inl failed
        · exact Or.inr ⟨s, _, new, stage⟩
  rcases opened with ⟨e, failed⟩ | ⟨s, stage, started, matched⟩
  · refine Or.inl ⟨e, fun frames => ?_⟩
    rw [Origin.reach, failed]
    rfl
  · refine Or.inr ⟨stage, fun frames => ?_⟩
    obtain ⟨s', outs, run, final, -⟩ := matches_simulates origin.sessionId frames s stage matched
    refine ⟨s', outs, ?_, final⟩
    rw [Origin.reach, started]
    simp only [bind, Except.bind, pure, Except.pure, run]

theorem progress_agrees (E : Env) (origin : Origin) (frames later : List (WireFrame E.crc32)) :
    (∃ e, origin.reach E frames = .ok (.error e)) ∨
      ∃ s outs s' outs', origin.reach E frames = .ok (.ok (s, outs)) ∧
        origin.reach E (frames ++ later) = .ok (.ok (s', outs')) ∧
        (s.isMetaConfirmed = true →
          (∃ m d, ProgressAgrees s m d) ∧
          (E.raptorq.DecodesFromSource →
            (s.progress.decodedSymbols = s.progress.totalSymbols ↔ s.isComplete = true)) ∧
          s.progress.decodedSymbols ≤ s'.progress.decodedSymbols ∧
          s.progress.decodedBlocks ≤ s'.progress.decodedBlocks ∧
          (s.isComplete = true → s'.isComplete = true)) := by
  rcases reach_stage E origin with ⟨e, failed⟩ | ⟨start, reached⟩
  · exact Or.inl ⟨e, failed frames⟩
  right
  obtain ⟨s, outs, run, final⟩ := reached frames
  obtain ⟨s', outs', run', final'⟩ := reached (frames ++ later)
  refine ⟨s, outs, s', outs', run, run', ?_⟩
  intro confirmed
  rw [Stage.run_append] at final'
  cases here : start.run E origin.sessionId frames with
  | waiting cache =>
      rw [here] at final
      rw [isMetaConfirmed, final.2.metaConfirmed] at confirmed
      cases confirmed
  | recovering m described log =>
      rw [here] at final final'
      obtain ⟨described', log', continued, grown, -⟩ :=
        Stage.recovering_run origin.sessionId m described later log
      rw [continued] at final'
      have h := final.2.2.2
      have h' := final'.2.2.2
      refine ⟨⟨m, _, h.progressAgrees⟩, ?_, ?_, ?_, ?_⟩
      · intro source
        rw [h.decodedSymbols, h.totalSymbols, h.isComplete]
        exact decodedCount_eq_total_iff h.valid source h.fits
      · rw [h.decodedSymbols, h'.decodedSymbols]
        exact decodedCount_mono grown
      · rw [h.decodedBlocks, h'.decodedBlocks]
        exact decodedBlockCount_mono grown
      · rw [h.isComplete, h'.isComplete]
        intro complete
        rw [Decoder.isComplete_of_prefix grown complete]
        exact complete

end AirFerry.Proof
