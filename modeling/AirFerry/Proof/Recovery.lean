import AirFerry.Proof.SymbolLog

/-!
# The receiver after its descriptor

`Recovering s m log` says that `s` holds the metadata `m` and that its decoder, its sets and its
counters are the ones the accepted symbols `log` lead to.
-/

namespace AirFerry.Proof
open Library QrProtocol RaptorqCore TransferEngine ReceiverSession

variable {E : Env} {s : ReceiverSession E} {m : ObjectMeta} {log : List Symbol}

structure Tracks (s : ReceiverSession E) (m : ObjectMeta) (log : List Symbol) : Prop where
  decoder : s.decoder = some (Decoder.ofLog E.raptorq m log)
  received : s.received = m.blocks.map fun b => receivedOf log b.sbn
  sourceRecv : s.sourceRecv = m.blocks.map (sourceCount log)

structure Recovering (s : ReceiverSession E) (m : ObjectMeta) (log : List Symbol) : Prop
    extends Tracks s m log where
  valid : m.Valid E.raptorq
  fits : ∀ x ∈ log, Fits m x
  objectMeta : s.objectMeta = some m
  symbolCache : s.symbolCache = ∅
  pendingSymbolSize : s.pendingSymbolSize = m.symbolSize
  totalSymbols : s.progress.totalSymbols = m.totalSymbols
  totalBlocks : s.progress.totalBlocks = m.blocks.length
  receivedSymbols : s.progress.receivedSymbols = receivedCount m log
  decodedSymbols : s.progress.decodedSymbols = decodedCount E.raptorq m log
  decodedBlocks : s.progress.decodedBlocks = (Decoder.ofLog E.raptorq m log).decodedBlockCount

theorem Tracks.isComplete (h : Tracks s m log) :
    s.isComplete = (Decoder.ofLog E.raptorq m log).isComplete := by
  rw [ReceiverSession.isComplete, h.decoder]
  rfl

theorem insertReceived_tracks (valid : m.Valid E.raptorq) (log : List Symbol) {x : Symbol}
    (fits : Fits m x)
    (h : s.received = m.blocks.map fun b => receivedOf log b.sbn) :
    s.insertReceived x.id.sbn.toNat x.id.esi =
      .ok ({ s with received := m.blocks.map fun b => receivedOf (log ++ [x]) b.sbn },
        decide (x.id.esi ∉ receivedOf log x.id.sbn)) := by
  obtain ⟨b, found⟩ : ∃ b, m.blocks[x.id.sbn.toNat]? = some b :=
    ⟨_, List.getElem?_eq_getElem fits.sbn_lt⟩
  have same : x.id.sbn = b.sbn := BitVec.eq_of_toNat_eq (valid.sbn_toNat found).1.symm
  have entry : s.received[x.id.sbn.toNat]? = some (receivedOf log x.id.sbn) := by
    rw [h, List.getElem?_map, found, same]
    rfl
  have updated : s.received.set x.id.sbn.toNat (insert x.id.esi (receivedOf log x.id.sbn)) =
      m.blocks.map fun b => receivedOf (log ++ [x]) b.sbn := by
    have table := valid.map_set (fun b => receivedOf log b.sbn)
      (fun b => receivedOf (log ++ [x]) b.sbn) found fun c other => receivedOf_append_other other
    rw [← same] at table
    rwa [h, ← receivedOf_append_same rfl]
  rw [insertReceived, index_of_getElem? entry]
  simp only [bind, Except.bind, pure, Except.pure, updated]

theorem countSource_tracks (valid : m.Valid E.raptorq) {x : Symbol} (fits : Fits m x)
    (fresh : x.id.esi ∉ receivedOf log x.id.sbn) (h : s.sourceRecv = m.blocks.map (sourceCount log)) :
    s.countSource m x.id.sbn.toNat x.id.esi =
      .ok { s with sourceRecv := m.blocks.map (sourceCount (log ++ [x])) } := by
  obtain ⟨b, found⟩ : ∃ b, m.blocks[x.id.sbn.toNat]? = some b :=
    ⟨_, List.getElem?_eq_getElem fits.sbn_lt⟩
  have same : x.id.sbn = b.sbn := BitVec.eq_of_toNat_eq (valid.sbn_toNat found).1.symm
  have step := sourceCount_append_same same (same ▸ fresh)
  have table := valid.map_set (sourceCount log) (sourceCount (log ++ [x])) found
    fun c other => sourceCount_append_other other
  have entry : s.sourceRecv[x.id.sbn.toNat]? = some (sourceCount log b) := by
    rw [h, List.getElem?_map, found]
    rfl
  rw [countSource, index_of_getElem? found]
  simp only [bind, Except.bind, pure, Except.pure]
  by_cases source : x.id.esi.toNat < b.numSourceSymbols.toNat
  · have small := sourceCount_le log b
    have wide := b.numSourceSymbols.isLt
    have bound := sourceCount_le (log ++ [x]) b
    rw [if_pos source] at step
    rw [if_pos source, index_of_getElem? entry]
    simp only
    rw [addU32_of_lt (by omega)]
    simp only [← step, h, table]
  · obtain ⟨within, value⟩ := List.getElem?_eq_some_iff.mp entry
    rw [if_neg source, Nat.add_zero] at step
    rw [if_neg source, ← table, step, ← h, ← value, List.set_getElem_self]

theorem feedDecoder_tracks (valid : m.Valid E.raptorq) (log : List Symbol) {x : Symbol}
    (fits : Fits m x)
    (h : s.decoder = some (Decoder.ofLog E.raptorq m log)) :
    s.feedDecoder x =
      .ok ({ s with decoder := some (Decoder.ofLog E.raptorq m (log ++ [x])) }, .ok ()) := by
  rw [feedDecoder, h]
  simp only [Decoder.addSymbol_ofLog valid log fits, bind, Except.bind, pure, Except.pure,
    Except.map]

theorem countBlocks_tracks (valid : m.Valid E.raptorq) (log : List Symbol)
    (rest : List SourceBlockMeta) (i symbols blocks : Nat) (here : ∀ j b, rest[j]? = some b → m.blocks[i + j]? = some b)
    (symbolsFit : symbols + (rest.map fun b => b.numSourceSymbols.toNat).sum < 2 ^ 32)
    (blocksFit : blocks + rest.length < 2 ^ 32) :
    countBlocks (Decoder.ofLog E.raptorq m log) (m.blocks.map (sourceCount log)) i rest symbols
        blocks =
      .ok (symbols + (rest.map (blockSymbols E.raptorq m log)).sum,
        blocks + rest.countP (reconstructed E.raptorq m log)) := by
  induction rest generalizing i symbols blocks with
  | nil => rfl
  | cons b rest ih =>
      have found : m.blocks[i]? = some b := here 0 b rfl
      have later : ∀ j c, rest[j]? = some c → m.blocks[i + 1 + j]? = some c := by
        intro j c next
        have := here (j+1) c (by simpa using next)
        rwa [Nat.add_comm j 1, ← Nat.add_assoc] at this
      have entry : (m.blocks.map (sourceCount log))[i]? = some (sourceCount log b) := by
        simp [found]
      have small := sourceCount_le log b
      simp only [List.map_cons, List.sum_cons, List.length_cons] at symbolsFit blocksFit
      rw [countBlocks, Decoder.blockProgress_ofLog valid log (List.mem_of_getElem? found)]
      simp only [List.map_cons, List.sum_cons, List.countP_cons]
      by_cases decoded : reconstructed E.raptorq m log b = true
      · have pending : (Decoder.blockOf E.raptorq m log b).decoded.isSome = true := decoded
        simp only [pending, if_true, bind, Except.bind]
        rw [addU32_of_lt (by omega)]
        simp only
        rw [addU32_of_lt (by omega)]
        simp only
        rw [ih (i+1) _ _ later (by omega) (by omega)]
        simp only [blockSymbols, decoded, if_true]
        congr 2 <;> omega
      · have pending : ¬ (Decoder.blockOf E.raptorq m log b).decoded.isSome = true := decoded
        simp only [if_neg pending, bind, Except.bind, index_of_getElem? entry]
        rw [addU32_of_lt (by omega)]
        simp only
        rw [ih (i+1) _ _ later (by omega) (by omega)]
        simp only [blockSymbols, decoded, Nat.min_eq_left small, Bool.false_eq_true, if_false]
        congr 2
        omega

theorem refreshDecodedCounts_tracks (valid : m.Valid E.raptorq) (log : List Symbol)
    (h : Tracks s m log) (objectMeta : s.objectMeta = some m) :
    s.refreshDecodedCounts =
      .ok { s with progress := { s.progress with
        decodedSymbols := decodedCount E.raptorq m log
        decodedBlocks := (Decoder.ofLog E.raptorq m log).decodedBlockCount } } := by
  have symbols := valid.symbols_le
  have blocks := valid.blocks_le
  simp only [maxTotalSourceSymbols] at symbols
  have counted := countBlocks_tracks valid log m.blocks 0 0 0
    (fun j b found => by rwa [Nat.zero_add])
    (by change 0 + m.totalSymbols < _; omega) (by omega)
  rw [Nat.zero_add, Nat.zero_add] at counted
  rw [refreshDecodedCounts, objectMeta, h.decoder]
  simp only [h.sourceRecv, counted, bind, Except.bind, pure, Except.pure,
    Decoder.decodedBlockCount_ofLog]
  rfl

end AirFerry.Proof
