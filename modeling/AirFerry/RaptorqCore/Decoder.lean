import AirFerry.Library.Run
import AirFerry.RaptorqCore.Meta

/-!
# The object decoder

One upstream decoder a source block. `Decoder.ofLog` is the decoder that a list of accepted
symbols leads to; the operations are stated over it.
-/

namespace AirFerry.RaptorqCore
open Library.Incremental

variable {R : Raptorq}

structure SymbolId where
  sbn : U32
  esi : U32
deriving DecidableEq, Repr

structure Symbol where
  id : SymbolId
  data : Bytes
deriving DecidableEq, Repr

def Symbol.new (sbn esi : U32) (data : Bytes) : Symbol := { id := { sbn, esi }, data }

def Symbol.packet (symbol : Symbol) : EncodingPacket :=
  { sourceBlockNumber := symbol.id.sbn.setWidth 8, encodingSymbolId := symbol.id.esi,
    data := symbol.data }

structure BlockState (R : Raptorq) where
  decoder : SourceBlockDecoder R
  decoded : Option Bytes

structure Decoder (R : Raptorq) where
  objectMeta : ObjectMeta
  blocks : List (BlockState R)

namespace Decoder

def newBlocks (R : Raptorq) (oti : Oti) : List SourceBlockMeta → Exec (List (BlockState R))
  | [] => .ok []
  | b :: rest =>
      match SourceBlockDecoder.new (b.sbn.setWidth 8) oti b.blockLength with
      | .error fault => .error fault
      | .ok decoder =>
          match newBlocks R oti rest with
          | .error fault => .error fault
          | .ok blocks => .ok ({ decoder, decoded := none } :: blocks)

def new (objectMeta : ObjectMeta) : Exec (Except Error (Decoder R)) :=
  match objectMeta.validate R with
  | .error reason => .ok (.error (.invalidObjectMeta reason))
  | .ok () =>
      match newBlocks R (objectMeta.oti R) objectMeta.blocks with
      | .error fault => .error fault
      | .ok blocks => .ok (.ok { objectMeta, blocks })

def isComplete (d : Decoder R) : Bool := d.blocks.all fun b => b.decoded.isSome

def decodedBlockCount (d : Decoder R) : Nat := d.blocks.countP fun b => b.decoded.isSome

def blockProgress (d : Decoder R) (sbn : U32) : Exec (Option Nat) :=
  match d.blocks[sbn.toNat]? with
  | none => .ok none
  | some b =>
      match index d.objectMeta.blocks sbn.toNat with
      | .error fault => .error fault
      | .ok blockMeta =>
          .ok (if b.decoded.isSome then some blockMeta.numSourceSymbols.toNat else none)

def addSymbol (d : Decoder R) (symbol : Symbol) : Exec (Decoder R × Except Error Bool) :=
  let sbn := symbol.id.sbn.toNat
  if d.blocks.length ≤ sbn then
    .ok (d, .error (.blockOutOfRange sbn (asU32 d.blocks.length)))
  else if 2 ^ 24 ≤ symbol.id.esi.toNat ∨ symbol.data.length ≠ d.objectMeta.symbolSize.toNat then
    .ok (d, .ok d.isComplete)
  else
    match index d.blocks sbn with
    | .error fault => .error fault
    | .ok block =>
        if block.decoded.isSome then .ok (d, .ok d.isComplete)
        else
          match block.decoder.decode symbol.packet with
          | .error fault => .error fault
          | .ok (decoder, result) =>
              let d := { d with blocks := d.blocks.set sbn { decoder, decoded := result } }
              .ok (d, .ok d.isComplete)

def assemble (d : Decoder R) : Option Bytes :=
  if d.isComplete then
    -- every block is reconstructed here, so the default is never taken
    some ((d.blocks.flatMap fun b => b.decoded.getD []).take d.objectMeta.transferLength.toNat)
  else none

end Decoder

structure Fits (m : ObjectMeta) (symbol : Symbol) : Prop where
  sbn_lt : symbol.id.sbn.toNat < m.blocks.length
  esi_lt : symbol.id.esi.toNat < 2 ^ 24
  size : symbol.data.length = m.symbolSize.toNat

instance (m : ObjectMeta) (symbol : Symbol) : Decidable (Fits m symbol) :=
  decidable_of_iff (symbol.id.sbn.toNat < m.blocks.length ∧ symbol.id.esi.toNat < 2 ^ 24 ∧
      symbol.data.length = m.symbolSize.toNat)
    ⟨fun ⟨a, b, c⟩ => ⟨a, b, c⟩, fun ⟨a, b, c⟩ => ⟨a, b, c⟩⟩

def packetsOf (sbn : U32) (log : List Symbol) : List EncodingPacket :=
  (log.filter fun s => s.id.sbn = sbn).map Symbol.packet

@[simp] theorem packetsOf_nil (sbn : U32) : packetsOf sbn [] = [] := rfl

theorem packetsOf_append (sbn : U32) (xs ys : List Symbol) :
    packetsOf sbn (xs ++ ys) = packetsOf sbn xs ++ packetsOf sbn ys := by
  simp [packetsOf]

theorem packetsOf_singleton_same {sbn : U32} {s : Symbol} (same : s.id.sbn = sbn) :
    packetsOf sbn [s] = [s.packet] := by
  simp [packetsOf, same]

theorem packetsOf_singleton_other {sbn : U32} {s : Symbol} (other : s.id.sbn ≠ sbn) :
    packetsOf sbn [s] = [] := by
  simp [packetsOf, other]

namespace Decoder

def blockOf (R : Raptorq) (m : ObjectMeta) (log : List Symbol) (b : SourceBlockMeta) :
    BlockState R :=
  let fed := feed SourceBlockDecoder.step (.fresh R (b.sbn.setWidth 8) (m.oti R) b.blockLength)
    (packetsOf b.sbn log)
  { decoder := fed.1, decoded := fed.2 }

def ofLog (R : Raptorq) (m : ObjectMeta) (log : List Symbol) : Decoder R :=
  { objectMeta := m, blocks := m.blocks.map (blockOf R m log) }

@[simp] theorem ofLog_objectMeta (m : ObjectMeta) (log : List Symbol) :
    (ofLog R m log).objectMeta = m := rfl

@[simp] theorem length_blocks_ofLog (m : ObjectMeta) (log : List Symbol) :
    (ofLog R m log).blocks.length = m.blocks.length := by
  simp [ofLog]

theorem blocks_ofLog {m : ObjectMeta} {log : List Symbol} {i : Nat} {b : SourceBlockMeta}
    (found : m.blocks[i]? = some b) : (ofLog R m log).blocks[i]? = some (blockOf R m log b) := by
  simp [ofLog, found]

theorem isComplete_ofLog {m : ObjectMeta} {log : List Symbol} :
    (ofLog R m log).isComplete = true ↔ ∀ b ∈ m.blocks, (blockOf R m log b).decoded.isSome := by
  simp [isComplete, ofLog]

theorem blockOf_decoder_sourceBlockId (m : ObjectMeta) (log : List Symbol) (b : SourceBlockMeta) :
    (blockOf R m log b).decoder.sourceBlockId = b.sbn.setWidth 8 :=
  (feed_sourceBlockId _ _).1

theorem blockOf_decoder_symbolSize (m : ObjectMeta) (log : List Symbol) (b : SourceBlockMeta) :
    (blockOf R m log b).decoder.symbolSize = (m.oti R).symbolSize :=
  (feed_sourceBlockId _ _).2

theorem blockOf_append_other {m : ObjectMeta} {log : List Symbol} {s : Symbol}
    {b : SourceBlockMeta} (other : s.id.sbn ≠ b.sbn) :
    blockOf R m (log ++ [s]) b = blockOf R m log b := by
  rw [blockOf, packetsOf_append, packetsOf_singleton_other other, List.append_nil]
  rfl

theorem blockOf_append_decoded {m : ObjectMeta} {log : List Symbol} (rest : List Symbol)
    {b : SourceBlockMeta} (decoded : (blockOf R m log b).decoded.isSome) :
    blockOf R m (log ++ rest) b = blockOf R m log b := by
  rw [blockOf, packetsOf_append, feed_append_of_answered _ _ decoded]
  rfl

theorem blockOf_append_same {m : ObjectMeta} {log : List Symbol} {s : Symbol}
    {b : SourceBlockMeta} (same : s.id.sbn = b.sbn) (pending : (blockOf R m log b).decoded = none) :
    blockOf R m (log ++ [s]) b =
      { decoder := ((blockOf R m log b).decoder.step s.packet).1
        decoded := ((blockOf R m log b).decoder.step s.packet).2 } := by
  rw [blockOf, packetsOf_append, packetsOf_singleton_same same, feed_append_of_silent _ _ pending,
    feed_singleton]
  rfl

end Decoder

theorem ObjectMeta.Valid.sbn_toNat {m : ObjectMeta} (v : m.Valid R) {i : Nat} {b : SourceBlockMeta}
    (found : m.blocks[i]? = some b) : b.sbn.toNat = i ∧ i ≤ 254 := by
  have inside : i < m.blocks.length := (List.getElem?_eq_some_iff.mp found).1
  have blocks := v.blocks_le
  rw [(v.block i b found).sbn, BitVec.toNat_ofNat]
  omega

theorem ObjectMeta.Valid.position {m : ObjectMeta} (v : m.Valid R) {b : SourceBlockMeta}
    (member : b ∈ m.blocks) : m.blocks[b.sbn.toNat]? = some b := by
  obtain ⟨i, found⟩ := List.mem_iff_getElem?.mp member
  rwa [(v.sbn_toNat found).1]

theorem ObjectMeta.Valid.map_set {α : Type} {m : ObjectMeta} (v : m.Valid R)
    (before after : SourceBlockMeta → α) {b : SourceBlockMeta} {sbn : U32}
    (found : m.blocks[sbn.toNat]? = some b)
    (others : ∀ c, sbn ≠ c.sbn → after c = before c) :
    (m.blocks.map before).set sbn.toNat (after b) = m.blocks.map after := by
  apply List.ext_getElem?
  intro i
  rw [List.getElem?_set]
  by_cases hit : sbn.toNat = i
  · subst hit
    have within := (List.getElem?_eq_some_iff.mp found).1
    rw [if_pos rfl, if_pos (by simpa using within), List.getElem?_map, found]
    rfl
  · rw [if_neg hit]
    cases place : m.blocks[i]? with
    | none => simp [place]
    | some c =>
        simp only [List.getElem?_map, place, Option.map_some, Option.some.injEq]
        apply (others c _).symm
        intro equal
        exact hit ((congrArg BitVec.toNat equal).trans (v.sbn_toNat place).1)

theorem ObjectMeta.Valid.newDecoderPre {m : ObjectMeta} (v : m.Valid R) {b : SourceBlockMeta}
    (member : b ∈ m.blocks) : NewDecoderPre (b.sbn.setWidth 8) (m.oti R) b.blockLength := by
  have found := v.position member
  have block := v.block _ _ found
  have size := v.oti_symbolSize
  have lower := v.symbolSize.lower
  simp only [minSymbolSize] at lower
  have positive : 0 < m.symbolSize.toNat := by omega
  have length : b.blockLength.toNat = b.numSourceSymbols.toNat * (m.oti R).symbolSize.toNat := by
    rw [size]
    exact block.length_eq
  have symbols : b.blockLength.toNat / (m.oti R).symbolSize.toNat = b.numSourceSymbols.toNat := by
    rw [length, Nat.mul_div_cancel _ (size ▸ positive)]
  exact {
    sbn_le := by
      have := (v.sbn_toNat found).2
      simp only [BitVec.toNat_setWidth]
      omega
    symbolSize_pos := size ▸ positive
    whole_symbols := by rw [length, Nat.mul_mod_left]
    symbols_pos := symbols ▸ block.symbols_pos
    symbols_le := symbols ▸ block.symbols_le
    alignment_pos := v.alignment_pos
    alignment_dvd := v.alignment_dvd
    subBlocks_pos := v.subBlocks_pos
    subBlocks_le := v.subBlocks_le }

theorem ObjectMeta.Valid.packetsOf_fit {m : ObjectMeta} (v : m.Valid R) {log : List Symbol}
    (fits : ∀ s ∈ log, Fits m s) (sbn : U32) :
    ∀ p ∈ packetsOf sbn log, p.data.length = (m.oti R).symbolSize.toNat ∧
      p.sourceBlockNumber = sbn.setWidth 8 ∧ p.encodingSymbolId.toNat < 2 ^ 24 := by
  intro p member
  obtain ⟨s, filtered, rfl⟩ := List.mem_map.mp member
  obtain ⟨inLog, same⟩ := List.mem_filter.mp filtered
  have same : s.id.sbn = sbn := by simpa using same
  refine ⟨?_, ?_, (fits s inLog).esi_lt⟩
  · rw [v.oti_symbolSize]
    exact (fits s inLog).size
  · rw [← same]
    rfl

namespace Decoder

theorem newBlocks_ok {oti : Oti} {blocks : List SourceBlockMeta}
    (pre : ∀ b ∈ blocks, NewDecoderPre (b.sbn.setWidth 8) oti b.blockLength) :
    newBlocks R oti blocks =
      .ok (blocks.map fun b => ⟨.fresh R (b.sbn.setWidth 8) oti b.blockLength, none⟩) := by
  induction blocks with
  | nil => rfl
  | cons b rest ih =>
      rw [newBlocks, SourceBlockDecoder.new, if_pos (pre b (by simp))]
      simp only [ih fun c member => pre c (by simp [member]), List.map_cons]

theorem new_ok {m : ObjectMeta} (v : m.Valid R) : new m = .ok (.ok (ofLog R m [])) := by
  rw [new, ObjectMeta.validate_ok_iff.mpr v]
  simp only [newBlocks_ok fun b member => v.newDecoderPre member]
  rfl

theorem addSymbol_ofLog {m : ObjectMeta} (v : m.Valid R) (log : List Symbol) {s : Symbol}
    (fits : Fits m s) :
    (ofLog R m log).addSymbol s =
      .ok (ofLog R m (log ++ [s]), .ok (ofLog R m (log ++ [s])).isComplete) := by
  obtain ⟨b, found⟩ : ∃ b, m.blocks[s.id.sbn.toNat]? = some b :=
    ⟨_, List.getElem?_eq_getElem fits.sbn_lt⟩
  have same : s.id.sbn = b.sbn := BitVec.eq_of_toNat_eq (v.sbn_toNat found).1.symm
  have inRange : ¬ (ofLog R m log).blocks.length ≤ s.id.sbn.toNat := by
    rw [length_blocks_ofLog]
    exact not_le.mpr fits.sbn_lt
  have wellSized : ¬ (2 ^ 24 ≤ s.id.esi.toNat ∨
      s.data.length ≠ (ofLog R m log).objectMeta.symbolSize.toNat) :=
    not_or.mpr ⟨not_le.mpr fits.esi_lt, not_not.mpr fits.size⟩
  unfold addSymbol
  simp only [if_neg inRange, if_neg wellSized, index_of_getElem? (blocks_ofLog found)]
  by_cases decoded : (blockOf R m log b).decoded.isSome
  · have unchanged : ofLog R m (log ++ [s]) = ofLog R m log := by
      simp only [ofLog, mk.injEq, true_and]
      apply List.map_congr_left
      intro c member
      by_cases hit : s.id.sbn = c.sbn
      · have at_ := v.position member
        rw [← hit, found] at at_
        obtain rfl : b = c := by simpa using at_
        exact blockOf_append_decoded [s] decoded
      · exact blockOf_append_other hit
    rw [if_pos decoded, unchanged]
  · have pre : DecodePre (blockOf R m log b).decoder s.packet := {
      block := by rw [blockOf_decoder_sourceBlockId, ← same]; rfl
      esi_lt := fits.esi_lt
      size := by
        rw [blockOf_decoder_symbolSize, v.oti_symbolSize]
        exact fits.size }
    have stepped : { ofLog R m log with
        blocks := (ofLog R m log).blocks.set s.id.sbn.toNat
          (BlockState.mk ((blockOf R m log b).decoder.step s.packet).1
            ((blockOf R m log b).decoder.step s.packet).2) } = ofLog R m (log ++ [s]) := by
      have pending : (blockOf R m log b).decoded = none := by simpa using decoded
      rw [← blockOf_append_same same pending]
      simp only [ofLog, mk.injEq, true_and]
      exact v.map_set _ _ found fun c other => blockOf_append_other other
    rw [if_neg decoded, SourceBlockDecoder.decode, if_pos pre]
    simp only [stepped]

theorem run_addSymbol {m : ObjectMeta} (v : m.Valid R) (log : List Symbol) {later : List Symbol}
    (fits : ∀ s ∈ later, Fits m s) :
    ∃ results, Library.Run.run (fun (d : Decoder R) s => d.addSymbol s) (ofLog R m log) later =
      .ok (ofLog R m (log ++ later), results) := by
  induction later generalizing log with
  | nil =>
      rw [List.append_nil]
      exact ⟨[], rfl⟩
  | cons s rest ih =>
      obtain ⟨results, run⟩ := ih (log ++ [s]) fun x member => fits x (by simp [member])
      rw [List.append_assoc] at run
      exact ⟨_, Library.Run.run_cons (addSymbol_ofLog v log (fits s (by simp))) run⟩

theorem decoded_of_prefix {m : ObjectMeta} {log later : List Symbol} {b : SourceBlockMeta}
    (grown : log <+: later) (decoded : (blockOf R m log b).decoded.isSome) :
    blockOf R m later b = blockOf R m log b := by
  obtain ⟨rest, rfl⟩ := grown
  exact blockOf_append_decoded rest decoded

theorem isComplete_of_prefix {m : ObjectMeta} {log later : List Symbol}
    (grown : log <+: later) (complete : (ofLog R m log).isComplete = true) :
    ofLog R m later = ofLog R m log := by
  simp only [ofLog, mk.injEq, true_and]
  apply List.map_congr_left
  intro b member
  exact decoded_of_prefix grown (isComplete_ofLog.mp complete b member)

theorem decodedBlockCount_ofLog (m : ObjectMeta) (log : List Symbol) :
    (ofLog R m log).decodedBlockCount =
      m.blocks.countP fun b => (blockOf R m log b).decoded.isSome := by
  simp only [decodedBlockCount, ofLog, List.countP_map]
  rfl

theorem blockProgress_ofLog {m : ObjectMeta} (v : m.Valid R) (log : List Symbol)
    {b : SourceBlockMeta} (member : b ∈ m.blocks) :
    (ofLog R m log).blockProgress b.sbn =
      .ok (if (blockOf R m log b).decoded.isSome then some b.numSourceSymbols.toNat else none) := by
  have found := v.position member
  unfold blockProgress
  simp only [blocks_ofLog found]
  rw [show index (ofLog R m log).objectMeta.blocks b.sbn.toNat = .ok b from
    index_of_getElem? found]

theorem length_decoded {m : ObjectMeta} (v : m.Valid R) (exactLength : R.ExactLength)
    {log : List Symbol} (fits : ∀ s ∈ log, Fits m s) {b : SourceBlockMeta} (member : b ∈ m.blocks)
    {bytes : Bytes} (decoded : (blockOf R m log b).decoded = some bytes) :
    bytes.length = b.blockLength.toNat := by
  exact exactLength _ _ _ (v.newDecoderPre member) (packetsOf b.sbn log) (v.packetsOf_fit fits b.sbn)
    bytes decoded

theorem decoded_of_source {m : ObjectMeta} (v : m.Valid R) (source : R.DecodesFromSource)
    {log : List Symbol} (fits : ∀ s ∈ log, Fits m s) {b : SourceBlockMeta} (member : b ∈ m.blocks)
    (every : ∀ esi < b.numSourceSymbols.toNat,
      ∃ s ∈ log, s.id.sbn = b.sbn ∧ s.id.esi.toNat = esi) :
    (blockOf R m log b).decoded.isSome := by
  have pre := v.newDecoderPre member
  apply source _ _ _ pre (packetsOf b.sbn log) (v.packetsOf_fit fits b.sbn)
  intro esi small
  have block := v.block _ _ (v.position member)
  rw [v.oti_symbolSize, block.length_eq,
    Nat.mul_div_cancel _ (v.oti_symbolSize ▸ pre.symbolSize_pos)] at small
  obtain ⟨s, inLog, same, here⟩ := every esi small
  exact ⟨s.packet, List.mem_map_of_mem (by simp [inLog, same]), here⟩

theorem length_assemble {m : ObjectMeta} (v : m.Valid R) (exactLength : R.ExactLength)
    {log : List Symbol} (fits : ∀ s ∈ log, Fits m s)
    (complete : (ofLog R m log).isComplete = true) :
    ∃ bytes, (ofLog R m log).assemble = some bytes ∧ bytes.length = m.transferLength.toNat := by
  have blocks : ∀ metas : List SourceBlockMeta, (∀ b ∈ metas, b ∈ m.blocks) →
      ((metas.map (blockOf R m log)).flatMap fun b => b.decoded.getD []).length =
        (metas.map fun b => b.blockLength.toNat).sum := by
    intro metas inside
    induction metas with
    | nil => rfl
    | cons b rest ih =>
        obtain ⟨bytes, decoded⟩ :=
          Option.isSome_iff_exists.mp (isComplete_ofLog.mp complete b (inside b (by simp)))
        have size := length_decoded v exactLength fits (inside b (by simp)) decoded
        simp only [List.map_cons, List.flatMap_cons, List.length_append, List.sum_cons,
          ih fun c member => inside c (by simp [member]), decoded, Option.getD_some, size]
  refine ⟨_, if_pos complete, ?_⟩
  have whole := blocks m.blocks fun b member => member
  have covered := v.covered
  rw [List.length_take]
  simp only [ofLog, whole]
  exact Nat.min_eq_left covered

end Decoder

end AirFerry.RaptorqCore
