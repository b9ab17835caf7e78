import AirFerry.Library.Strips
import AirFerry.RaptorqCore.Upstream

/-!
# A systematic code

The smallest code with what the results assume of the upstream crate: the RFC's partition into
blocks and sub-blocks, and decoders that answer once every source symbol of their block is in.
-/

namespace AirFerry.RaptorqCore
open Library Library.Incremental

/-- RFC 6330's `Partition[i, j]`: the sizes of `j` blocks that share `i` symbols. -/
def partition (i j : Nat) : List Nat :=
  List.replicate (i % j) (i / j + 1) ++ List.replicate (j - i % j) (i / j)

theorem length_partition {i j : Nat} (positive : 0 < j) : (partition i j).length = j := by
  have small := Nat.mod_lt i positive
  simp only [partition, List.length_append, List.length_replicate]
  omega

theorem sum_partition {i j : Nat} (positive : 0 < j) : (partition i j).sum = i := by
  have small := Nat.mod_lt i positive
  have whole := Nat.mod_add_div i j
  simp only [partition, List.sum_append, List.sum_replicate, smul_eq_mul]
  rw [Nat.mul_add, Nat.mul_one, Nat.add_right_comm, ← Nat.add_mul, Nat.add_sub_cancel' small.le,
    Nat.add_comm]
  exact whole

def symbolLength (mtu : U16) : Nat := mtu.toNat - mtu.toNat % 8

def blockSizes (data : Bytes) (mtu : U16) : List Nat :=
  let symbols := ceilDiv data.length (symbolLength mtu)
  partition symbols (ceilDiv symbols maxSourceSymbolsPerBlock)

namespace Systematic

/-- The numbers of symbols that the RFC extends a block to, the largest first. -/
def extendedSymbols : List Nat :=
  [56403, 55843, 55289, 54735, 54188, 53650, 53114, 52586, 52062, 51530, 51017, 50511, 49978,
   49470, 48976, 48489, 48007, 47523, 47047, 46574, 46104, 45638, 45183, 44729, 44279, 43840,
   43388, 42916, 42490, 42067, 41641, 41226, 40816, 40398, 39980, 39576, 39176, 38787, 38385,
   37992, 37606, 37227, 36849, 36479, 36112, 35750, 35395, 35031, 34654, 34302, 33961, 33623,
   33282, 32932, 32601, 32272, 31948, 31605, 31285, 30974, 30654, 30346, 30037, 29731, 29434,
   29138, 28845, 28548, 28248, 27959, 27682, 27392, 27111, 26838, 26566, 26291, 26022, 25756,
   25493, 25230, 24976, 24721, 24476, 24215, 23971, 23730, 23491, 23252, 23010, 22779, 22536,
   22301, 22073, 21852, 21629, 21412, 21199, 20988, 20778, 20564, 20355, 20152, 19939, 19740,
   19539, 19325, 19126, 18909, 18694, 18503, 18309, 18116, 17929, 17742, 17559, 17376, 17195,
   17024, 16851, 16674, 16505, 16336, 16161, 15977, 15808, 15651, 15496, 15325, 15170, 15011,
   14862, 14713, 14560, 14415, 14272, 14115, 13974, 13833, 13695, 13558, 13417, 13284, 13143,
   13002, 12857, 12726, 12593, 12460, 12333, 12208, 12087, 11956, 11829, 11711, 11590, 11475,
   11358, 11245, 11130, 11015, 10899, 10787, 10676, 10567, 10458, 10351, 10241, 10120, 10017,
   9916, 9813, 9708, 9601, 9497, 9400, 9303, 9206, 9111, 9019, 8928, 8837, 8744, 8654, 8559, 8474,
   8377, 8290, 8194, 8111, 8030, 7935, 7855, 7770, 7675, 7596, 7520, 7445, 7360, 7281, 7185, 7108,
   7033, 6956, 6878, 6799, 6730, 6655, 6589, 6518, 6427, 6363, 6296, 6233, 6169, 6102, 6039, 5975,
   5896, 5823, 5763, 5694, 5637, 5566, 5506, 5449, 5391, 5334, 5279, 5225, 5172, 5116, 5063, 5008,
   4954, 4901, 4838, 4780, 4731, 4681, 4626, 4567, 4513, 4468, 4418, 4365, 4318, 4252, 4207, 4165,
   4112, 4069, 4015, 3970, 3924, 3883, 3840, 3792, 3751, 3697, 3658, 3616, 3579, 3539, 3502, 3466,
   3423, 3387, 3344, 3299, 3265, 3224, 3186, 3151, 3101, 3056, 3015, 2979, 2938, 2906, 2875, 2831,
   2802, 2772, 2737, 2701, 2668, 2640, 2601, 2565, 2528, 2502, 2473, 2447, 2416, 2392, 2367, 2339,
   2315, 2278, 2247, 2217, 2195, 2152, 2125, 2103, 2070, 2040, 2005, 1979, 1954, 1926, 1906, 1887,
   1863, 1844, 1824, 1800, 1777, 1759, 1734, 1716, 1698, 1673, 1649, 1616, 1600, 1579, 1561, 1539,
   1522, 1502, 1477, 1461, 1436, 1420, 1404, 1389, 1361, 1347, 1306, 1285, 1269, 1255, 1236, 1220,
   1205, 1183, 1169, 1152, 1136, 1111, 1099, 1085, 1074, 1050, 1032, 1020, 1002, 989, 977, 963,
   950, 938, 926, 913, 903, 891, 870, 860, 845, 835, 821, 811, 802, 792, 778, 759, 747, 736, 728,
   718, 703, 693, 685, 675, 666, 648, 640, 633, 619, 606, 600, 594, 588, 580, 573, 563, 557, 549,
   542, 532, 526, 511, 497, 491, 486, 478, 466, 453, 447, 434, 428, 418, 405, 393, 385, 380, 372,
   368, 362, 355, 347, 341, 337, 324, 305, 301, 295, 280, 269, 263, 257, 248, 242, 236, 225, 217,
   213, 200, 187, 185, 181, 179, 168, 166, 160, 153, 149, 140, 138, 127, 125, 119, 114, 101, 97,
   95, 91, 88, 84, 75, 69, 62, 60, 55, 49, 48, 46, 42, 36, 32, 30, 26, 20, 18, 12, 10]

/-- The memory of a decoder that `with_defaults` allows for. -/
def decoderMemory : Nat := 10 * 1024 * 1024

def roomFor (size n : Nat) : Nat :=
  (extendedSymbols.find? fun k => k ≤ decoderMemory / (8 * ceilDiv size (8 * n))).getD 0

/-- The fewest sub-blocks with which the decoder has room for a block, or as many as there may be. -/
def subBlocks (size symbols : Nat) : Nat :=
  let most := size / 64
  (((List.range most).map (· + 1)).find? fun n => symbols ≤ roomFor size n).getD (max most 1)

def config (data : Bytes) (mtu : U16) : Oti where
  transferLength := BitVec.ofNat 64 data.length
  symbolSize := BitVec.ofNat 16 (symbolLength mtu)
  sourceBlocks := BitVec.ofNat 8 (blockSizes data mtu).length
  subBlocks := BitVec.ofNat 16 (subBlocks (symbolLength mtu)
    (ceilDiv (ceilDiv data.length (symbolLength mtu)) (blockSizes data mtu).length))
  symbolAlignment := 8

def widths (oti : Oti) : List Nat :=
  (partition (oti.symbolSize.toNat / oti.symbolAlignment.toNat) oti.subBlocks.toNat).map
    (· * oti.symbolAlignment.toNat)

def serialize (oti : Oti) : Octets 12 :=
  ⟨toBe 5 oti.transferLength ++ 0 :: (toBe 2 oti.symbolSize ++ (toBe 1 oti.sourceBlocks ++
    (toBe 2 oti.subBlocks ++ toBe 1 oti.symbolAlignment))), by simp⟩

def deserialize (bytes : Octets 12) : Oti where
  transferLength := BitVec.ofNat 64 (BigEndian.ofBytes (bytes.1.take 5))
  symbolSize := BitVec.ofNat 16 (BigEndian.ofBytes ((bytes.1.drop 6).take 2))
  sourceBlocks := BitVec.ofNat 8 (BigEndian.ofBytes ((bytes.1.drop 8).take 1))
  subBlocks := BitVec.ofNat 16 (BigEndian.ofBytes ((bytes.1.drop 9).take 2))
  symbolAlignment := BitVec.ofNat 8 (BigEndian.ofBytes ((bytes.1.drop 11).take 1))

def cutBlocks (oti : Oti) : List Nat → Bytes → List SourceBlockEncoder
  | [], _ => []
  | k :: rest, bytes =>
      let block := bytes.take (k * oti.symbolSize.toNat)
      { block, sourcePackets := Strips.deal k (widths oti) block,
        repairPacket := fun _ => List.replicate oti.symbolSize.toNat 0 } ::
          cutBlocks oti rest (bytes.drop (k * oti.symbolSize.toNat))

def blockEncoders (data : Bytes) (mtu : U16) : List SourceBlockEncoder :=
  let size := symbolLength mtu
  let missing := ceilDiv data.length size * size - data.length
  cutBlocks (config data mtu) (blockSizes data mtu) (data ++ List.replicate missing 0)

def sourceSymbol (kept : List EncodingPacket) (esi : Nat) : Option Bytes :=
  (kept.find? fun p => p.encodingSymbolId.toNat = esi).map EncodingPacket.data

def sourceSymbols : Nat → List EncodingPacket → Option (List Bytes)
  | 0, _ => some []
  | k+1, kept =>
      match sourceSymbols k kept, sourceSymbol kept k with
      | some front, some last => some (front ++ [last])
      | _, _ => none

def recover (widths : List Nat) (k : Nat) (kept : List EncodingPacket) : Option Bytes :=
  (sourceSymbols k kept).map (Strips.gather widths)

theorem sourceSymbols_some {k : Nat} {kept : List EncodingPacket} {rows : List Bytes}
    (found : sourceSymbols k kept = some rows) :
    rows.length = k ∧ ∀ esi < k, ∃ p ∈ kept, p.encodingSymbolId.toNat = esi ∧
      rows[esi]? = some p.data := by
  induction k generalizing rows with
  | zero =>
      cases found
      exact ⟨rfl, fun esi small => (Nat.not_lt_zero esi small).elim⟩
  | succ k ih =>
      rw [sourceSymbols] at found
      split at found
      · rename_i front last before here
        cases found
        obtain ⟨length, every⟩ := ih before
        refine ⟨by rw [List.length_append, length]; rfl, fun esi small => ?_⟩
        rcases Nat.lt_succ_iff_lt_or_eq.mp small with earlier | rfl
        · obtain ⟨p, member, id, row⟩ := every esi earlier
          exact ⟨p, member, id, by rwa [List.getElem?_append_left (by omega)]⟩
        · obtain ⟨p, lookup, rfl⟩ := Option.map_eq_some_iff.mp here
          refine ⟨p, List.mem_of_find?_eq_some lookup, ?_, ?_⟩
          · exact of_decide_eq_true (List.find?_some
              (p := fun p : EncodingPacket => decide (p.encodingSymbolId.toNat = esi)) lookup)
          · rw [← length, List.getElem?_concat_length]
      · cases found

theorem length_recover {widths : List Nat} {k : Nat} {kept : List EncodingPacket} {bytes : Bytes}
    (sizes : ∀ p ∈ kept, p.data.length = widths.sum) (answer : recover widths k kept = some bytes) :
    bytes.length = k * widths.sum := by
  obtain ⟨rows, found, rfl⟩ := Option.map_eq_some_iff.mp answer
  obtain ⟨length, every⟩ := sourceSymbols_some found
  rw [Strips.length_gather, length]
  intro row member
  obtain ⟨esi, inside, rfl⟩ := List.getElem_of_mem member
  obtain ⟨p, kept, -, here⟩ := every esi (by omega)
  rw [List.getElem?_eq_getElem inside, Option.some.injEq] at here
  rw [here]
  exact sizes p kept

theorem recover_isSome {k : Nat} {kept : List EncodingPacket} (widths : List Nat)
    (source : ∀ esi < k, ∃ p ∈ kept, p.encodingSymbolId.toNat = esi) :
    (recover widths k kept).isSome := by
  rw [recover, Option.isSome_map]
  induction k with
  | zero => rfl
  | succ k ih =>
      obtain ⟨front, before⟩ := Option.isSome_iff_exists.mp
        (ih fun esi small => source esi (Nat.lt_succ_of_lt small))
      obtain ⟨p, member, esi⟩ := source k (Nat.lt_succ_self k)
      obtain ⟨last, found⟩ : ∃ last, sourceSymbol kept k = some last := by
        apply Option.isSome_iff_exists.mp
        rw [sourceSymbol, Option.isSome_map, List.find?_isSome]
        exact ⟨p, member, by simpa using esi⟩
      rw [sourceSymbols, before, found]
      rfl

theorem sum_widths {oti : Oti} (positive : 1 ≤ oti.subBlocks.toNat)
    (aligned : oti.symbolSize.toNat % oti.symbolAlignment.toNat = 0) :
    (widths oti).sum = oti.symbolSize.toNat := by
  rw [widths, List.sum_map_mul_right, List.map_id', sum_partition positive]
  exact Nat.div_mul_cancel (Nat.dvd_of_mod_eq_zero aligned)

end Systematic

def systematic : Raptorq where
  serialize := Systematic.serialize
  deserialize := Systematic.deserialize
  config := Systematic.config
  blockEncoders := Systematic.blockEncoders
  DecoderState := (List Nat × Nat) × List EncodingPacket
  newDecoder := fun _ oti blockLength =>
    ((Systematic.widths oti, blockLength.toNat / oti.symbolSize.toNat), [])
  decodePacket := fun (layout, kept) packet =>
    let (kept, answer) := accumulate (Systematic.recover layout.1 layout.2) kept packet
    ((layout, kept), answer)

namespace Systematic

theorem feed_fresh (sbn : U8) (oti : Oti) (blockLength : U64) (packets : List EncodingPacket) :
    (feed SourceBlockDecoder.step (.fresh systematic sbn oti blockLength) packets).2 =
      (feed (accumulate (recover (widths oti) (blockLength.toNat / oti.symbolSize.toNat))) []
        packets).2 := by
  let embed (kept : List EncodingPacket) : SourceBlockDecoder systematic :=
    { sourceBlockId := sbn, symbolSize := oti.symbolSize,
      state := ((widths oti, blockLength.toNat / oti.symbolSize.toNat), kept) }
  let inner := accumulate (recover (widths oti) (blockLength.toNat / oti.symbolSize.toNat))
  have run : feed SourceBlockDecoder.step (embed []) packets =
      (embed (feed inner [] packets).1, (feed inner [] packets).2) :=
    feed_embed SourceBlockDecoder.step (fun _ _ => rfl) [] packets
  exact congrArg Prod.snd run

theorem exactLength : systematic.ExactLength := by
  intro sbn oti blockLength pre packets fit bytes h
  rw [feed_fresh] at h
  obtain ⟨taken, early, answer⟩ := feed_accumulate_some h
  rw [List.nil_append] at answer
  have sum := sum_widths pre.subBlocks_pos pre.alignment_dvd
  have length := length_recover (fun p member => by
    rw [sum]
    exact (fit p (early.subset member)).1) answer
  rw [length, sum]
  exact Nat.div_mul_cancel (Nat.dvd_of_mod_eq_zero pre.whole_symbols)

theorem decodesFromSource : systematic.DecodesFromSource := by
  intro sbn oti blockLength pre packets fit source
  rw [feed_fresh]
  apply feed_accumulate_isSome
  · rintro rfl
    obtain ⟨p, member, -⟩ := source 0 pre.symbols_pos
    cases member
  · rw [List.nil_append]
    exact recover_isSome (widths oti) source

end Systematic

end AirFerry.RaptorqCore
