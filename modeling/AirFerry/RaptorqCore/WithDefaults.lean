import AirFerry.RaptorqCore.Systematic

/-!
# What `with_defaults` does

The RFC's parameters for a payload: at most 56403 symbols a block, as few blocks as that allows, and
sizes that differ by at most one.
-/

namespace AirFerry.RaptorqCore
open Library Library.Incremental

theorem mem_partition {i n k : Nat} (positive : 0 < i) (limit : 0 < n)
    (member : k ∈ partition i (ceilDiv i n)) : 1 ≤ k ∧ k ≤ n := by
  have blocks := ceilDiv_pos positive limit
  have few := @ceilDiv_le i n limit
  have covered := le_ceilDiv_mul i limit
  generalize ceilDiv i n = j at *
  have one : 1 ≤ i / j := Nat.div_pos few blocks
  have most : i / j ≤ n := Nat.div_le_of_le_mul (by rwa [Nat.mul_comm] at covered ⊢)
  simp only [partition, List.mem_append, List.mem_replicate] at member
  rcases member with ⟨odd, rfl⟩ | ⟨-, rfl⟩
  · refine ⟨by omega, ?_⟩
    by_contra above
    have full : i / j = n := by omega
    have whole := Nat.div_add_mod i j
    rw [full] at whole
    omega
  · exact ⟨one, most⟩

/-- What fits the 8-bit block count of the OTI. -/
structure Encodable (data : Bytes) (mtu : U16) : Prop where
  nonempty : data ≠ []
  wide : 64 ≤ mtu.toNat
  blocks : (blockSizes data mtu).length ≤ 255

theorem symbolLength_pos {mtu : U16} (wide : 64 ≤ mtu.toNat) : 0 < symbolLength mtu := by
  unfold symbolLength
  omega

theorem symbolLength_lt (mtu : U16) : symbolLength mtu < 2 ^ 16 := by
  have := mtu.isLt
  unfold symbolLength
  omega

theorem sum_blockSizes {data : Bytes} {mtu : U16} (nonempty : data ≠ []) (wide : 64 ≤ mtu.toNat) :
    (blockSizes data mtu).sum = ceilDiv data.length (symbolLength mtu) :=
  sum_partition (ceilDiv_pos (ceilDiv_pos (List.length_pos_iff.mpr nonempty)
    (symbolLength_pos wide)) (by decide))

theorem mem_blockSizes {data : Bytes} {mtu : U16} (nonempty : data ≠ []) (wide : 64 ≤ mtu.toNat)
    {k : Nat} (member : k ∈ blockSizes data mtu) : 1 ≤ k ∧ k ≤ maxSourceSymbolsPerBlock :=
  mem_partition (ceilDiv_pos (List.length_pos_iff.mpr nonempty) (symbolLength_pos wide)) (by decide)
    member

theorem length_blockSizes {data : Bytes} {mtu : U16} (nonempty : data ≠ []) (wide : 64 ≤ mtu.toNat) :
    (blockSizes data mtu).length =
      ceilDiv (ceilDiv data.length (symbolLength mtu)) maxSourceSymbolsPerBlock :=
  length_partition (ceilDiv_pos (ceilDiv_pos (List.length_pos_iff.mpr nonempty)
    (symbolLength_pos wide)) (by decide))

theorem blockSizes_nil {mtu : U16} (wide : 64 ≤ mtu.toNat) : blockSizes [] mtu = [] := by
  have none : ceilDiv ([] : Bytes).length (symbolLength mtu) = 0 := by
    have := symbolLength_pos wide
    exact Nat.div_eq_of_lt (by rw [List.length_nil]; omega)
  rw [blockSizes, none]
  rfl

theorem Encodable.length_lt {data : Bytes} {mtu : U16} (fits : Encodable data mtu) :
    data.length < 2 ^ 40 := by
  have symbols := le_ceilDiv_mul data.length (symbolLength_pos fits.wide)
  have blocks := le_ceilDiv_mul (ceilDiv data.length (symbolLength mtu))
    (by decide : 0 < maxSourceSymbolsPerBlock)
  have count := fits.blocks
  rw [length_blockSizes fits.nonempty fits.wide] at count
  have size := symbolLength_lt mtu
  simp only [maxSourceSymbolsPerBlock] at blocks count
  generalize ceilDiv (ceilDiv data.length (symbolLength mtu)) 56403 = z at *
  generalize ceilDiv data.length (symbolLength mtu) = k at *
  have few : k ≤ 255 * 56403 := blocks.trans (Nat.mul_le_mul_right 56403 count)
  have bytes := Nat.mul_le_mul few size.le
  omega

structure Raptorq.WithDefaults (R : Raptorq) : Prop where
  oti : ∀ data mtu, Encodable data mtu →
    R.deserialize (R.serialize (R.config data mtu)) = R.config data mtu
  reserved : ∀ data mtu, Encodable data mtu → (R.serialize (R.config data mtu)).1[5]? = some 0
  transferLength : ∀ data mtu, Encodable data mtu →
    (R.config data mtu).transferLength = BitVec.ofNat 64 data.length
  symbolSize : ∀ data mtu, Encodable data mtu → (R.config data mtu).symbolSize.toNat = symbolLength mtu
  sourceBlocks : ∀ data mtu, Encodable data mtu →
    (R.config data mtu).sourceBlocks.toNat = (blockSizes data mtu).length
  subBlocks_pos : ∀ data mtu, Encodable data mtu → 1 ≤ (R.config data mtu).subBlocks.toNat
  subBlocks_le : ∀ data mtu, Encodable data mtu →
    (R.config data mtu).subBlocks.toNat ≤ symbolLength mtu / 8
  symbolAlignment : ∀ data mtu, Encodable data mtu → (R.config data mtu).symbolAlignment = 8
  partition : ∀ data mtu, Encodable data mtu →
    ((R.blockEncoders data mtu).map fun enc => enc.sourcePackets.length) = blockSizes data mtu

/-- The blocks of a payload of whole symbols are its pieces. -/
def Raptorq.SplitsData (R : Raptorq) : Prop :=
  ∀ data mtu, Encodable data mtu → data.length % symbolLength mtu = 0 →
    ((R.blockEncoders data mtu).map SourceBlockEncoder.block).flatten = data

/-- A block decoder that is only fed packets of its encoder answers with the encoder's block. -/
def Raptorq.DecodesBlocks (R : Raptorq) : Prop :=
  ∀ data mtu, Encodable data mtu → ∀ (i : Nat) enc, (R.blockEncoders data mtu)[i]? = some enc →
    ∀ packets : List EncodingPacket,
      (∀ p ∈ packets, ∃ esi : U32, esi.toNat < 2 ^ 24 ∧ p = enc.packet (BitVec.ofNat 8 i) esi) →
      ∀ bytes, (feed SourceBlockDecoder.step (.fresh R (BitVec.ofNat 8 i) (R.config data mtu)
        (BitVec.ofNat 64 (enc.sourcePackets.length * symbolLength mtu))) packets).2 = some bytes →
          bytes = enc.block

namespace Systematic

theorem subBlocks_bounds (size symbols : Nat) :
    1 ≤ subBlocks size symbols ∧ subBlocks size symbols ≤ max (size / 64) 1 := by
  unfold subBlocks
  dsimp only
  cases found : ((List.range (size / 64)).map (· + 1)).find? fun n => symbols ≤ roomFor size n with
  | none =>
      rw [Option.getD_none]
      exact ⟨le_max_right .., le_rfl⟩
  | some n =>
      obtain ⟨i, inside, rfl⟩ := List.mem_map.mp (List.mem_of_find?_eq_some found)
      rw [List.mem_range] at inside
      exact ⟨Nat.le_add_left 1 i, (Nat.succ_le_of_lt inside).trans (le_max_left ..)⟩

theorem config_symbolSize (data : Bytes) (mtu : U16) :
    (config data mtu).symbolSize.toNat = symbolLength mtu :=
  toNat_ofNat_of_lt (symbolLength_lt mtu)

theorem config_subBlocks (data : Bytes) (mtu : U16) :
    1 ≤ (config data mtu).subBlocks.toNat ∧
      (config data mtu).subBlocks.toNat ≤ max (symbolLength mtu / 64) 1 := by
  have bounds := subBlocks_bounds (symbolLength mtu)
    (ceilDiv (ceilDiv data.length (symbolLength mtu)) (blockSizes data mtu).length)
  have small := symbolLength_lt mtu
  have value : (config data mtu).subBlocks.toNat = subBlocks (symbolLength mtu)
      (ceilDiv (ceilDiv data.length (symbolLength mtu)) (blockSizes data mtu).length) :=
    toNat_ofNat_of_lt (by omega)
  rwa [value]

theorem sum_widths_config (data : Bytes) (mtu : U16) :
    (widths (config data mtu)).sum = symbolLength mtu := by
  rw [sum_widths (config_subBlocks data mtu).1, config_symbolSize]
  rw [config_symbolSize]
  change symbolLength mtu % 8 = 0
  unfold symbolLength
  omega

theorem lengths_cutBlocks (oti : Oti) (sizes : List Nat) (bytes : Bytes) :
    ((cutBlocks oti sizes bytes).map fun enc => enc.sourcePackets.length) = sizes := by
  induction sizes generalizing bytes with
  | nil => rfl
  | cons k rest ih => rw [cutBlocks, List.map_cons, ih, Strips.length_deal]

theorem flatten_cutBlocks (oti : Oti) (sizes : List Nat) (bytes : Bytes) :
    ((cutBlocks oti sizes bytes).map SourceBlockEncoder.block).flatten =
      bytes.take (sizes.sum * oti.symbolSize.toNat) := by
  induction sizes generalizing bytes with
  | nil => simp [cutBlocks]
  | cons k rest ih =>
      rw [cutBlocks, List.map_cons, List.flatten_cons, ih, List.sum_cons, Nat.add_mul, List.take_add]

theorem mem_cutBlocks {oti : Oti} {sizes : List Nat} {bytes : Bytes} {enc : SourceBlockEncoder}
    (long : sizes.sum * oti.symbolSize.toNat ≤ bytes.length)
    (member : enc ∈ cutBlocks oti sizes bytes) :
    enc.block.length = enc.sourcePackets.length * oti.symbolSize.toNat ∧
      enc.sourcePackets = Strips.deal enc.sourcePackets.length (widths oti) enc.block ∧
      ∀ i, (enc.repairPacket i).length = oti.symbolSize.toNat := by
  induction sizes generalizing bytes with
  | nil => cases member
  | cons k rest ih =>
      rw [List.sum_cons, Nat.add_mul] at long
      rcases List.mem_cons.mp member with rfl | member
      · refine ⟨?_, ?_, fun _ => List.length_replicate⟩
        · rw [List.length_take_of_le (by omega), Strips.length_deal]
        · rw [Strips.length_deal]
      · exact ih (by rw [List.length_drop]; omega) member

theorem length_padded (data : Bytes) {mtu : U16} (wide : 64 ≤ mtu.toNat) :
    data.length + (ceilDiv data.length (symbolLength mtu) * symbolLength mtu - data.length) =
      ceilDiv data.length (symbolLength mtu) * symbolLength mtu :=
  Nat.add_sub_cancel' (le_ceilDiv_mul data.length (symbolLength_pos wide))

theorem mem_blockEncoders {data : Bytes} {mtu : U16} (wide : 64 ≤ mtu.toNat) {enc : SourceBlockEncoder}
    (member : enc ∈ blockEncoders data mtu) :
    data ≠ [] ∧ enc.sourcePackets.length ∈ blockSizes data mtu ∧
      enc.block.length = enc.sourcePackets.length * symbolLength mtu ∧
      enc.sourcePackets =
        Strips.deal enc.sourcePackets.length (widths (config data mtu)) enc.block ∧
      ∀ i, (enc.repairPacket i).length = symbolLength mtu := by
  have size : enc.sourcePackets.length ∈ blockSizes data mtu := by
    rw [← lengths_cutBlocks (config data mtu) (blockSizes data mtu)]
    exact List.mem_map_of_mem member
  have nonempty : data ≠ [] := by
    rintro rfl
    rw [blockSizes_nil wide] at size
    cases size
  have whole := @mem_cutBlocks (config data mtu) _ _ _ ?_ member
  · rw [config_symbolSize] at whole
    exact ⟨nonempty, size, whole⟩
  · rw [List.length_append, List.length_replicate, length_padded data wide, config_symbolSize]
    exact Nat.mul_le_mul_right _ (sum_blockSizes nonempty wide).le

theorem packet_sizes {data : Bytes} {mtu : U16} (wide : 64 ≤ mtu.toNat) {enc : SourceBlockEncoder}
    (member : enc ∈ blockEncoders data mtu) :
    ∀ packet ∈ enc.sourcePackets, packet.length = symbolLength mtu := by
  obtain ⟨-, -, length, dealt, -⟩ := mem_blockEncoders wide member
  have sum := sum_widths_config data mtu
  intro packet inside
  rw [dealt] at inside
  rw [← sum]
  exact Strips.mem_deal (by rw [sum, length]) inside

theorem packetizes : systematic.Packetizes where
  blocks := by
    intro data mtu nonempty wide none
    have sizes := lengths_cutBlocks (config data mtu) (blockSizes data mtu)
      (data ++ List.replicate (ceilDiv data.length (symbolLength mtu) * symbolLength mtu - data.length) 0)
    have count := length_blockSizes nonempty wide
    rw [← sizes, List.length_map] at count
    have empty : (systematic.blockEncoders data mtu).length = 0 := by rw [none]; rfl
    have positive := ceilDiv_pos (ceilDiv_pos (List.length_pos_iff.mpr nonempty)
      (symbolLength_pos wide)) (by decide : 0 < maxSourceSymbolsPerBlock)
    exact absurd (count.symm.trans empty) positive.ne'
  symbols_pos := by
    intro data mtu wide enc member
    obtain ⟨nonempty, size, -⟩ := mem_blockEncoders wide member
    exact (mem_blockSizes nonempty wide size).1
  symbols_lt := by
    intro data mtu wide enc member
    obtain ⟨nonempty, size, -⟩ := mem_blockEncoders wide member
    have few := (mem_blockSizes nonempty wide size).2
    simp only [maxSourceSymbolsPerBlock] at few
    omega
  source_size := by
    intro data mtu wide enc member
    exact packet_sizes wide member
  repair_size := by
    intro data mtu wide enc member i _
    obtain ⟨-, -, -, -, repair⟩ := mem_blockEncoders wide member
    exact repair i

theorem deserialize_serialize (oti : Oti) (small : oti.transferLength.toNat < 2 ^ 40) :
    deserialize (serialize oti) = oti := by
  have value : oti.transferLength.toNat % 256 ^ 5 = oti.transferLength.toNat := Nat.mod_eq_of_lt small
  have first : BitVec.ofNat 64 (BigEndian.ofBytes (toBe 5 oti.transferLength)) =
      oti.transferLength := by
    rw [toBe, BigEndian.ofBytes_toBytes, value, BitVec.ofNat_toNat, BitVec.setWidth_eq]
  have field (n : Nat) {w : Nat} (width : w = 8 * n) (value : BitVec w) :
      BitVec.ofNat w (BigEndian.ofBytes (toBe n value)) = value :=
    BigEndian.ofNat_ofBytes_toBytes n width value
  have skip (n : Nat) {w : Nat} (value : BitVec w) (rest : Bytes) :
      (toBe n value ++ rest).drop n = rest := List.drop_left' (length_toBe n value)
  have keep (n : Nat) {w : Nat} (value : BitVec w) (rest : Bytes) :
      (toBe n value ++ rest).take n = toBe n value := List.take_left' (length_toBe n value)
  have after6 : (serialize oti).1.drop 6 = toBe 2 oti.symbolSize ++ (toBe 1 oti.sourceBlocks ++
      (toBe 2 oti.subBlocks ++ toBe 1 oti.symbolAlignment)) := by
    rw [← List.drop_drop (i := 1) (j := 5), serialize, skip]
    rfl
  have after8 : (serialize oti).1.drop 8 = toBe 1 oti.sourceBlocks ++
      (toBe 2 oti.subBlocks ++ toBe 1 oti.symbolAlignment) := by
    rw [← List.drop_drop (i := 2) (j := 6), after6, skip]
  have after9 : (serialize oti).1.drop 9 = toBe 2 oti.subBlocks ++ toBe 1 oti.symbolAlignment := by
    rw [← List.drop_drop (i := 1) (j := 8), after8, skip]
  have after11 : (serialize oti).1.drop 11 = toBe 1 oti.symbolAlignment ++ [] := by
    rw [← List.drop_drop (i := 2) (j := 9), after9, skip, List.append_nil]
  rw [deserialize, after6, after8, after9, after11, keep, keep, keep, keep, field 2 rfl, field 1 rfl,
    field 2 rfl, field 1 rfl, serialize, keep, first]

theorem withDefaults : systematic.WithDefaults where
  oti := by
    intro data mtu fits
    apply deserialize_serialize
    have small := fits.length_lt
    change (BitVec.ofNat 64 data.length).toNat < _
    rw [BitVec.toNat_ofNat, Nat.mod_eq_of_lt (by omega)]
    exact small
  reserved := by
    intro data mtu fits
    change (serialize (config data mtu)).1[5]? = some 0
    rw [serialize, List.getElem?_append_right (by rw [length_toBe])]
    rw [length_toBe]
    rfl
  transferLength := fun data mtu fits => rfl
  symbolSize := fun data mtu fits => config_symbolSize data mtu
  sourceBlocks := by
    intro data mtu fits
    have few := fits.blocks
    change (BitVec.ofNat 8 (blockSizes data mtu).length).toNat = _
    rw [BitVec.toNat_ofNat]
    exact Nat.mod_eq_of_lt (by omega)
  subBlocks_pos := fun data mtu fits => (config_subBlocks data mtu).1
  subBlocks_le := by
    intro data mtu fits
    have wide := fits.wide
    refine (config_subBlocks data mtu).2.trans ?_
    unfold symbolLength
    omega
  symbolAlignment := fun data mtu fits => rfl
  partition := fun data mtu fits => lengths_cutBlocks ..

theorem splitsData : systematic.SplitsData := by
  intro data mtu fits whole
  have length := ceilDiv_mul (symbolLength_pos fits.wide) whole
  change ((cutBlocks _ _ _).map SourceBlockEncoder.block).flatten = data
  rw [flatten_cutBlocks, config_symbolSize]
  change ((data ++ List.replicate (ceilDiv data.length (symbolLength mtu) * symbolLength mtu -
    data.length) 0).take ((blockSizes data mtu).sum * symbolLength mtu)) = data
  rw [sum_blockSizes fits.nonempty fits.wide, length, Nat.sub_self, List.replicate_zero,
    List.append_nil, List.take_length]

theorem sourceSymbols_packets {enc : SourceBlockEncoder} {sbn : U8} {kept : List EncodingPacket}
    {rows : List Bytes}
    (own : ∀ p ∈ kept, ∃ esi : U32, esi.toNat < 2 ^ 24 ∧ p = enc.packet sbn esi)
    (found : sourceSymbols enc.sourcePackets.length kept = some rows) : rows = enc.sourcePackets := by
  obtain ⟨length, every⟩ := sourceSymbols_some found
  apply List.ext_getElem? fun i => ?_
  by_cases inside : i < enc.sourcePackets.length
  · obtain ⟨p, member, place, row⟩ := every i inside
    obtain ⟨esi, -, rfl⟩ := own p member
    have place : esi.toNat = i := place
    rw [row, List.getElem?_eq_getElem inside]
    simp only [SourceBlockEncoder.packet, place, dif_pos inside]
  · rw [List.getElem?_eq_none (by omega), List.getElem?_eq_none (by omega)]

theorem decodesBlocks : systematic.DecodesBlocks := by
  intro data mtu fits i enc found packets own bytes answer
  obtain ⟨nonempty, count, block, dealt, -⟩ :=
    mem_blockEncoders fits.wide (List.mem_of_getElem? found)
  have few := (mem_blockSizes nonempty fits.wide count).2
  have positive := symbolLength_pos fits.wide
  have small := symbolLength_lt mtu
  have product := Nat.mul_le_mul few small.le
  simp only [maxSourceSymbolsPerBlock] at product
  have length : (BitVec.ofNat 64 (enc.sourcePackets.length * symbolLength mtu)).toNat =
      enc.sourcePackets.length * symbolLength mtu := toNat_ofNat_of_lt (by omega)
  have size : (systematic.config data mtu).symbolSize.toNat = symbolLength mtu :=
    config_symbolSize data mtu
  rw [feed_fresh, length, size, Nat.mul_div_cancel _ positive] at answer
  obtain ⟨taken, early, answered⟩ := feed_accumulate_some answer
  rw [List.nil_append] at answered
  obtain ⟨rows, received, rfl⟩ := Option.map_eq_some_iff.mp answered
  have sum := sum_widths_config data mtu
  rw [sourceSymbols_packets (fun p member => own p (early.subset member)) received, dealt]
  change Strips.gather (widths (config data mtu)) _ = enc.block
  rw [Strips.gather_deal (by rw [sum, block]), sum, ← block, List.take_length]

end Systematic

end AirFerry.RaptorqCore
