import AirFerry.Proof.Emission
import AirFerry.RaptorqCore.WithDefaults

namespace AirFerry.Proof
open Library QrProtocol RaptorqCore TransferEngine

variable {R : Raptorq}

theorem symbolLength_packetMtu (config : Config) :
    symbolLength (Encoder.packetMtu config) = config.symbolSize.toNat := packet_length config

theorem packetMtu_wide (config : Config) : 64 ≤ (Encoder.packetMtu config).toNat := by
  have lower := config.legal.lower
  simp only [minSymbolSize] at lower
  rw [packetMtu_toNat]
  omega

theorem symbols_le_of_budget {config : Config} {data : Bytes} (small : data.length ≤ maxObjectBytes) :
    ceilDiv data.length config.symbolSize.toNat ≤ maxTotalSourceSymbols := by
  have lower := config.legal.lower
  simp only [minSymbolSize] at lower
  have below := ceilDiv_mul_lt data.length (symbolSize_pos config)
  simp only [maxObjectBytes] at small
  simp only [maxTotalSourceSymbols]
  by_contra many
  obtain ⟨extra, split⟩ : ∃ extra, ceilDiv data.length config.symbolSize.toNat = 524288 + extra + 1 :=
    ⟨ceilDiv data.length config.symbolSize.toNat - 524289, by omega⟩
  have floor : 524288 * 64 ≤ (524288 + extra) * config.symbolSize.toNat :=
    Nat.mul_le_mul (Nat.le_add_right ..) lower
  rw [split, Nat.succ_mul] at below
  omega

theorem encodable_of_budget {config : Config} {data : Bytes} (nonempty : data ≠ [])
    (small : data.length ≤ maxObjectBytes) : Encodable data (Encoder.packetMtu config) := by
  refine ⟨nonempty, packetMtu_wide config, ?_⟩
  have symbols := @symbols_le_of_budget config data small
  rw [length_blockSizes nonempty (packetMtu_wide config), symbolLength_packetMtu]
  simp only [maxTotalSourceSymbols] at symbols
  have below := ceilDiv_mul_lt (ceilDiv data.length config.symbolSize.toNat)
    (by decide : 0 < maxSourceSymbolsPerBlock)
  simp only [maxSourceSymbolsPerBlock] at below ⊢
  omega

def encodedMeta (R : Raptorq) (padded : Bytes) (config : Config) : ObjectMeta :=
  .fromEncoder R (BitVec.ofNat 64 padded.length) config (R.config padded (Encoder.packetMtu config))
    (R.blockEncoders padded (Encoder.packetMtu config))

variable {padded : Bytes} {config : Config}

theorem encodedMeta_transferLength (small : padded.length < 2 ^ 64) :
    (encodedMeta R padded config).transferLength.toNat = padded.length :=
  Nat.mod_eq_of_lt small

theorem encodedMeta_oti (defaults : R.WithDefaults)
    (fits : Encodable padded (Encoder.packetMtu config)) :
    (encodedMeta R padded config).oti R = R.config padded (Encoder.packetMtu config) :=
  defaults.oti padded _ fits

def blockMeta (config : Config) (i k : Nat) : SourceBlockMeta where
  sbn := BitVec.ofNat 32 i
  numSourceSymbols := BitVec.ofNat 32 k
  blockLength := BitVec.ofNat 64 (k * config.symbolSize.toNat)

theorem blockMeta_symbols {i k : Nat} (small : k ≤ maxSourceSymbolsPerBlock) :
    (blockMeta config i k).numSourceSymbols.toNat = k := by
  simp only [maxSourceSymbolsPerBlock] at small
  exact Nat.mod_eq_of_lt (by omega)

theorem blockMeta_length {i k : Nat} (small : k ≤ maxSourceSymbolsPerBlock) :
    (blockMeta config i k).blockLength.toNat = k * config.symbolSize.toNat := by
  have product := Nat.mul_le_mul small config.legal.upper
  simp only [maxSourceSymbolsPerBlock, maxSymbolSize] at product
  exact Nat.mod_eq_of_lt (by omega)

theorem encodedMeta_blocks (defaults : R.WithDefaults)
    (fits : Encodable padded (Encoder.packetMtu config)) :
    (encodedMeta R padded config).blocks =
      (blockSizes padded (Encoder.packetMtu config)).mapIdx (blockMeta config) := by
  have sizes := defaults.partition padded _ fits
  apply List.ext_getElem?
  intro i
  rw [List.getElem?_mapIdx, ← sizes, List.getElem?_map]
  cases found : (R.blockEncoders padded (Encoder.packetMtu config))[i]? with
  | none =>
      rw [List.getElem?_eq_none_iff] at found
      exact List.getElem?_eq_none ((ObjectMeta.length_blocks_fromEncoder ..).trans_le found)
  | some enc =>
      have member : enc.sourcePackets.length ∈ blockSizes padded (Encoder.packetMtu config) := by
        rw [← sizes]
        exact List.mem_map_of_mem (List.mem_of_getElem? found)
      have small := (mem_blockSizes fits.nonempty fits.wide member).2
      have length : (BitVec.ofNat 32 enc.sourcePackets.length).setWidth 64 *
          config.symbolSize.setWidth 64 =
            BitVec.ofNat 64 (enc.sourcePackets.length * config.symbolSize.toNat) := by
        simp only [maxSourceSymbolsPerBlock] at small
        have size := config.symbolSize.isLt
        apply BitVec.eq_of_toNat_eq
        rw [BitVec.toNat_mul, BitVec.toNat_setWidth, BitVec.toNat_setWidth, BitVec.toNat_ofNat,
          BitVec.toNat_ofNat, Nat.mod_eq_of_lt (by omega : enc.sourcePackets.length < 2 ^ 32),
          Nat.mod_eq_of_lt (by omega : enc.sourcePackets.length < 2 ^ 64),
          Nat.mod_eq_of_lt (by omega : config.symbolSize.toNat < 2 ^ 64)]
      rw [encodedMeta, ObjectMeta.blocks_fromEncoder found, length]
      rfl

theorem encodedMeta_symbols (defaults : R.WithDefaults)
    (fits : Encodable padded (Encoder.packetMtu config)) :
    ((encodedMeta R padded config).blocks.map fun b => b.numSourceSymbols.toNat) =
      blockSizes padded (Encoder.packetMtu config) := by
  rw [encodedMeta_blocks defaults fits]
  apply List.ext_getElem?
  intro i
  rw [List.getElem?_map, List.getElem?_mapIdx]
  cases found : (blockSizes padded (Encoder.packetMtu config))[i]? with
  | none => rfl
  | some k =>
      have small := (mem_blockSizes fits.nonempty fits.wide (List.mem_of_getElem? found)).2
      exact congrArg some (blockMeta_symbols small)

theorem encodedMeta_lengths (defaults : R.WithDefaults)
    (fits : Encodable padded (Encoder.packetMtu config)) :
    ((encodedMeta R padded config).blocks.map fun b => b.blockLength.toNat) =
      (blockSizes padded (Encoder.packetMtu config)).map (· * config.symbolSize.toNat) := by
  rw [encodedMeta_blocks defaults fits]
  apply List.ext_getElem?
  intro i
  rw [List.getElem?_map, List.getElem?_mapIdx, List.getElem?_map]
  cases found : (blockSizes padded (Encoder.packetMtu config))[i]? with
  | none => rfl
  | some k =>
      have small := (mem_blockSizes fits.nonempty fits.wide (List.mem_of_getElem? found)).2
      exact congrArg some (blockMeta_length small)

theorem encodedMeta_totalSymbols (defaults : R.WithDefaults)
    (fits : Encodable padded (Encoder.packetMtu config)) :
    (encodedMeta R padded config).totalSymbols = ceilDiv padded.length config.symbolSize.toNat := by
  rw [ObjectMeta.totalSymbols, encodedMeta_symbols defaults fits, sum_blockSizes fits.nonempty fits.wide,
    symbolLength_packetMtu]

theorem encodedMeta_totalBlockLength (defaults : R.WithDefaults)
    (fits : Encodable padded (Encoder.packetMtu config)) :
    (encodedMeta R padded config).totalBlockLength =
      ceilDiv padded.length config.symbolSize.toNat * config.symbolSize.toNat := by
  rw [ObjectMeta.totalBlockLength, encodedMeta_lengths defaults fits, List.sum_map_mul_right,
    List.map_id', sum_blockSizes fits.nonempty fits.wide, symbolLength_packetMtu]

theorem newInner_of_fits {payload : Bytes} {config : SenderConfig} (sessionId : U128)
    (fileMeta : FileMeta) {segmentMeta : Option SegmentMeta} (valid : config.validate = .ok ())
    (nonempty : padToSymbols payload config.codec ≠ [])
    (fits : minimumSize
      (encodedMeta R (padToSymbols payload config.codec) config.codec).blocks.length
      segmentMeta.isSome ≤ config.codec.symbolSize.toNat)
    (total : (encodedMeta R (padToSymbols payload config.codec) config.codec).totalSymbols < 2 ^ 32) :
    SenderSession.newInner R payload sessionId config fileMeta segmentMeta =
      .ok (.ok (newSession R (padToSymbols payload config.codec) sessionId config fileMeta
        segmentMeta)) := by
  obtain ⟨p, built⟩ := exists_buildPayloadInner (m := encodedMeta R (padToSymbols payload config.codec)
    config.codec) fileMeta fits
  have sum : sumU32 ((encodedMeta R (padToSymbols payload config.codec) config.codec).blocks.map
      fun b => b.numSourceSymbols.toNat) = .ok _ := sumU32_of_lt total
  unfold encodedMeta at built sum
  unfold SenderSession.newInner
  simp only [valid, Encoder.new_eq nonempty, Encoder.ofBlocks, built, sum, bind, Except.bind, pure,
    Except.pure]
  rfl

end AirFerry.Proof
