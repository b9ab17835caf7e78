import AirFerry.Proof.FreshSymbols
import AirFerry.Proof.Stage

namespace AirFerry.Proof
open Library QrProtocol RaptorqCore TransferEngine

variable {R : Raptorq}

theorem encodedMeta_valid (defaults : R.WithDefaults) (nonempty : padded ≠ [])
    (whole : padded.length % config.symbolSize.toNat = 0) (small : padded.length ≤ maxObjectBytes) :
    (encodedMeta R padded config).Valid R := by
  have fits : Encodable padded (Encoder.packetMtu config) := encodable_of_budget nonempty small
  have oti := encodedMeta_oti defaults fits
  have size := symbolLength_packetMtu config
  have align : (8 : U8).toNat = 8 := rfl
  have count : (encodedMeta R padded config).blocks.length =
      (blockSizes padded (Encoder.packetMtu config)).length := by
    rw [encodedMeta_blocks defaults fits, List.length_mapIdx]
  have transfer : (encodedMeta R padded config).transferLength.toNat = padded.length := by
    apply encodedMeta_transferLength
    simp only [maxObjectBytes] at small
    omega
  have bytes := encodedMeta_totalBlockLength defaults fits
  rw [ceilDiv_mul (symbolSize_pos config) whole] at bytes
  exact {
    symbolSize := config.legal
    oti_symbolSize := by rw [oti, defaults.symbolSize padded _ fits, size]; rfl
    oti_transferLength := by rw [oti, defaults.transferLength padded _ fits]; rfl
    subBlocks_pos := by rw [oti]; exact defaults.subBlocks_pos padded _ fits
    alignment_pos := by rw [oti, defaults.symbolAlignment padded _ fits]; decide
    alignment_dvd := by
      rw [oti, defaults.symbolAlignment padded _ fits, defaults.symbolSize padded _ fits, size, align]
      exact config.legal.aligned
    subBlocks_le := by
      rw [oti, defaults.symbolAlignment padded _ fits, defaults.symbolSize padded _ fits, align]
      exact defaults.subBlocks_le padded _ fits
    reserved := by
      have byte := defaults.reserved padded _ fits
      exact (List.getElem?_eq_some_iff.mp byte).2
    transferLength_pos := by rw [transfer]; exact List.length_pos_iff.mpr nonempty
    transferLength_le := by rw [transfer]; exact small
    blocks_pos := by
      rw [count, length_blockSizes fits.nonempty fits.wide, size]
      exact ceilDiv_pos (ceilDiv_pos (List.length_pos_iff.mpr nonempty) (symbolSize_pos config))
        (by decide)
    blocks_le := count.trans_le fits.blocks
    sourceBlocks := by rw [oti, defaults.sourceBlocks padded _ fits, count]
    block := by
      intro i b found
      rw [encodedMeta_blocks defaults fits, List.getElem?_mapIdx, Option.map_eq_some_iff] at found
      obtain ⟨k, located, rfl⟩ := found
      obtain ⟨positive, small⟩ := mem_blockSizes fits.nonempty fits.wide (List.mem_of_getElem? located)
      have symbols := @blockMeta_symbols config i k small
      exact ⟨rfl, by rw [symbols]; exact positive, by rw [symbols]; exact small,
        by rw [symbols]; exact blockMeta_length small⟩
    symbols_le := by
      rw [encodedMeta_totalSymbols defaults fits]
      exact symbols_le_of_budget small
    bytes_le := by rw [bytes]; exact small.trans (Nat.le_add_right ..)
    covered := by rw [transfer, bytes] }

variable {crc32 : Bytes → U32} {s : SenderSession} {encs : List SourceBlockEncoder}

theorem foldl_checked (xs : List SourceBlockMeta) (acc : Nat)
    (small : acc + (xs.map fun b => b.numSourceSymbols.toNat).sum < 2 ^ 32) :
    xs.foldl (fun sum b => sum.bind fun total =>
      if total + b.numSourceSymbols.toNat < 2 ^ 32 then some (total + b.numSourceSymbols.toNat)
      else none) (some acc) = some (acc + (xs.map fun b => b.numSourceSymbols.toNat).sum) := by
  induction xs generalizing acc with
  | nil => rfl
  | cons b rest ih =>
      simp only [List.map_cons, List.sum_cons] at small ⊢
      rw [List.foldl_cons, Option.bind_some, if_pos (by omega), ih _ (by omega), Nat.add_assoc]

theorem Ready.geometry (ready : Ready s encs) (payload : Bytes) (emitted : Nat) (nowMs : U64) :
    ReceiverSession.frameGeometryInvalid (descriptorOf crc32 s payload emitted nowMs) s.objectMeta =
      false := by
  have total := foldl_checked s.objectMeta.blocks 0 (by rw [Nat.zero_add]; exact ready.total_lt)
  have symbols : s.totalK.toNat = s.objectMeta.totalSymbols := by
    rw [ready.total, BitVec.toNat_ofNat]
    exact Nat.mod_eq_of_lt ready.total_lt
  rw [Nat.zero_add] at total
  simp only [ReceiverSession.frameGeometryInvalid, descriptorOf, Frame.build, total, symbols,
    decide_eq_false_iff_not, not_or, not_not]
  exact ⟨trivial, rfl, rfl⟩

theorem Ready.descriptor_valid_iff (ready : Ready s encs) {payload : Bytes} {info : DescriptorInfo}
    (read : Descriptor.parsePayload payload = .ok (some info)) (object : info.objectMeta = s.objectMeta)
    (emitted : Nat) (nowMs : U64) :
    (∃ found, validDescriptor R (descriptorOf crc32 s payload emitted nowMs) = some found) ↔
      ValidDescriptor R s.sessionId info := by
  constructor
  · rintro ⟨found, passed⟩
    obtain ⟨valid, -, again⟩ := validDescriptor_spec passed
    have same : Descriptor.parsePayload payload = .ok (some found) := again
    rw [read] at same
    cases same
    exact valid
  · intro valid
    refine ⟨info, validDescriptor_of_valid read ?_ valid⟩
    rw [object]
    exact ready.geometry payload emitted nowMs

end AirFerry.Proof
