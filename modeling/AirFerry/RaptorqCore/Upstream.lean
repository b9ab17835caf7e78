import AirFerry.Exec
import AirFerry.Library.Incremental

/-!
# The upstream `raptorq` crate

The crate is not part of the repository, so it enters as a parameter: `Raptorq` lists the functions
the core calls. The calls the core makes go through `SourceBlockDecoder.new` and
`SourceBlockDecoder.decode`, which abort where the crate asserts, divides or slices.
-/

namespace AirFerry.RaptorqCore
open Library.Incremental

def maxSourceSymbolsPerBlock : Nat := 56403

structure Oti where
  transferLength : U64
  symbolSize : U16
  sourceBlocks : U8
  subBlocks : U16
  symbolAlignment : U8
deriving DecidableEq, Repr

structure EncodingPacket where
  sourceBlockNumber : U8
  encodingSymbolId : U32
  data : Bytes
deriving DecidableEq, Repr

/-- `SourceBlockEncoder`: the bytes it was made of, the data of its source packets, and of the repair
packet at each offset. -/
structure SourceBlockEncoder where
  block : Bytes
  sourcePackets : List Bytes
  repairPacket : Nat → Bytes

structure Raptorq where
  serialize : Oti → Octets 12
  deserialize : Octets 12 → Oti
  config : Bytes → U16 → Oti
  blockEncoders : Bytes → U16 → List SourceBlockEncoder
  DecoderState : Type
  newDecoder : U8 → Oti → U64 → DecoderState
  /-- One packet in; the block's bytes once the solver succeeds. -/
  decodePacket : DecoderState → EncodingPacket → DecoderState × Option Bytes

variable {R : Raptorq}

structure SourceBlockDecoder (R : Raptorq) where
  sourceBlockId : U8
  symbolSize : U16
  state : R.DecoderState

structure NewDecoderPre (sbn : U8) (oti : Oti) (blockLength : U64) : Prop where
  sbn_le : sbn.toNat ≤ 254
  symbolSize_pos : 0 < oti.symbolSize.toNat
  whole_symbols : blockLength.toNat % oti.symbolSize.toNat = 0
  symbols_pos : 1 ≤ blockLength.toNat / oti.symbolSize.toNat
  symbols_le : blockLength.toNat / oti.symbolSize.toNat ≤ maxSourceSymbolsPerBlock
  alignment_pos : 0 < oti.symbolAlignment.toNat
  alignment_dvd : oti.symbolSize.toNat % oti.symbolAlignment.toNat = 0
  subBlocks_pos : 1 ≤ oti.subBlocks.toNat
  subBlocks_le : oti.subBlocks.toNat ≤ oti.symbolSize.toNat / oti.symbolAlignment.toNat

instance (sbn : U8) (oti : Oti) (blockLength : U64) :
    Decidable (NewDecoderPre sbn oti blockLength) :=
  decidable_of_iff
    (sbn.toNat ≤ 254 ∧ 0 < oti.symbolSize.toNat ∧ blockLength.toNat % oti.symbolSize.toNat = 0 ∧
      1 ≤ blockLength.toNat / oti.symbolSize.toNat ∧
      blockLength.toNat / oti.symbolSize.toNat ≤ maxSourceSymbolsPerBlock ∧
      0 < oti.symbolAlignment.toNat ∧ oti.symbolSize.toNat % oti.symbolAlignment.toNat = 0 ∧
      1 ≤ oti.subBlocks.toNat ∧ oti.subBlocks.toNat ≤ oti.symbolSize.toNat / oti.symbolAlignment.toNat)
    ⟨fun ⟨a, b, c, d, e, f, g, h, i⟩ => ⟨a, b, c, d, e, f, g, h, i⟩,
      fun ⟨a, b, c, d, e, f, g, h, i⟩ => ⟨a, b, c, d, e, f, g, h, i⟩⟩

/-- What the crate needs of a packet handed to a block decoder; `PayloadId::new` asserts the
24-bit encoding symbol id. -/
structure DecodePre (d : SourceBlockDecoder R) (packet : EncodingPacket) : Prop where
  block : packet.sourceBlockNumber = d.sourceBlockId
  esi_lt : packet.encodingSymbolId.toNat < 2 ^ 24
  size : packet.data.length = d.symbolSize.toNat

instance (d : SourceBlockDecoder R) (packet : EncodingPacket) : Decidable (DecodePre d packet) :=
  decidable_of_iff
    (packet.sourceBlockNumber = d.sourceBlockId ∧ packet.encodingSymbolId.toNat < 2 ^ 24 ∧
      packet.data.length = d.symbolSize.toNat)
    ⟨fun ⟨a, b, c⟩ => ⟨a, b, c⟩, fun ⟨a, b, c⟩ => ⟨a, b, c⟩⟩

def SourceBlockDecoder.fresh (R : Raptorq) (sbn : U8) (oti : Oti) (blockLength : U64) :
    SourceBlockDecoder R :=
  { sourceBlockId := sbn, symbolSize := oti.symbolSize, state := R.newDecoder sbn oti blockLength }

def SourceBlockDecoder.new (sbn : U8) (oti : Oti) (blockLength : U64) :
    Exec (SourceBlockDecoder R) :=
  if NewDecoderPre sbn oti blockLength then .ok (.fresh R sbn oti blockLength)
  else .error .upstream

def SourceBlockDecoder.step (d : SourceBlockDecoder R) (packet : EncodingPacket) :
    SourceBlockDecoder R × Option Bytes :=
  let (state, result) := R.decodePacket d.state packet
  ({ d with state }, result)

def SourceBlockDecoder.decode (d : SourceBlockDecoder R) (packet : EncodingPacket) :
    Exec (SourceBlockDecoder R × Option Bytes) :=
  if DecodePre d packet then .ok (d.step packet) else .error .upstream

@[simp] theorem SourceBlockDecoder.step_sourceBlockId (d : SourceBlockDecoder R)
    (packet : EncodingPacket) : (d.step packet).1.sourceBlockId = d.sourceBlockId := rfl

@[simp] theorem SourceBlockDecoder.step_symbolSize (d : SourceBlockDecoder R)
    (packet : EncodingPacket) : (d.step packet).1.symbolSize = d.symbolSize := rfl

theorem feed_sourceBlockId (d : SourceBlockDecoder R) (packets : List EncodingPacket) :
    (feed SourceBlockDecoder.step d packets).1.sourceBlockId = d.sourceBlockId ∧
      (feed SourceBlockDecoder.step d packets).1.symbolSize = d.symbolSize := by
  induction packets generalizing d with
  | nil => exact ⟨rfl, rfl⟩
  | cons p rest ih =>
      simp only [feed]
      split
      · rename_i s answer heq
        have same : s = (d.step p).1 := by rw [heq]
        exact ⟨same ▸ rfl, same ▸ rfl⟩
      · rename_i s heq
        have same : s = (d.step p).1 := by rw [heq]
        rw [same]
        exact ih (d.step p).1

/-! ## What the crate documents

The properties results assume of the crate; each result names the ones it needs. -/

def SourceBlockEncoder.packet (e : SourceBlockEncoder) (sbn : U8) (esi : U32) : EncodingPacket :=
  { sourceBlockNumber := sbn, encodingSymbolId := esi,
    data := if h : esi.toNat < e.sourcePackets.length then e.sourcePackets[esi.toNat]
      else e.repairPacket (esi.toNat - e.sourcePackets.length) }

structure Raptorq.Packetizes (R : Raptorq) : Prop where
  blocks : ∀ data mtu, data ≠ [] → 64 ≤ mtu.toNat → R.blockEncoders data mtu ≠ []
  symbols_pos : ∀ data mtu, 64 ≤ mtu.toNat → ∀ enc ∈ R.blockEncoders data mtu,
    1 ≤ enc.sourcePackets.length
  symbols_lt : ∀ data mtu, 64 ≤ mtu.toNat → ∀ enc ∈ R.blockEncoders data mtu,
    enc.sourcePackets.length < 2 ^ 32
  source_size : ∀ data mtu, 64 ≤ mtu.toNat → ∀ enc ∈ R.blockEncoders data mtu,
    ∀ packet ∈ enc.sourcePackets, packet.length = mtu.toNat - mtu.toNat % 8
  repair_size : ∀ data mtu, 64 ≤ mtu.toNat → ∀ enc ∈ R.blockEncoders data mtu,
    ∀ i, enc.sourcePackets.length + i < 2 ^ 24 →
      (enc.repairPacket i).length = mtu.toNat - mtu.toNat % 8

def Raptorq.ExactLength (R : Raptorq) : Prop :=
  ∀ sbn oti blockLength, NewDecoderPre sbn oti blockLength → ∀ packets : List EncodingPacket,
    (∀ p ∈ packets, p.data.length = oti.symbolSize.toNat ∧ p.sourceBlockNumber = sbn ∧
      p.encodingSymbolId.toNat < 2 ^ 24) →
    ∀ bytes, (feed SourceBlockDecoder.step (.fresh R sbn oti blockLength) packets).2 = some bytes →
      bytes.length = blockLength.toNat

/-- A block decodes once all its `K` source symbols are fed. -/
def Raptorq.DecodesFromSource (R : Raptorq) : Prop :=
  ∀ sbn oti blockLength, NewDecoderPre sbn oti blockLength → ∀ packets : List EncodingPacket,
    (∀ p ∈ packets, p.data.length = oti.symbolSize.toNat ∧ p.sourceBlockNumber = sbn ∧
      p.encodingSymbolId.toNat < 2 ^ 24) →
    (∀ esi < blockLength.toNat / oti.symbolSize.toNat,
      ∃ p ∈ packets, p.encodingSymbolId.toNat = esi) →
    (feed SourceBlockDecoder.step (.fresh R sbn oti blockLength) packets).2.isSome

end AirFerry.RaptorqCore
