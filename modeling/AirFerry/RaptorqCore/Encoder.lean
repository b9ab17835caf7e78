import AirFerry.RaptorqCore.Decoder

namespace AirFerry.RaptorqCore

structure CachedBlock where
  encoder : SourceBlockEncoder
  sourcePackets : List Bytes

structure Encoder where
  config : Config
  objectMeta : ObjectMeta
  blocks : List CachedBlock

namespace Encoder

def new (R : Raptorq) (data : Bytes) (config : Config) : Except Error Encoder := do
  if data = [] then throw .emptyData
  let config ← Config.new config.symbolSize
  let mtu ← config.mtu
  let oti := R.config data mtu
  let rqBlocks := R.blockEncoders data mtu
  let blocks := rqBlocks.map fun b => { encoder := b, sourcePackets := b.sourcePackets }
  let objectMeta := ObjectMeta.fromEncoder R (BitVec.ofNat 64 data.length) config oti rqBlocks
  return { config, objectMeta, blocks }

def block (e : Encoder) (sbn : U32) : Except Error CachedBlock :=
  match e.blocks[sbn.toNat]? with
  | some b => .ok b
  | none => .error (.blockOutOfRange sbn.toNat (asU32 e.blocks.length))

def sourceSymbol (e : Encoder) (sbn esi : U32) : Exec (Except Error Symbol) := do
  match e.block sbn with
  | .error error => return .error error
  | .ok block =>
      let blockMeta ← index e.objectMeta.blocks sbn.toNat
      if blockMeta.numSourceSymbols.toNat ≤ esi.toNat then
        return .error (.unknownSymbol sbn.toNat esi.toNat)
      let data ← index block.sourcePackets esi.toNat
      return .ok (.new sbn esi data)

def repairSymbol (k start : Nat) (sbn : U32) (packet : Bytes) (i : Nat) : Except Error Symbol :=
  match (checkedAddU32 k start).bind fun s => checkedAddU32 s (asU32 i) with
  | none => .error (.unknownSymbol sbn.toNat (2 ^ 32 - 1))
  | some esi => .ok (.new sbn (BitVec.ofNat 32 esi) packet)

def repairSymbols (e : Encoder) (sbn start count : U32) : Exec (Except Error (List Symbol)) := do
  match e.block sbn with
  | .error error => return .error error
  | .ok block =>
      let blockMeta ← index e.objectMeta.blocks sbn.toNat
      let k := blockMeta.numSourceSymbols.toNat
      if count = 0 then return .ok []
      match (checkedAddU32 k start.toNat).bind fun v => checkedAddU32 v (count.toNat - 1) with
      | none => return .error (.unknownSymbol sbn.toNat (2 ^ 32 - 1))
      | some lastEsi =>
          if 2 ^ 24 ≤ lastEsi then return .error (.unknownSymbol sbn.toNat lastEsi)
          let packets := (List.range count.toNat).map fun i =>
            block.encoder.repairPacket (start.toNat + i)
          return packets.zipIdx.mapM fun (packet, i) => repairSymbol k start.toNat sbn packet i

def packetMtu (config : Config) : U16 := BitVec.ofNat 16 (config.symbolSize.toNat + payloadIdSize)

def ofBlocks (R : Raptorq) (data : Bytes) (config : Config) (oti : Oti)
    (rqBlocks : List SourceBlockEncoder) : Encoder where
  config := config
  objectMeta := .fromEncoder R (BitVec.ofNat 64 data.length) config oti rqBlocks
  blocks := rqBlocks.map fun b => { encoder := b, sourcePackets := b.sourcePackets }

theorem new_eq {R : Raptorq} {data : Bytes} {config : Config} (nonempty : data ≠ []) :
    new R data config = .ok (ofBlocks R data config (R.config data (packetMtu config))
      (R.blockEncoders data (packetMtu config))) := by
  have legal : Config.new config.symbolSize = .ok config := dif_pos config.legal
  unfold new
  simp only [if_neg nonempty, legal, config.mtu_ok, bind, Except.bind, pure, Except.pure]
  rfl

theorem new_nil (R : Raptorq) (config : Config) : new R [] config = .error .emptyData := rfl

structure Serves (e : Encoder) (sbn : U32) (enc : SourceBlockEncoder) (m : SourceBlockMeta) :
    Prop where
  cached : e.blocks[sbn.toNat]? = some { encoder := enc, sourcePackets := enc.sourcePackets }
  described : e.objectMeta.blocks[sbn.toNat]? = some m
  symbols : m.numSourceSymbols.toNat = enc.sourcePackets.length

variable {e : Encoder} {sbn esi : U32} {enc : SourceBlockEncoder} {m : SourceBlockMeta}

theorem Serves.block (serves : Serves e sbn enc m) :
    e.block sbn = .ok { encoder := enc, sourcePackets := enc.sourcePackets } := by
  rw [Encoder.block, serves.cached]

theorem Serves.sourceSymbol (serves : Serves e sbn enc m)
    (source : esi.toNat < enc.sourcePackets.length) :
    e.sourceSymbol sbn esi = .ok (.ok (.new sbn esi enc.sourcePackets[esi.toNat])) := by
  have small : ¬ m.numSourceSymbols.toNat ≤ esi.toNat := by
    rw [serves.symbols]
    exact not_le.mpr source
  unfold Encoder.sourceSymbol
  simp only [serves.block, index_of_getElem? serves.described, bind, Except.bind, pure, Except.pure,
    if_neg small, index_of_lt source]

theorem Serves.repairSymbols (serves : Serves e sbn enc m) {start : U32}
    (small : enc.sourcePackets.length + start.toNat < 2 ^ 24) :
    e.repairSymbols sbn start 1 = .ok (.ok [.new sbn
      (BitVec.ofNat 32 (enc.sourcePackets.length + start.toNat)) (enc.repairPacket start.toNat)]) := by
  have first : checkedAddU32 enc.sourcePackets.length start.toNat =
      some (enc.sourcePackets.length + start.toNat) := checkedAddU32_of_lt (by omega)
  have last : checkedAddU32 (enc.sourcePackets.length + start.toNat) 0 =
      some (enc.sourcePackets.length + start.toNat) := checkedAddU32_of_lt (by omega)
  have one : (1 : U32).toNat = 1 := rfl
  unfold Encoder.repairSymbols
  simp only [serves.block, index_of_getElem? serves.described, bind, Except.bind, pure, Except.pure,
    serves.symbols, one, Nat.sub_self, first, Option.bind_some, last, if_neg (not_le.mpr small)]
  rw [if_neg (by decide)]
  simp [repairSymbol, first, last, asU32, bind, Except.bind, pure, Except.pure]

end Encoder

namespace ObjectMeta

theorem blocks_fromEncoder {R : Raptorq} {dataLen : U64} {config : Config} {oti : Oti}
    {encs : List SourceBlockEncoder} {i : Nat} {enc : SourceBlockEncoder}
    (found : encs[i]? = some enc) :
    (fromEncoder R dataLen config oti encs).blocks[i]? = some {
      sbn := BitVec.ofNat 32 i, numSourceSymbols := BitVec.ofNat 32 enc.sourcePackets.length,
      blockLength := (BitVec.ofNat 32 enc.sourcePackets.length).setWidth 64 *
        config.symbolSize.setWidth 64 } := by
  simp [fromEncoder, found]

theorem length_blocks_fromEncoder (R : Raptorq) (dataLen : U64) (config : Config) (oti : Oti)
    (encs : List SourceBlockEncoder) :
    (fromEncoder R dataLen config oti encs).blocks.length = encs.length := by
  simp [fromEncoder]

end ObjectMeta

end AirFerry.RaptorqCore
