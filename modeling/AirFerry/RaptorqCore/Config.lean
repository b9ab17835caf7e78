import AirFerry.RaptorqCore.Upstream

namespace AirFerry.RaptorqCore

inductive Error
  | emptyData
  | invalidSymbolSize
  | invalidObjectMeta (reason : String)
  | blockOutOfRange (sbn total : Nat)
  | notDecodable (sbn : Nat)
  | unknownSymbol (sbn esi : Nat)
deriving DecidableEq, Repr

def minSymbolSize : Nat := 64

def maxSymbolSize : Nat := 65528

def payloadIdSize : Nat := 4

structure LegalSymbolSize (symbolSize : U32) : Prop where
  lower : minSymbolSize ≤ symbolSize.toNat
  upper : symbolSize.toNat ≤ maxSymbolSize
  aligned : symbolSize.toNat % 8 = 0

instance (symbolSize : U32) : Decidable (LegalSymbolSize symbolSize) :=
  decidable_of_iff (minSymbolSize ≤ symbolSize.toNat ∧ symbolSize.toNat ≤ maxSymbolSize ∧
      symbolSize.toNat % 8 = 0)
    ⟨fun ⟨a, b, c⟩ => ⟨a, b, c⟩, fun ⟨a, b, c⟩ => ⟨a, b, c⟩⟩

/-- Codec configuration. The field is private in the source, so `Config::new` is the only way in. -/
structure Config where
  symbolSize : U32
  legal : LegalSymbolSize symbolSize
deriving DecidableEq

def Config.new (symbolSize : U32) : Except Error Config :=
  if legal : LegalSymbolSize symbolSize then .ok ⟨symbolSize, legal⟩ else .error .invalidSymbolSize

def Config.mtu (config : Config) : Except Error U16 :=
  if config.symbolSize.toNat + payloadIdSize < 2 ^ 16 then
    .ok (BitVec.ofNat 16 (config.symbolSize.toNat + payloadIdSize))
  else .error .invalidSymbolSize

theorem Config.mtu_ok (config : Config) :
    config.mtu = .ok (BitVec.ofNat 16 (config.symbolSize.toNat + payloadIdSize)) := by
  have upper := config.legal.upper
  simp only [maxSymbolSize] at upper
  exact if_pos (by simp only [payloadIdSize]; omega)

theorem Config.new_ok {symbolSize : U32} {config : Config}
    (h : Config.new symbolSize = .ok config) : config.symbolSize = symbolSize := by
  simp only [Config.new] at h
  split at h
  · cases h
    rfl
  · cases h

end AirFerry.RaptorqCore
