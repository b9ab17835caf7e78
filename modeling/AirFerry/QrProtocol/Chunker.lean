import AirFerry.RaptorqCore.Config

namespace AirFerry.QrProtocol
open RaptorqCore

def padToSymbols (data : Bytes) (config : Config) : Bytes :=
  let t := config.symbolSize.toNat
  let rem := data.length % t
  if rem = 0 then data else data ++ List.replicate (t - rem) 0

theorem take_padToSymbols (data : Bytes) (config : Config) :
    (padToSymbols data config).take data.length = data := by
  unfold padToSymbols
  dsimp only
  split
  · exact List.take_length
  · exact List.take_left

theorem symbolSize_pos (config : Config) : 0 < config.symbolSize.toNat := by
  have lower := config.legal.lower
  simp only [minSymbolSize] at lower
  omega

theorem length_padToSymbols (data : Bytes) (config : Config) :
    (padToSymbols data config).length =
      ceilDiv data.length config.symbolSize.toNat * config.symbolSize.toNat := by
  have positive := symbolSize_pos config
  have rest := Nat.mod_lt data.length positive
  unfold padToSymbols
  dsimp only
  split
  · rename_i whole
    exact (ceilDiv_mul positive whole).symm
  · rename_i short
    have whole := Nat.div_add_mod' data.length config.symbolSize.toNat
    have quotient : ceilDiv data.length config.symbolSize.toNat =
        data.length / config.symbolSize.toNat + 1 := by
      apply Nat.div_eq_of_lt_le
      · rw [Nat.succ_mul]
        omega
      · rw [Nat.succ_mul, Nat.succ_mul]
        omega
    rw [List.length_append, List.length_replicate, quotient, Nat.succ_mul]
    omega

theorem padToSymbols_ne_nil {data : Bytes} (nonempty : data ≠ []) (config : Config) :
    padToSymbols data config ≠ [] := by
  intro empty
  have kept := take_padToSymbols data config
  rw [empty, List.take_nil] at kept
  exact nonempty kept.symm

end AirFerry.QrProtocol
