import AirFerry.Proof.Stage
import AirFerry.TransferEngine.ReceiverAbi

/-!
# Hostile frames

A run of the receiver is a value, whatever frames it is shown: no index, sum or upstream call of it
aborts. What the confirmed metadata can make the decoder allocate is bounded.
-/

namespace AirFerry.Proof
open QrProtocol RaptorqCore TransferEngine ReceiverSession

variable {E : Env}

theorem Matches.objectMeta_valid {sessionId : U128} {s : ReceiverSession E} {stage : Stage}
    (h : Matches sessionId s stage) {m : ObjectMeta} (held : s.objectMeta = some m) :
    m.Valid E.raptorq := by
  cases stage with
  | waiting cache =>
      rw [h.2.objectMeta] at held
      cases held
  | recovering found described log =>
      rw [h.2.2.2.objectMeta] at held
      cases held
      exact h.2.2.2.valid

structure Bounded (R : Raptorq) (m : ObjectMeta) : Prop where
  symbols : m.totalSymbols ≤ 524288
  bytes : m.totalBlockLength ≤ 32 * 1024 * 1024 + m.symbolSize.toNat * m.blocks.length
  symbolSize : (m.oti R).symbolSize.toNat = m.symbolSize.toNat ∧ 0 < m.symbolSize.toNat
  block : ∀ b ∈ m.blocks, b.sbn.toNat ≤ 254 ∧
    b.blockLength.toNat = b.numSourceSymbols.toNat * m.symbolSize.toNat ∧
    1 ≤ b.numSourceSymbols.toNat ∧ b.numSourceSymbols.toNat ≤ 56403

theorem bounded_of_valid {R : Raptorq} {m : ObjectMeta} (v : m.Valid R) : Bounded R m where
  symbols := v.symbols_le
  bytes := v.bytes_le
  symbolSize := by
    have lower := v.symbolSize.lower
    simp only [minSymbolSize] at lower
    exact ⟨v.oti_symbolSize, by omega⟩
  block := by
    intro b member
    have found := v.position member
    have block := v.block _ _ found
    exact ⟨(v.sbn_toNat found).2, block.length_eq, block.symbols_pos, block.symbols_le⟩

/-- `Exec` has no `.ok` for an index out of range, an overflowing sum over the block table, or a call
into the codec outside its preconditions `NewDecoderPre` and `DecodePre`. -/
theorem hostile_frames_never_abort (E : Env) (sessionId : U128)
    (frames : List (WireFrame E.crc32)) :
    ∃ s outs, fromPending E sessionId frames = .ok (s, outs) ∧
      (∀ out ∈ outs, (∃ complete, out = .ok complete) ∨
        ∃ got, out = .error (.sessionMismatch sessionId got)) ∧
      ∀ m, s.objectMeta = some m → Bounded E.raptorq m := by
  obtain ⟨s, outs, run, final, expected⟩ := fromPending_simulates E sessionId frames
  exact ⟨s, outs, run, expected, fun m held => bounded_of_valid (final.objectMeta_valid held)⟩

end AirFerry.Proof
