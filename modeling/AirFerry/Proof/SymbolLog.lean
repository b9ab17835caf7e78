import AirFerry.TransferEngine.Receiver

namespace AirFerry.Proof
open RaptorqCore TransferEngine

variable {R : Raptorq}

def receivedOf (log : List Symbol) (sbn : U32) : Finset U32 :=
  ((log.filter fun s => s.id.sbn = sbn).map fun s => s.id.esi).toFinset

def sourceCount (log : List Symbol) (b : SourceBlockMeta) : Nat :=
  ((receivedOf log b.sbn).filter fun esi => esi.toNat < b.numSourceSymbols.toNat).card

def receivedCount (m : ObjectMeta) (log : List Symbol) : Nat :=
  (m.blocks.map fun b => (receivedOf log b.sbn).card).sum

def reconstructed (R : Raptorq) (m : ObjectMeta) (log : List Symbol) (b : SourceBlockMeta) : Bool :=
  (Decoder.blockOf R m log b).decoded.isSome

def blockSymbols (R : Raptorq) (m : ObjectMeta) (log : List Symbol) (b : SourceBlockMeta) : Nat :=
  if reconstructed R m log b then b.numSourceSymbols.toNat else sourceCount log b

def decodedCount (R : Raptorq) (m : ObjectMeta) (log : List Symbol) : Nat :=
  (m.blocks.map (blockSymbols R m log)).sum

theorem mem_receivedOf {log : List Symbol} {sbn esi : U32} :
    esi ∈ receivedOf log sbn ↔ (⟨sbn, esi⟩ : SymbolId) ∈ log.map Symbol.id := by
  simp only [receivedOf, List.mem_toFinset, List.mem_map, List.mem_filter, decide_eq_true_eq]
  constructor
  · rintro ⟨s, ⟨member, rfl⟩, rfl⟩
    exact ⟨s, member, rfl⟩
  · rintro ⟨s, member, same⟩
    exact ⟨s, ⟨member, congrArg SymbolId.sbn same⟩, congrArg SymbolId.esi same⟩

@[simp] theorem receivedOf_nil (sbn : U32) : receivedOf [] sbn = ∅ := rfl

theorem receivedOf_append_same {log : List Symbol} {s : Symbol} {sbn : U32}
    (same : s.id.sbn = sbn) : receivedOf (log ++ [s]) sbn = insert s.id.esi (receivedOf log sbn) := by
  ext esi
  simp only [Finset.mem_insert, mem_receivedOf, List.map_append, List.mem_append, List.map_cons,
    List.map_nil, List.mem_singleton]
  subst same
  rw [or_comm]
  apply or_congr_left
  constructor
  · intro equal
    exact congrArg SymbolId.esi equal
  · rintro rfl
    rfl

theorem receivedOf_append_other {log : List Symbol} {s : Symbol} {sbn : U32}
    (other : s.id.sbn ≠ sbn) : receivedOf (log ++ [s]) sbn = receivedOf log sbn := by
  simp [receivedOf, other]

theorem receivedOf_append_old {log : List Symbol} {s : Symbol}
    (old : s.id.esi ∈ receivedOf log s.id.sbn) (sbn : U32) :
    receivedOf (log ++ [s]) sbn = receivedOf log sbn := by
  by_cases same : s.id.sbn = sbn
  · rw [receivedOf_append_same same]
    exact Finset.insert_eq_of_mem (same ▸ old)
  · exact receivedOf_append_other same

theorem sourceCount_append_same {log : List Symbol} {s : Symbol} {b : SourceBlockMeta}
    (same : s.id.sbn = b.sbn) (fresh : s.id.esi ∉ receivedOf log b.sbn) :
    sourceCount (log ++ [s]) b =
      sourceCount log b + if s.id.esi.toNat < b.numSourceSymbols.toNat then 1 else 0 := by
  rw [sourceCount, receivedOf_append_same same, Finset.filter_insert]
  by_cases source : s.id.esi.toNat < b.numSourceSymbols.toNat
  · rw [if_pos source, if_pos source, Finset.card_insert_of_notMem]
    · rfl
    · exact fun member => fresh (Finset.mem_filter.mp member).1
  · rw [if_neg source, if_neg source]
    rfl

theorem sourceCount_append_other {log : List Symbol} {s : Symbol} {b : SourceBlockMeta}
    (other : s.id.sbn ≠ b.sbn) : sourceCount (log ++ [s]) b = sourceCount log b := by
  rw [sourceCount, receivedOf_append_other other]
  rfl

theorem card_below (n : Nat) (esis : Finset U32) (below : ∀ esi ∈ esis, esi.toNat < n) :
    esis.card ≤ n := by
  have injected := Finset.card_le_card_of_injOn (t := Finset.range n) BitVec.toNat
    (fun esi member => Finset.mem_coe.mpr (Finset.mem_range.mpr (below esi member)))
    (fun a _ b _ same => BitVec.eq_of_toNat_eq same)
  rwa [Finset.card_range] at injected

theorem sourceCount_le (log : List Symbol) (b : SourceBlockMeta) :
    sourceCount log b ≤ b.numSourceSymbols.toNat :=
  card_below _ _ fun _ member => (Finset.mem_filter.mp member).2

theorem card_receivedOf_le {m : ObjectMeta} {log : List Symbol} (fits : ∀ s ∈ log, Fits m s)
    (sbn : U32) : (receivedOf log sbn).card ≤ 2 ^ 24 := by
  apply card_below
  intro esi member
  obtain ⟨s, inLog, same⟩ := List.mem_map.mp (mem_receivedOf.mp member)
  have here : s.id.esi = esi := congrArg SymbolId.esi same
  exact here ▸ (fits s inLog).esi_lt

theorem blockSymbols_le (m : ObjectMeta) (log : List Symbol) (b : SourceBlockMeta) :
    blockSymbols R m log b ≤ b.numSourceSymbols.toNat := by
  unfold blockSymbols
  split
  · exact le_rfl
  · exact sourceCount_le log b

theorem decodedCount_le (m : ObjectMeta) (log : List Symbol) :
    decodedCount R m log ≤ m.totalSymbols :=
  List.sum_le_sum fun b _ => blockSymbols_le m log b

theorem sum_map_add_one {α : Type} (xs : List α) (f g : α → Nat) (p : α → Bool)
    (step : ∀ x ∈ xs, g x = f x + if p x then 1 else 0) :
    (xs.map g).sum = (xs.map f).sum + xs.countP p := by
  induction xs with
  | nil => rfl
  | cons x rest ih =>
      simp only [List.map_cons, List.sum_cons, List.countP_cons, step x (by simp),
        ih fun y member => step y (by simp [member])]
      omega

theorem countP_block {m : ObjectMeta} (v : m.Valid R) {sbn : U32}
    (inside : sbn.toNat < m.blocks.length) : m.blocks.countP (fun b => b.sbn = sbn) = 1 := by
  have names : m.blocks.map (fun b => b.sbn.toNat) = List.range m.blocks.length := by
    apply List.ext_getElem?
    intro i
    cases found : m.blocks[i]? with
    | none =>
        have beyond := List.getElem?_eq_none_iff.mp found
        simp [beyond]
    | some b =>
        have within := (List.getElem?_eq_some_iff.mp found).1
        rw [List.getElem?_map, found, Option.map_some, (v.sbn_toNat found).1,
          List.getElem?_range within]
  have once : (m.blocks.map fun b => b.sbn.toNat).count sbn.toNat = 1 := by
    rw [names]
    exact List.count_eq_one_of_mem List.nodup_range (List.mem_range.mpr inside)
  rw [List.count, List.countP_map] at once
  rw [← once]
  apply List.countP_congr
  intro b _
  simp [BitVec.toNat_inj]

theorem receivedCount_append {m : ObjectMeta} (v : m.Valid R) {log : List Symbol} {s : Symbol}
    (inside : s.id.sbn.toNat < m.blocks.length) (fresh : s.id.esi ∉ receivedOf log s.id.sbn) :
    receivedCount m (log ++ [s]) = receivedCount m log + 1 := by
  unfold receivedCount
  rw [← countP_block v inside]
  apply sum_map_add_one
  intro b _
  by_cases same : s.id.sbn = b.sbn
  · rw [receivedOf_append_same same, Finset.card_insert_of_notMem (same ▸ fresh)]
    simp [same]
  · rw [receivedOf_append_other same]
    simp [Ne.symm same]

theorem receivedCount_le {m : ObjectMeta} (v : m.Valid R) {log : List Symbol}
    (fits : ∀ s ∈ log, Fits m s) : receivedCount m log ≤ 255 * 2 ^ 24 := by
  have each : ∀ n ∈ m.blocks.map (fun b => (receivedOf log b.sbn).card), n ≤ 2 ^ 24 := by
    intro n member
    obtain ⟨b, -, rfl⟩ := List.mem_map.mp member
    exact card_receivedOf_le fits b.sbn
  have total := List.sum_le_card_nsmul _ _ each
  rw [List.length_map, smul_eq_mul] at total
  exact total.trans (Nat.mul_le_mul_right _ v.blocks_le)

theorem receivedCount_lt {m : ObjectMeta} (v : m.Valid R) {log : List Symbol}
    (fits : ∀ s ∈ log, Fits m s) : receivedCount m log + 1 < 2 ^ 32 := by
  have few := receivedCount_le v fits
  omega

theorem sumU32_cards {m : ObjectMeta} (v : m.Valid R) {log : List Symbol}
    (fits : ∀ s ∈ log, Fits m s) :
    sumU32 ((m.blocks.map fun b => receivedOf log b.sbn).map fun block => asU32 block.card) =
      .ok (receivedCount m log) := by
  have room := receivedCount_lt v fits
  have cards : ∀ sbn, asU32 (receivedOf log sbn).card = (receivedOf log sbn).card := by
    intro sbn
    have small := card_receivedOf_le fits sbn
    exact asU32_of_lt (by omega)
  rw [List.map_map]
  simp only [Function.comp_def, cards]
  exact sumU32_of_lt (by change receivedCount m log < _; omega)

theorem sumU32_symbols {m : ObjectMeta} (v : m.Valid R) :
    sumU32 (m.blocks.map fun b => b.numSourceSymbols.toNat) = .ok m.totalSymbols := by
  have small := v.symbols_le
  simp only [maxTotalSourceSymbols] at small
  exact sumU32_of_lt (by change m.totalSymbols < _; omega)

theorem asU32_blocks {m : ObjectMeta} (v : m.Valid R) : asU32 m.blocks.length = m.blocks.length :=
  asU32_of_lt (by have := v.blocks_le; omega)

end AirFerry.Proof
