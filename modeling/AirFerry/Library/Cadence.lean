import Mathlib.Data.Int.CardIntervalMod
import Mathlib.Data.Nat.Periodic
import Mathlib.Tactic

namespace AirFerry.Library.Cadence

def beats (interval start n : Nat) : List Nat :=
  (List.range' start n).filter fun place => decide (place % interval = 0)

theorem mem_beats {interval start n place : Nat} :
    place ∈ beats interval start n ↔
      (start ≤ place ∧ place < start + n) ∧ place % interval = 0 := by
  rw [beats, List.mem_filter, List.mem_range'_1, decide_eq_true_eq]

theorem nodup_beats (interval start n : Nat) : (beats interval start n).Nodup :=
  List.Nodup.filter _ List.nodup_range'

theorem beats_succ (interval n : Nat) :
    beats interval 0 (n + 1) = beats interval 0 n ++ if n % interval = 0 then [n] else [] := by
  rw [beats, List.range'_concat, List.filter_append, beats, Nat.one_mul, Nat.zero_add,
    List.filter_singleton]
  by_cases due : n % interval = 0
  · rw [if_pos due, decide_eq_true due, cond_true]
  · rw [if_neg due, decide_eq_false due, cond_false]

theorem length_beats_zero {interval : Nat} (positive : 0 < interval) (n : Nat) :
    (beats interval 0 n).length = n / interval + if 0 < n % interval then 1 else 0 := by
  have count := Nat.count_modEq_card n positive 0
  rw [Nat.zero_mod, Nat.count] at count
  rw [← count, beats, ← List.countP_eq_length_filter, ← List.range_eq_range']
  apply List.countP_congr
  intro place _
  simp only [Nat.ModEq, Nat.zero_mod]
  exact decide_eq_true_iff.trans decide_eq_true_iff.symm

theorem length_beats_le {interval : Nat} (sparse : 2 ≤ interval) (n : Nat) :
    (beats interval 0 n).length ≤ (n + 1) / 2 := by
  have twice : 2 * (n / interval) ≤ interval * (n / interval) := Nat.mul_le_mul_right _ sparse
  have whole := Nat.div_add_mod n interval
  rw [length_beats_zero (Nat.zero_lt_of_lt sparse)]
  generalize interval * (n / interval) = marked at *
  split <;> omega

theorem length_beats_period {interval : Nat} (positive : 0 < interval) (start slots : Nat) :
    (beats interval start (interval * slots)).length = slots := by
  have periodic : Function.Periodic (fun place => place % interval = 0) (interval * slots) := by
    intro place
    simp only [Nat.add_mul_mod_self_left]
  have window (start : Nat) : (beats interval start (interval * slots)).length =
      (interval * slots).count fun place => place % interval = 0 := by
    rw [← Nat.filter_multiset_Ico_card_eq_of_periodic start _ _ periodic, beats]
    nth_rewrite 1 [← Nat.add_sub_cancel_left start (interval * slots)]
    rfl
  rw [window start, ← window 0, length_beats_zero positive, Nat.mul_mod_right,
    Nat.mul_div_cancel_left slots positive]
  rfl

theorem beats_inj {interval slots start first second : Nat} (coprime : interval.Coprime slots)
    (early : first ∈ beats interval start (interval * slots))
    (late : second ∈ beats interval start (interval * slots))
    (same : first % slots = second % slots) : first = second := by
  obtain ⟨⟨low, high⟩, marked⟩ := mem_beats.mp early
  obtain ⟨⟨low', high'⟩, marked'⟩ := mem_beats.mp late
  have beat : first ≡ second [MOD interval] := marked.trans marked'.symm
  have whole : first ≡ second [MOD interval * slots] :=
    (Nat.modEq_and_modEq_iff_modEq_mul coprime).mp ⟨beat, same⟩
  rcases le_total first second with order | order
  · have apart := (Nat.modEq_iff_dvd' order).mp whole
    have near := Nat.eq_zero_of_dvd_of_lt apart (by omega)
    omega
  · have apart := (Nat.modEq_iff_dvd' order).mp whole.symm
    have near := Nat.eq_zero_of_dvd_of_lt apart (by omega)
    omega

/-- A window of as many periods as there are slots marks each slot once. -/
theorem beats_slots {interval slots : Nat} (positive : 0 < interval) (some : 0 < slots)
    (coprime : interval.Coprime slots) (start : Nat) :
    ((beats interval start (interval * slots)).map (· % slots)).Perm (List.range slots) := by
  have distinct : ((beats interval start (interval * slots)).map (· % slots)).Nodup := by
    refine List.Nodup.map_on ?_ (nodup_beats ..)
    intro first early second late same
    exact beats_inj coprime early late same
  have inside : (beats interval start (interval * slots)).map (· % slots) ⊆ List.range slots := by
    intro slot member
    obtain ⟨place, -, rfl⟩ := List.mem_map.mp member
    exact List.mem_range.mpr (Nat.mod_lt place some)
  apply (List.subperm_of_subset distinct inside).perm_of_length_le
  rw [List.length_map, length_beats_period positive, List.length_range]

end AirFerry.Library.Cadence
