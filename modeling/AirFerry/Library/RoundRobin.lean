import Mathlib.Data.Int.CardIntervalMod
import Mathlib.Data.List.Nodup
import Mathlib.Algebra.BigOperators.Group.List.Basic
import Mathlib.Tactic.SplitIfs

/-!
# Serving queues in turn

`rounds` serves the queues that still have an item, round after round. `turn` walks an endless
circle of queues.
-/

namespace AirFerry.Library.RoundRobin

section
variable {α : Type} (size : α → Nat) (queues : List α)

def served (round : Nat) : List (α × Nat) :=
  (queues.filter fun q => decide (round < size q)).map fun q => (q, round)

def rounds (n : Nat) : List (α × Nat) := (List.range n).flatMap (served size queues)

variable {size queues}

theorem mem_served {round : Nat} {entry : α × Nat} :
    entry ∈ served size queues round ↔
      entry.1 ∈ queues ∧ entry.2 = round ∧ entry.2 < size entry.1 := by
  obtain ⟨q, i⟩ := entry
  simp only [served, List.mem_map, List.mem_filter, decide_eq_true_eq, Prod.mk.injEq]
  constructor
  · rintro ⟨q, ⟨member, inside⟩, rfl, rfl⟩
    exact ⟨member, rfl, inside⟩
  · rintro ⟨member, rfl, inside⟩
    exact ⟨q, ⟨member, inside⟩, rfl, rfl⟩

theorem mem_rounds {n : Nat} {entry : α × Nat} :
    entry ∈ rounds size queues n ↔ entry.1 ∈ queues ∧ entry.2 < n ∧ entry.2 < size entry.1 := by
  simp only [rounds, List.mem_flatMap, List.mem_range, mem_served]
  constructor
  · rintro ⟨round, small, member, rfl, inside⟩
    exact ⟨member, small, inside⟩
  · rintro ⟨member, small, inside⟩
    exact ⟨entry.2, small, member, rfl, inside⟩

theorem rounds_succ (n : Nat) :
    rounds size queues (n + 1) = rounds size queues n ++ served size queues n := by
  simp [rounds, List.range_succ]

theorem nodup_rounds (distinct : queues.Nodup) (n : Nat) : (rounds size queues n).Nodup := by
  induction n with
  | zero => exact List.nodup_nil
  | succ n ih =>
      rw [rounds_succ]
      refine List.Nodup.append ih ?_ ?_
      · exact (distinct.filter _).map fun _ _ same => (Prod.mk.inj same).1
      · intro entry early late
        have small := (mem_rounds.mp early).2.1
        have round := (mem_served.mp late).2.1
        exact absurd small (by rw [round]; exact lt_irrefl n)

theorem pairwise_rounds (n : Nat) :
    (rounds size queues n).Pairwise fun early late => early.2 ≤ late.2 := by
  induction n with
  | zero => exact List.Pairwise.nil
  | succ n ih =>
      rw [rounds_succ]
      refine List.pairwise_append.mpr ⟨ih, ?_, ?_⟩
      · refine List.Pairwise.imp_of_mem ?_ (List.pairwise_of_forall (R := fun _ _ => True)
          fun _ _ => trivial)
        intro early late first second _
        rw [(mem_served.mp first).2.1, (mem_served.mp second).2.1]
      · intro early first late second
        rw [(mem_served.mp second).2.1]
        exact (mem_rounds.mp first).2.1.le

theorem length_served (round : Nat) :
    (served size queues round).length = (queues.map fun q => if round < size q then 1 else 0).sum := by
  induction queues with
  | nil => rfl
  | cons q rest ih =>
      simp only [served, List.length_map] at ih
      by_cases inside : round < size q
      · simp [served, inside, ih, Nat.add_comm]
      · simp [served, inside, ih]

theorem length_rounds (n : Nat) :
    (rounds size queues n).length = (queues.map fun q => min (size q) n).sum := by
  induction n with
  | zero => simp [rounds]
  | succ n ih =>
      have step (q : α) : min (size q) (n + 1) = min (size q) n + if n < size q then 1 else 0 := by
        split_ifs <;> omega
      rw [rounds_succ, List.length_append, ih, length_served, ← List.sum_map_add]
      simp only [step]

theorem length_rounds_of_le {n : Nat} (enough : ∀ q ∈ queues, size q ≤ n) :
    (rounds size queues n).length = (queues.map size).sum := by
  rw [length_rounds]
  congr 1
  apply List.map_congr_left
  intro q member
  exact min_eq_left (enough q member)

end

def turn (n cursor : Nat) : Nat × Nat := (cursor % n, cursor / n)

theorem turn_injective (n : Nat) : Function.Injective (turn n) := by
  intro a b same
  have remainder : a % n = b % n := (Prod.mk.inj same).1
  have quotient : a / n = b / n := (Prod.mk.inj same).2
  rw [← Nat.div_add_mod a n, ← Nat.div_add_mod b n, remainder, quotient]

theorem countP_turn {n b : Nat} (inside : b < n) (steps : Nat) :
    (List.range steps).countP (fun cursor => decide ((turn n cursor).1 = b)) =
      steps / n + if b < steps % n then 1 else 0 := by
  have count := Nat.count_modEq_card steps (Nat.zero_lt_of_lt inside) b
  rw [Nat.mod_eq_of_lt inside] at count
  rw [← count, Nat.count]
  apply List.countP_congr
  intro cursor _
  simp only [turn, Nat.ModEq, Nat.mod_eq_of_lt inside]
  exact decide_eq_true_iff.trans decide_eq_true_iff.symm

theorem countP_turn_fair {n b c : Nat} (first : b < n) (second : c < n) (steps : Nat) :
    (List.range steps).countP (fun cursor => decide ((turn n cursor).1 = b)) ≤
      (List.range steps).countP (fun cursor => decide ((turn n cursor).1 = c)) + 1 := by
  rw [countP_turn first, countP_turn second]
  split_ifs <;> omega

end AirFerry.Library.RoundRobin
