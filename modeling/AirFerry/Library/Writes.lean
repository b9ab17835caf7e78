import Mathlib.Tactic

/-!
# Runs of assignments

A table after a list of assignments: what is not assigned stays, and the last assignment of a
place decides.
-/

namespace AirFerry.Library.Writes

variable {ι β : Type*}

section
variable [DecidableEq ι]

def after (table : ι → β) (writes : List (ι × β)) : ι → β :=
  writes.foldl (fun table w => Function.update table w.1 w.2) table

@[simp] theorem after_nil (table : ι → β) : after table [] = table := rfl

theorem after_cons (table : ι → β) (w : ι × β) (writes : List (ι × β)) :
    after table (w :: writes) = after (Function.update table w.1 w.2) writes := rfl

theorem after_of_not_mem {table : ι → β} {writes : List (ι × β)} {i : ι}
    (untouched : ∀ w ∈ writes, w.1 ≠ i) : after table writes i = table i := by
  induction writes generalizing table with
  | nil => rfl
  | cons w writes ih =>
      simp only [List.forall_mem_cons] at untouched
      rw [after_cons, ih untouched.2, Function.update_of_ne untouched.1.symm]

theorem after_of_mem {table : ι → β} {writes : List (ι × β)} {i : ι} {value : β}
    (touched : ∃ w ∈ writes, w.1 = i) (agree : ∀ w ∈ writes, w.1 = i → w.2 = value) :
    after table writes i = value := by
  induction writes generalizing table with
  | nil =>
      obtain ⟨w, member, -⟩ := touched
      cases member
  | cons w writes ih =>
      simp only [List.forall_mem_cons] at agree
      rw [after_cons]
      by_cases again : ∃ w ∈ writes, w.1 = i
      · exact ih again agree.2
      · obtain ⟨w', member, here⟩ := touched
        rcases List.mem_cons.mp member with rfl | later
        · rw [after_of_not_mem fun w member same => again ⟨w, member, same⟩, ← here,
            Function.update_self]
          exact agree.1 here
        · exact absurd ⟨w', later, here⟩ again

theorem after_of_nodup {table : ι → β} {writes : List (ι × β)} (distinct : (writes.map Prod.fst).Nodup)
    {w : ι × β} (member : w ∈ writes) : after table writes w.1 = w.2 := by
  apply after_of_mem ⟨w, member, rfl⟩
  intro w' other same
  rw [List.inj_on_of_nodup_map distinct other member same]

end

def Covers (writes : List (ι × β)) (i : ι) : Prop := ∃ w ∈ writes, w.1 = i

instance [DecidableEq ι] (writes : List (ι × β)) (i : ι) : Decidable (Covers writes i) :=
  inferInstanceAs (Decidable (∃ w ∈ writes, w.1 = i))

@[simp] theorem covers_nil (i : ι) : ¬ Covers ([] : List (ι × β)) i := by
  rintro ⟨w, member, -⟩
  cases member

@[simp] theorem covers_cons (w : ι × β) (writes : List (ι × β)) (i : ι) :
    Covers (w :: writes) i ↔ w.1 = i ∨ Covers writes i := by
  simp [Covers]

@[simp] theorem covers_append (first second : List (ι × β)) (i : ι) :
    Covers (first ++ second) i ↔ Covers first i ∨ Covers second i := by
  simp only [Covers, List.mem_append, or_and_right, exists_or]

@[simp] theorem covers_flatMap {κ : Type*} (keys : List κ) (writes : κ → List (ι × β)) (i : ι) :
    Covers (keys.flatMap writes) i ↔ ∃ k ∈ keys, Covers (writes k) i := by
  constructor
  · rintro ⟨w, member, here⟩
    obtain ⟨k, listed, member⟩ := List.mem_flatMap.mp member
    exact ⟨k, listed, w, member, here⟩
  · rintro ⟨k, listed, w, member, here⟩
    exact ⟨w, List.mem_flatMap.mpr ⟨k, listed, member⟩, here⟩

/-- The assignments reach the places of a region and no others, and each place gets its value. -/
structure Paints (writes : List (ι × β)) (region : ι → Prop) (value : ι → β) : Prop where
  covers : ∀ i, region i → Covers writes i
  only : ∀ w ∈ writes, region w.1 ∧ w.2 = value w.1

namespace Paints

variable {writes more : List (ι × β)} {region other : ι → Prop} {value : ι → β}

theorem after [DecidableEq ι] (paints : Paints writes region value) (table : ι → β) (i : ι)
    [Decidable (region i)] :
    Writes.after table writes i = if region i then value i else table i := by
  split
  · next inside =>
      apply after_of_mem (paints.covers i inside)
      intro w member here
      rw [(paints.only w member).2, here]
  · next outside =>
      apply after_of_not_mem
      intro w member here
      exact outside (here ▸ (paints.only w member).1)

theorem congr {region' : ι → Prop} {value' : ι → β} (paints : Paints writes region value)
    (same : ∀ i, region i ↔ region' i) (values : ∀ i, region i → value i = value' i) :
    Paints writes region' value' where
  covers i inside := paints.covers i ((same i).mpr inside)
  only w member := by
    obtain ⟨inside, assigned⟩ := paints.only w member
    exact ⟨(same w.1).mp inside, assigned.trans (values w.1 inside)⟩

theorem append (first : Paints writes region value) (second : Paints more other value) :
    Paints (writes ++ more) (fun i => region i ∨ other i) value where
  covers i inside := (covers_append ..).mpr (inside.imp (first.covers i) (second.covers i))
  only w member := by
    rcases List.mem_append.mp member with member | member
    · exact ⟨.inl (first.only w member).1, (first.only w member).2⟩
    · exact ⟨.inr (second.only w member).1, (second.only w member).2⟩

theorem flatMap {κ : Type*} {keys : List κ} {writes : κ → List (ι × β)} {region : κ → ι → Prop}
    (each : ∀ k ∈ keys, Paints (writes k) (region k) value) :
    Paints (keys.flatMap writes) (fun i => ∃ k ∈ keys, region k i) value where
  covers i inside := by
    obtain ⟨k, listed, inside⟩ := inside
    exact (covers_flatMap ..).mpr ⟨k, listed, (each k listed).covers i inside⟩
  only w member := by
    obtain ⟨k, listed, member⟩ := List.mem_flatMap.mp member
    obtain ⟨inside, assigned⟩ := (each k listed).only w member
    exact ⟨⟨k, listed, inside⟩, assigned⟩

theorem map (paints : Paints writes region value) (move : ι → ι) (value' : ι → β)
    (values : ∀ i, value' (move i) = value i) :
    Paints (writes.map fun w => (move w.1, w.2)) (fun i => ∃ j, region j ∧ move j = i) value' where
  covers i inside := by
    obtain ⟨j, inside, rfl⟩ := inside
    obtain ⟨w, member, rfl⟩ := paints.covers j inside
    exact ⟨_, List.mem_map_of_mem member, rfl⟩
  only w member := by
    obtain ⟨w, listed, rfl⟩ := List.mem_map.mp member
    obtain ⟨inside, assigned⟩ := paints.only w listed
    exact ⟨⟨w.1, inside, rfl⟩, assigned.trans (values w.1).symm⟩

end Paints

end AirFerry.Library.Writes
