import Mathlib.Tactic

namespace AirFerry.Library.FirstOf

variable {α κ : Type} [DecidableEq κ] (key : α → κ)

def remember (kept : List α) (x : α) : List α :=
  if key x ∈ kept.map key then kept else kept ++ [x]

def firsts (xs : List α) : List α := xs.foldl (remember key) []

variable {key} {kept xs : List α} {x : α}

theorem remember_old (old : key x ∈ kept.map key) : remember key kept x = kept := if_pos old

theorem remember_new (fresh : key x ∉ kept.map key) : remember key kept x = kept ++ [x] :=
  if_neg fresh

theorem firsts_concat (xs : List α) (x : α) :
    firsts key (xs ++ [x]) = remember key (firsts key xs) x := by
  rw [firsts, List.foldl_append]
  rfl

theorem firsts_sublist (xs : List α) : (firsts key xs).Sublist xs := by
  induction xs using List.reverseRecOn with
  | nil => exact List.Sublist.refl []
  | append_singleton xs x ih =>
      rw [firsts_concat]
      by_cases old : key x ∈ (firsts key xs).map key
      · rw [remember_old old]
        exact ih.trans (List.sublist_append_left xs [x])
      · rw [remember_new old]
        exact ih.append (List.Sublist.refl [x])

theorem nodup_firsts (xs : List α) : ((firsts key xs).map key).Nodup := by
  induction xs using List.reverseRecOn with
  | nil => exact List.nodup_nil
  | append_singleton xs x ih =>
      rw [firsts_concat]
      by_cases old : key x ∈ (firsts key xs).map key
      · rw [remember_old old]
        exact ih
      · rw [remember_new old, List.map_append]
        exact ih.append (List.nodup_singleton _) (List.disjoint_singleton.mpr old)

theorem mem_keys_firsts (xs : List α) (k : κ) : k ∈ (firsts key xs).map key ↔ k ∈ xs.map key := by
  induction xs using List.reverseRecOn with
  | nil => rfl
  | append_singleton xs x ih =>
      rw [firsts_concat]
      by_cases old : key x ∈ (firsts key xs).map key
      · rw [remember_old old, ih, List.map_append, List.mem_append]
        constructor
        · exact Or.inl
        · rintro (earlier | last)
          · exact earlier
          · rw [List.map_singleton, List.mem_singleton] at last
            exact last ▸ ih.mp (last ▸ old)
      · rw [remember_new old, List.map_append, List.map_append, List.mem_append, List.mem_append, ih]

theorem mem_firsts (xs : List α) (x : α) :
    x ∈ firsts key xs ↔ xs.find? (fun y => key y = key x) = some x := by
  induction xs using List.reverseRecOn with
  | nil => exact iff_of_false List.not_mem_nil nofun
  | append_singleton xs last ih =>
      rw [firsts_concat, List.find?_append]
      by_cases listed : key x ∈ xs.map key
      · obtain ⟨first, found⟩ : ∃ first, xs.find? (fun y => key y = key x) = some first := by
          obtain ⟨y, member, same⟩ := List.mem_map.mp listed
          exact Option.isSome_iff_exists.mp
            (List.find?_isSome.mpr ⟨y, member, decide_eq_true same⟩)
        rw [found] at ih ⊢
        rw [Option.some_or, ← ih]
        by_cases old : key last ∈ (firsts key xs).map key
        · rw [remember_old old]
        · rw [remember_new old, List.mem_append, List.mem_singleton]
          apply or_iff_left
          rintro rfl
          exact old ((mem_keys_firsts xs _).mpr listed)
      · have unseen : xs.find? (fun y => key y = key x) = none := by
          apply List.find?_eq_none.mpr
          intro y member same
          exact listed (List.mem_map.mpr ⟨y, member, of_decide_eq_true same⟩)
        have absent : x ∉ firsts key xs := fun kept =>
          listed ((mem_keys_firsts xs _).mp (List.mem_map_of_mem kept))
        rw [unseen, Option.none_or]
        by_cases old : key last ∈ (firsts key xs).map key
        · have other : key last ≠ key x := fun same =>
            listed ((mem_keys_firsts xs _).mp (same ▸ old))
          rw [remember_old old, List.find?_cons_of_neg (by simpa using other)]
          exact iff_of_false absent (by simp)
        · rw [remember_new old, List.mem_append, or_iff_right absent, List.mem_singleton]
          constructor
          · rintro rfl
            simp
          · intro found
            exact (List.mem_singleton.mp (List.mem_of_find?_eq_some found))

theorem length_firsts (xs : List α) : (firsts key xs).length = (xs.map key).toFinset.card := by
  rw [← List.length_map (f := key), ← List.toFinset_card_of_nodup (nodup_firsts xs)]
  congr 1
  ext k
  rw [List.mem_toFinset, List.mem_toFinset, mem_keys_firsts]

end AirFerry.Library.FirstOf
