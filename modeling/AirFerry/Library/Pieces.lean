import Mathlib.Tactic

namespace AirFerry.Library.Pieces

universe u
variable {α : Type u}

def piece (size : Nat) (xs : List α) (i : Nat) : List α := (xs.drop (i * size)).take size

def pieceLength (size total i : Nat) : Nat := min (total - i * size) size

theorem length_piece (size : Nat) (xs : List α) (i : Nat) :
    (piece size xs i).length = pieceLength size xs.length i := by
  rw [piece, pieceLength, List.length_take, List.length_drop, Nat.min_comm]

theorem flatten_pieces (size : Nat) (xs : List α) (n : Nat) :
    ((List.range n).map (piece size xs)).flatten = xs.take (n * size) := by
  induction n with
  | zero => simp
  | succ n ih =>
      rw [List.range_succ, List.map_append, List.flatten_append, ih, Nat.succ_mul, List.take_add]
      simp [piece]

theorem flatten_pieces_of_le {size n : Nat} {xs : List α} (enough : xs.length ≤ n * size) :
    ((List.range n).map (piece size xs)).flatten = xs := by
  rw [flatten_pieces, List.take_of_length_le enough]

theorem sum_pieceLength (size total n : Nat) :
    ((List.range n).map (pieceLength size total)).sum = min total (n * size) := by
  induction n with
  | zero => simp
  | succ n ih =>
      rw [List.range_succ, List.map_append, List.sum_append, ih, Nat.succ_mul]
      simp only [pieceLength, List.map_cons, List.map_nil, List.sum_cons, List.sum_nil]
      omega

theorem sum_eq_iff_of_le {β : Type*} (xs : List β) (f g : β → Nat) (le : ∀ x ∈ xs, f x ≤ g x) :
    (xs.map f).sum = (xs.map g).sum ↔ ∀ x ∈ xs, f x = g x := by
  induction xs with
  | nil => simp
  | cons x xs ih =>
      have here := le x (by simp)
      have rest : ∀ y ∈ xs, f y ≤ g y := fun y member => le y (by simp [member])
      have total : (xs.map f).sum ≤ (xs.map g).sum := List.sum_le_sum rest
      rw [List.forall_mem_cons, ← ih rest]
      simp only [List.map_cons, List.sum_cons]
      omega

theorem length_flatten_eq_iff (pieces : List (List α)) (bound : Nat → Nat)
    (le : ∀ i xs, pieces[i]? = some xs → xs.length ≤ bound i) :
    pieces.flatten.length = ((List.range pieces.length).map bound).sum ↔
      ∀ i xs, pieces[i]? = some xs → xs.length = bound i := by
  have at_index : ∀ i < pieces.length, pieces[i]? = some (pieces.getD i []) := by
    intro i inside
    rw [List.getD_eq_getElem?_getD, List.getElem?_eq_getElem inside]
    rfl
  have lengths : pieces.map List.length =
      (List.range pieces.length).map fun i => (pieces.getD i []).length := by
    apply List.ext_getElem?
    intro i
    by_cases inside : i < pieces.length
    · rw [List.getElem?_map, List.getElem?_map, List.getElem?_range inside, at_index i inside]
      rfl
    · rw [List.getElem?_eq_none (by simpa using inside), List.getElem?_eq_none (by simpa using inside)]
  rw [List.length_flatten, lengths, sum_eq_iff_of_le]
  · constructor
    · intro whole i xs found
      have inside := (List.getElem?_eq_some_iff.mp found).1
      rw [at_index i inside, Option.some.injEq] at found
      rw [← found]
      exact whole i (List.mem_range.mpr inside)
    · intro whole i inside
      exact whole i _ (at_index i (List.mem_range.mp inside))
  · intro i inside
    exact le i _ (at_index i (List.mem_range.mp inside))

structure Tiles (start stop : Nat → Nat) (n total : Nat) : Prop where
  first : start 0 = 0
  last : stop (n - 1) = total
  next : ∀ i, i + 1 < n → stop i = start (i + 1)
  nonempty : ∀ i < n, start i < stop i

def pieceStop (size total i : Nat) : Nat := min ((i + 1) * size) total

theorem lt_count_iff {size total i : Nat} (positive : 0 < size) (nonempty : 0 < total) :
    i < (total - 1) / size + 1 ↔ i * size < total := by
  rw [Nat.lt_succ_iff, Nat.le_div_iff_mul_le positive]
  omega

theorem tiles_pieces {size total : Nat} (positive : 0 < size) (nonempty : 0 < total) :
    Tiles (· * size) (pieceStop size total) ((total - 1) / size + 1) total where
  first := Nat.zero_mul size
  last := by
    rw [Nat.add_sub_cancel, pieceStop]
    have beyond : ¬ (total - 1) / size + 1 < (total - 1) / size + 1 := lt_irrefl _
    rw [lt_count_iff positive nonempty] at beyond
    exact min_eq_right (not_lt.mp beyond)
  next := by
    intro i inside
    exact min_eq_left ((lt_count_iff positive nonempty).mp inside).le
  nonempty := by
    intro i inside
    refine lt_min ?_ ((lt_count_iff positive nonempty).mp inside)
    rw [Nat.succ_mul]
    exact Nat.lt_add_of_pos_right positive

theorem existsUnique_piece {size total place : Nat} (positive : 0 < size) (inside : place < total) :
    ∃! i, i < (total - 1) / size + 1 ∧ i * size ≤ place ∧ place < pieceStop size total i := by
  have low := Nat.div_mul_le_self place size
  have high := @Nat.lt_div_mul_add place size positive
  refine ⟨place / size, ⟨?_, low, lt_min ?_ inside⟩, ?_⟩
  · exact (lt_count_iff positive (Nat.zero_lt_of_lt inside)).mpr (lt_of_le_of_lt low inside)
  · rwa [Nat.succ_mul]
  · rintro i ⟨-, before, after⟩
    exact (Nat.div_eq_of_lt_le before (lt_of_lt_of_le after (min_le_left ..))).symm

theorem pieceStop_sub {size total i : Nat} :
    pieceStop size total i - i * size = pieceLength size total i := by
  rw [pieceStop, pieceLength, Nat.succ_mul]
  omega

theorem piece_eq_range (size : Nat) (xs : List α) (i : Nat) :
    piece size xs i = (xs.take (pieceStop size xs.length i)).drop (i * size) := by
  rw [List.drop_take, pieceStop_sub, piece, List.take_eq_take_iff, List.length_drop, pieceLength]
  omega

def collect : List (Option α) → Option (List α)
  | [] => some []
  | none :: _ => none
  | some x :: rest => (collect rest).map (x :: ·)

theorem collect_eq_some_iff {slots : List (Option α)} {xs : List α} :
    collect slots = some xs ↔ slots = xs.map some := by
  induction slots generalizing xs with
  | nil => cases xs <;> simp [collect]
  | cons slot rest ih =>
      cases slot with
      | none => cases xs <;> simp [collect]
      | some x =>
          rw [collect, Option.map_eq_some_iff]
          constructor
          · rintro ⟨ys, found, rfl⟩
            rw [ih.mp found]
            rfl
          · intro same
            cases xs with
            | nil => cases same
            | cons y ys =>
                simp only [List.map_cons, List.cons.injEq, Option.some.injEq] at same
                exact ⟨ys, ih.mpr same.2, by rw [same.1]⟩

theorem exists_collect_of_full {slots : List (Option α)}
    (full : slots.countP Option.isSome = slots.length) : ∃ xs, collect slots = some xs := by
  induction slots with
  | nil => exact ⟨[], rfl⟩
  | cons slot rest ih =>
      have below := List.countP_le_length (p := Option.isSome) (l := rest)
      cases slot with
      | none =>
          rw [List.countP_cons_of_neg (by simp), List.length_cons] at full
          omega
      | some x =>
          rw [List.countP_cons_of_pos (by simp), List.length_cons] at full
          obtain ⟨xs, found⟩ := ih (by omega)
          exact ⟨x :: xs, by rw [collect, found]; rfl⟩

theorem countP_set {slots : List (Option α)} {i : Nat} (empty : slots[i]? = some none) (x : α) :
    (slots.set i (some x)).countP Option.isSome = slots.countP Option.isSome + 1 := by
  induction slots generalizing i with
  | nil => cases empty
  | cons slot rest ih =>
      cases i with
      | zero =>
          cases empty
          simp
      | succ i =>
          have later := ih (i := i) (by simpa using empty)
          cases slot with
          | none => simpa using later
          | some y => simp [later]

theorem countP_lt_of_empty {slots : List (Option α)} {i : Nat} (empty : slots[i]? = some none) :
    slots.countP Option.isSome < slots.length := by
  have member := List.mem_of_getElem? empty
  exact List.countP_lt_length_iff.mpr ⟨none, member, by simp⟩

def slots (pieces : Nat → α) (n : Nat) (seen : List Nat) : List (Option α) :=
  (List.range n).map fun i => if i ∈ seen then some (pieces i) else none

section
variable {pieces : Nat → α} {n i : Nat} {seen : List Nat}

theorem slots_nil : slots pieces n [] = List.replicate n none := by
  simp [slots, List.map_const']

theorem length_slots : (slots pieces n seen).length = n := by simp [slots]

theorem getElem?_slots (inside : i < n) :
    (slots pieces n seen)[i]? = some (if i ∈ seen then some (pieces i) else none) := by
  rw [slots, List.getElem?_map, List.getElem?_range inside]
  rfl

theorem set_slots (inside : i < n) :
    (slots pieces n seen).set i (some (pieces i)) = slots pieces n (i :: seen) := by
  apply List.ext_getElem?
  intro j
  by_cases small : j < n
  · rw [List.getElem?_set, getElem?_slots small, getElem?_slots small, length_slots]
    by_cases same : i = j
    · subst same
      simp [inside]
    · have other : ¬ j = i := fun h => same h.symm
      simp [same, other]
  · rw [List.getElem?_eq_none (by rw [List.length_set, length_slots]; exact not_lt.mp small),
      List.getElem?_eq_none (by rw [length_slots]; exact not_lt.mp small)]

theorem slots_cons_of_mem (old : i ∈ seen) : slots pieces n (i :: seen) = slots pieces n seen := by
  apply List.map_congr_left
  intro j _
  have same : j ∈ i :: seen ↔ j ∈ seen := by
    rw [List.mem_cons]
    exact or_iff_right_of_imp fun here => here ▸ old
  simp only [same]

theorem countP_slots_eq_iff :
    (slots pieces n seen).countP Option.isSome = n ↔ ∀ i < n, i ∈ seen := by
  have filled : (slots pieces n seen).countP Option.isSome = n ↔
      ∀ slot ∈ slots pieces n seen, slot.isSome = true := by
    rw [← List.countP_eq_length, length_slots]
  rw [filled]
  constructor
  · intro every i inside
    have taken := every _ (List.mem_of_getElem? (getElem?_slots inside))
    by_contra missing
    rw [if_neg missing] at taken
    cases taken
  · intro every slot member
    obtain ⟨i, inside, rfl⟩ := List.mem_map.mp member
    rw [if_pos (every i (List.mem_range.mp inside))]
    rfl

theorem collect_slots (full : ∀ i < n, i ∈ seen) :
    collect (slots pieces n seen) = some ((List.range n).map pieces) := by
  rw [collect_eq_some_iff, slots, List.map_map]
  apply List.map_congr_left
  intro i inside
  rw [if_pos (full i (List.mem_range.mp inside))]
  rfl

end

end AirFerry.Library.Pieces
