import Mathlib.Tactic

/-!
# Lists written strip by strip

A list of `n * widths.sum` items, read as one strip of `n` cells for each width, and dealt to `n`
rows that take their cell of every strip.
-/

namespace AirFerry.Library.Strips

universe u
variable {α : Type u}

def cut (size : Nat) : Nat → List α → List (List α)
  | 0, _ => []
  | n+1, xs => xs.take size :: cut size n (xs.drop size)

theorem length_cut (size n : Nat) (xs : List α) : (cut size n xs).length = n := by
  induction n generalizing xs with
  | zero => rfl
  | succ n ih => rw [cut, List.length_cons, ih]

theorem flatten_cut (size n : Nat) (xs : List α) : (cut size n xs).flatten = xs.take (n * size) := by
  induction n generalizing xs with
  | zero => simp [cut]
  | succ n ih =>
      rw [cut, List.flatten_cons, ih, Nat.succ_mul, Nat.add_comm (n * size), List.take_add]

theorem mem_cut {size n : Nat} {xs cell : List α} (long : n * size ≤ xs.length)
    (member : cell ∈ cut size n xs) : cell.length = size := by
  induction n generalizing xs with
  | zero => cases member
  | succ n ih =>
      rw [Nat.succ_mul] at long
      rcases List.mem_cons.mp member with rfl | member
      · exact List.length_take_of_le (by omega)
      · exact ih (by rw [List.length_drop]; omega) member

def deal (n : Nat) : List Nat → List α → List (List α)
  | [], _ => List.replicate n []
  | width :: widths, xs =>
      List.zipWith (· ++ ·) (cut width n xs) (deal n widths (xs.drop (n * width)))

def gather : List Nat → List (List α) → List α
  | [], _ => []
  | width :: widths, rows => rows.flatMap (List.take width) ++ gather widths (rows.map (List.drop width))

theorem length_deal (n : Nat) (widths : List Nat) (xs : List α) : (deal n widths xs).length = n := by
  induction widths generalizing xs with
  | nil => exact List.length_replicate
  | cons width widths ih => rw [deal, List.length_zipWith, length_cut, ih, min_self]

theorem mem_deal {n : Nat} {widths : List Nat} {xs row : List α} (long : n * widths.sum ≤ xs.length)
    (member : row ∈ deal n widths xs) : row.length = widths.sum := by
  induction widths generalizing xs row with
  | nil => rw [List.eq_of_mem_replicate member, List.length_nil, List.sum_nil]
  | cons width widths ih =>
      rw [List.sum_cons, Nat.mul_add] at long
      obtain ⟨i, inside, rfl⟩ := List.getElem_of_mem member
      simp only [deal, List.length_zipWith, length_cut, length_deal, min_self] at inside
      have first : i < (cut width n xs).length := by rwa [length_cut]
      have second : i < (deal n widths (xs.drop (n * width))).length := by rwa [length_deal]
      simp only [deal, List.getElem_zipWith, List.length_append, List.sum_cons]
      rw [mem_cut (by omega) (List.getElem_mem first),
        ih (by rw [List.length_drop]; omega) (List.getElem_mem second)]

theorem length_gather {widths : List Nat} {rows : List (List α)}
    (whole : ∀ row ∈ rows, row.length = widths.sum) :
    (gather widths rows).length = rows.length * widths.sum := by
  induction widths generalizing rows with
  | nil => rfl
  | cons width widths ih =>
      have lengths : rows.map (fun row => (row.take width).length) = List.replicate rows.length width := by
        refine List.eq_replicate_iff.mpr ⟨List.length_map _, fun size member => ?_⟩
        obtain ⟨row, inside, rfl⟩ := List.mem_map.mp member
        have wide := whole row inside
        rw [List.sum_cons] at wide
        exact List.length_take_of_le (by omega)
      have rest : ∀ row ∈ rows.map (List.drop width), row.length = widths.sum := by
        intro row member
        obtain ⟨row, inside, rfl⟩ := List.mem_map.mp member
        rw [List.length_drop, whole row inside, List.sum_cons, Nat.add_sub_cancel_left]
      rw [gather, List.length_append, List.length_flatMap, lengths, ih rest, List.sum_replicate,
        List.length_map, List.sum_cons, smul_eq_mul, Nat.mul_add]

theorem gather_zipWith {width : Nat} (widths : List Nat) {cells rows : List (List α)}
    (same : cells.length = rows.length) (sizes : ∀ cell ∈ cells, cell.length = width) :
    gather (width :: widths) (List.zipWith (· ++ ·) cells rows) = cells.flatten ++ gather widths rows := by
  have split : (List.zipWith (· ++ ·) cells rows).flatMap (List.take width) = cells.flatten ∧
      (List.zipWith (· ++ ·) cells rows).map (List.drop width) = rows := by
    induction cells generalizing rows with
    | nil =>
        rw [List.length_eq_zero_iff.mp same.symm]
        exact ⟨rfl, rfl⟩
    | cons cell cells ih =>
        cases rows with
        | nil => cases same
        | cons row rows =>
            obtain ⟨here, later⟩ := List.forall_mem_cons.mp sizes
            obtain ⟨front, back⟩ := ih (Nat.succ.inj same) later
            rw [List.zipWith_cons_cons, List.flatMap_cons, List.map_cons, front, back,
              List.take_left' here, List.drop_left' here]
            exact ⟨rfl, rfl⟩
  rw [gather, split.1, split.2]

theorem gather_deal {n : Nat} {widths : List Nat} {xs : List α} (long : n * widths.sum ≤ xs.length) :
    gather widths (deal n widths xs) = xs.take (n * widths.sum) := by
  induction widths generalizing xs with
  | nil => simp [gather]
  | cons width widths ih =>
      rw [List.sum_cons, Nat.mul_add] at long ⊢
      have rest : n * widths.sum ≤ (xs.drop (n * width)).length := by
        rw [List.length_drop]
        omega
      rw [deal, gather_zipWith widths (by rw [length_cut, length_deal])
        (fun cell member => mem_cut (by omega) member), flatten_cut, ih rest, List.take_add]

end AirFerry.Library.Strips
