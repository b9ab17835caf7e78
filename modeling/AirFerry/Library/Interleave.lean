import Mathlib.Tactic

/-!
# Interleaving blocks

A stream takes one letter of each block in every round; a block that has run out is passed over.
Dealing the stream out again in the same rounds gives the blocks back.
-/

namespace AirFerry.Library.Interleave

variable {α : Type*}

def interleave : Nat → List (List α) → List α
  | 0, _ => []
  | rounds+1, blocks => blocks.filterMap List.head? ++ interleave rounds (blocks.map List.tail)

def dealRound : List Nat → List α → List (List α) × List α
  | [], stream => ([], stream)
  | 0 :: lens, stream => ([] :: (dealRound lens stream).1, (dealRound lens stream).2)
  | (_+1) :: lens, stream =>
      (stream.take 1 :: (dealRound lens (stream.drop 1)).1, (dealRound lens (stream.drop 1)).2)

def deal : Nat → List Nat → List α → List (List α)
  | 0, lens, _ => lens.map fun _ => []
  | rounds+1, lens, stream =>
      List.zipWith (· ++ ·) (dealRound lens stream).1
        (deal rounds (lens.map (· - 1)) (dealRound lens stream).2)

theorem dealRound_heads (blocks : List (List α)) (rest : List α) :
    dealRound (blocks.map List.length) (blocks.filterMap List.head? ++ rest) =
      (blocks.map (List.take 1), rest) := by
  induction blocks with
  | nil => rfl
  | cons block blocks ih =>
      cases block with
      | nil =>
          have skip : ([] :: blocks).filterMap List.head? = blocks.filterMap List.head? := rfl
          simp [dealRound, skip, ih]
      | cons a block => simp [dealRound, ih]

theorem deal_interleave {rounds : Nat} {blocks : List (List α)}
    (short : ∀ block ∈ blocks, block.length ≤ rounds) (rest : List α) :
    deal rounds (blocks.map List.length) (interleave rounds blocks ++ rest) = blocks := by
  induction rounds generalizing blocks with
  | zero =>
      rw [deal, List.map_map]
      conv_rhs => rw [← List.map_id blocks]
      apply List.map_congr_left
      intro block member
      exact (List.eq_nil_of_length_eq_zero (Nat.le_zero.mp (short block member))).symm
  | succ rounds ih =>
      have tails : ∀ block ∈ blocks.map List.tail, block.length ≤ rounds := by
        intro tail member
        obtain ⟨block, listed, rfl⟩ := List.mem_map.mp member
        have bound := short block listed
        rw [List.length_tail]
        omega
      have lengths : (blocks.map List.length).map (· - 1) = (blocks.map List.tail).map List.length := by
        rw [List.map_map, List.map_map]
        apply List.map_congr_left
        intro block _
        exact (List.length_tail ..).symm
      rw [interleave, List.append_assoc, deal, dealRound_heads, lengths, ih tails]
      conv_rhs => rw [← List.map_id blocks]
      rw [List.zipWith_map_left, List.zipWith_map_right, List.zipWith_self]
      apply List.map_congr_left
      intro block _
      cases block <;> rfl

theorem deal_single (n : Nat) (stream : List α) : deal n [n] stream = [stream.take n] := by
  induction n generalizing stream with
  | zero => rfl
  | succ n ih =>
      have rest := ih (stream.drop 1)
      have split : stream.take 1 ++ (stream.drop 1).take n = stream.take (n + 1) := by
        rw [Nat.add_comm n, List.take_add]
      rw [← split]
      simp only [deal, dealRound, List.map_cons, List.map_nil, Nat.add_sub_cancel, rest,
        List.zipWith_cons_cons, List.zipWith_nil_left]

theorem length_dealRound {lens : List Nat} {stream : List α}
    (enough : (lens.map (min 1)).sum ≤ stream.length) :
    (dealRound lens stream).1.map List.length = lens.map (min 1) ∧
      (dealRound lens stream).2.length = stream.length - (lens.map (min 1)).sum := by
  induction lens generalizing stream with
  | nil => exact ⟨rfl, rfl⟩
  | cons len lens ih =>
      cases len with
      | zero =>
          simp only [List.map_cons, List.sum_cons, Nat.min_zero, Nat.zero_add] at enough ⊢
          obtain ⟨lengths, left⟩ := ih enough
          exact ⟨by rw [dealRound, List.map_cons, lengths, List.length_nil], left⟩
      | succ len =>
          have one : min 1 (len + 1) = 1 := by omega
          simp only [List.map_cons, List.sum_cons, one] at enough ⊢
          obtain ⟨lengths, left⟩ := @ih (stream.drop 1) (by rw [List.length_drop]; omega)
          rw [dealRound, List.map_cons, lengths, left, List.length_drop, List.length_take]
          exact ⟨by rw [Nat.min_eq_left (by omega)], by omega⟩

theorem length_deal {rounds : Nat} {lens : List Nat} {stream : List α} (short : ∀ len ∈ lens, len ≤ rounds)
    (enough : lens.sum ≤ stream.length) : (deal rounds lens stream).map List.length = lens := by
  induction rounds generalizing lens stream with
  | zero =>
      rw [deal, List.map_map]
      conv_rhs => rw [← List.map_id lens]
      apply List.map_congr_left
      intro len listed
      exact (Nat.le_zero.mp (short len listed)).symm
  | succ rounds ih =>
      have split : (lens.map (min 1)).sum + (lens.map (· - 1)).sum = lens.sum := by
        rw [← List.sum_map_add]
        conv_rhs => rw [← List.map_id lens]
        congr 1
        apply List.map_congr_left
        intro len _
        simp only [id_eq]
        omega
      obtain ⟨heads, left⟩ := @length_dealRound _ lens stream (by omega)
      have shorter : ∀ len ∈ lens.map (· - 1), len ≤ rounds := by
        intro rest member
        obtain ⟨len, listed, rfl⟩ := List.mem_map.mp member
        have bound := short len listed
        omega
      have tails := @ih _ (dealRound lens stream).2 shorter (by omega)
      have sums : ∀ firsts seconds : List (List α), (List.zipWith (· ++ ·) firsts seconds).map List.length =
          List.zipWith (· + ·) (firsts.map List.length) (seconds.map List.length) := by
        intro firsts seconds
        rw [List.map_zipWith, List.zipWith_map]
        simp only [List.length_append]
      rw [deal, sums, heads, tails, List.zipWith_map, List.zipWith_self]
      conv_rhs => rw [← List.map_id lens]
      apply List.map_congr_left
      intro len _
      simp only [id_eq]
      omega

theorem filterMap_getElem? (blocks : List (List α)) (i : Nat) :
    (blocks.map (List.drop i)).filterMap List.head? = blocks.filterMap (·[i]?) := by
  rw [List.filterMap_map]
  apply List.filterMap_congr
  intro block _
  exact List.head?_drop

theorem interleave_eq_flatMap (rounds : Nat) (blocks : List (List α)) :
    interleave rounds blocks = (List.range rounds).flatMap fun i => blocks.filterMap (·[i]?) := by
  have from_round : ∀ first, interleave rounds (blocks.map (List.drop first)) =
      (List.range' first rounds).flatMap fun i => blocks.filterMap (·[i]?) := by
    induction rounds with
    | zero =>
        intro first
        rfl
    | succ rounds ih =>
        intro first
        have next : (blocks.map (List.drop first)).map List.tail = blocks.map (List.drop (first + 1)) := by
          rw [List.map_map]
          apply List.map_congr_left
          intro block _
          exact List.tail_drop
        rw [interleave, filterMap_getElem?, next, ih, List.range'_succ, List.flatMap_cons]
  have whole := from_round 0
  have all : blocks.map (List.drop 0) = blocks := List.map_id blocks
  rw [all] at whole
  rw [whole, List.range_eq_range']

theorem length_interleave {rounds : Nat} {blocks : List (List α)}
    (short : ∀ block ∈ blocks, block.length ≤ rounds) :
    (interleave rounds blocks).length = (blocks.map List.length).sum := by
  induction rounds generalizing blocks with
  | zero =>
      rw [interleave, List.length_nil]
      symm
      apply List.sum_eq_zero
      intro n member
      obtain ⟨block, listed, rfl⟩ := List.mem_map.mp member
      exact Nat.le_zero.mp (short block listed)
  | succ rounds ih =>
      have tails : ∀ block ∈ blocks.map List.tail, block.length ≤ rounds := by
        intro tail member
        obtain ⟨block, listed, rfl⟩ := List.mem_map.mp member
        have bound := short block listed
        rw [List.length_tail]
        omega
      rw [interleave, List.length_append, ih tails]
      clear ih tails short
      induction blocks with
      | nil => rfl
      | cons block blocks ih =>
          cases block with
          | nil =>
              have skip : ([] :: blocks).filterMap List.head? = blocks.filterMap List.head? := rfl
              rw [skip]
              simpa using ih
          | cons a block =>
              simp only [List.filterMap_cons, List.head?_cons, List.length_cons, List.map_cons,
                List.tail_cons, List.sum_cons] at ih ⊢
              omega

theorem getElem?_flatMap_range {rounds width : Nat} {round : Nat → List α}
    (size : ∀ i < rounds, (round i).length = width) {i k : Nat} (small : i < rounds) (inside : k < width) :
    ((List.range rounds).flatMap round)[i * width + k]? = (round i)[k]? := by
  induction rounds with
  | zero => omega
  | succ rounds ih =>
      have len : ((List.range rounds).flatMap round).length = rounds * width := by
        rw [List.length_flatMap, @List.map_congr_left _ _ _ _ (fun _ => width)]
        · simp
        · intro i member
          exact size i (by rw [List.mem_range] at member; omega)
      rw [List.range_succ, List.flatMap_append, List.flatMap_singleton]
      by_cases last : i = rounds
      · rw [List.getElem?_append_right (by rw [len, last]; omega), len, last, Nat.add_sub_cancel_left]
      · have before : i * width + k < rounds * width := by
          calc i * width + k < i * width + width := by omega
            _ = (i + 1) * width := by rw [Nat.succ_mul]
            _ ≤ rounds * width := Nat.mul_le_mul_right width (by omega)
        rw [List.getElem?_append_left (by rwa [len])]
        exact ih (fun i small => size i (by omega)) (by omega)

end AirFerry.Library.Interleave
