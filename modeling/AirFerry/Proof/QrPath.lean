import AirFerry.Proof.QrBlank
import AirFerry.FastQr.Placement

/-!
# The data modules

The path of the standard goes once through every module outside column 6. What is left of it
beside the function patterns holds all codewords: the patterns lie in areas whose sizes add up.
-/

namespace AirFerry.Proof.Qr
open Library FastQr QrStandard

section
variable {n : Nat}

theorem pairColumns_inside (odd : n % 2 = 1) (x : Nat) (listed : x ∈ pairColumns n) :
    0 < x ∧ x < n ∧ x ≠ 6 ∧ x ≠ 7 := by
  obtain ⟨k, small, rfl⟩ := List.mem_map.mp listed
  rw [List.mem_range] at small
  split_ifs <;> omega

theorem pairColumns_apart (odd : n % 2 = 1) : (pairColumns n).Pairwise fun x y => y + 2 ≤ x := by
  rw [pairColumns, List.pairwise_map]
  refine List.pairwise_lt_range.imp_of_mem ?_
  intro k l first second less
  rw [List.mem_range] at first second
  split_ifs <;> omega

theorem mem_pairPath {k x : Nat} {p : Position} :
    p ∈ pairPath n k x ↔ p.1 < n ∧ (p.2 = x ∨ p.2 = x - 1) := by
  unfold pairPath
  split_ifs <;>
    simp only [List.mem_flatMap, List.mem_reverse, List.mem_range, List.mem_cons, List.not_mem_nil,
      or_false, Prod.ext_iff] <;>
    constructor
  · rintro ⟨y, below, ⟨rfl, right⟩ | ⟨rfl, left⟩⟩ <;> tauto
  · rintro ⟨below, right | left⟩ <;> exact ⟨p.1, below, by tauto⟩
  · rintro ⟨y, below, ⟨rfl, right⟩ | ⟨rfl, left⟩⟩ <;> tauto
  · rintro ⟨below, right | left⟩ <;> exact ⟨p.1, below, by tauto⟩

theorem length_pairPath (k x : Nat) : (pairPath n k x).length = 2 * n := by
  unfold pairPath
  split_ifs <;> simp [List.length_flatMap, Nat.mul_comm]

theorem nodup_pairPath (k : Nat) {x : Nat} (positive : 0 < x) : (pairPath n k x).Nodup := by
  have rows : ∀ ys : List Nat, ys.Nodup → (ys.flatMap fun y => [(y, x), (y, x - 1)]).Nodup := by
    intro ys distinct
    refine List.nodup_flatMap.mpr ⟨fun y _ => ?_, distinct.imp ?_⟩
    · have apart : x ≠ x - 1 := by omega
      simp [apart]
    · intro y y' differ
      simp [Function.onFun, differ.symm]
  unfold pairPath
  split_ifs
  · exact rows _ (List.nodup_reverse.mpr List.nodup_range)
  · exact rows _ List.nodup_range

theorem zipIdx_member {α : Type} {xs : List α} {k : Nat} {pair : α × Nat} (listed : pair ∈ xs.zipIdx k) :
    pair.1 ∈ xs := by
  rw [← List.zipIdx_map_fst k xs]
  exact List.mem_map_of_mem listed

theorem mem_path (odd : n % 2 = 1) {p : Position} (listed : p ∈ path n) : InSquare n p ∧ p.2 ≠ 6 := by
  obtain ⟨pair, member, here⟩ := List.mem_flatMap.mp listed
  obtain ⟨positive, inside, notSix, notSeven⟩ := pairColumns_inside odd pair.1 (zipIdx_member member)
  obtain ⟨below, column⟩ := mem_pairPath.mp here
  exact ⟨⟨below, by omega⟩, by omega⟩

theorem nodup_path (odd : n % 2 = 1) : (path n).Nodup := by
  refine List.nodup_flatMap.mpr ⟨fun pair member => ?_, ?_⟩
  · exact nodup_pairPath _ (pairColumns_inside odd pair.1 (zipIdx_member member)).1
  · have apart := pairColumns_apart odd
    rw [← List.zipIdx_map_fst 0 (pairColumns n), List.pairwise_map] at apart
    refine apart.imp_of_mem ?_
    intro pair pair' member member' below p here there
    have positive := (pairColumns_inside odd _ (zipIdx_member member')).1
    have first := (mem_pairPath.mp here).2
    have second := (mem_pairPath.mp there).2
    omega

theorem length_path (odd : n % 2 = 1) : (path n).length = n * (n - 1) := by
  have columns : (pairColumns n).length = (n - 1) / 2 := by simp [pairColumns]
  have half : 2 * ((n - 1) / 2) = n - 1 := by omega
  rw [path, List.length_flatMap]
  simp only [length_pairPath, List.map_const', List.sum_replicate, smul_eq_mul, List.length_zipIdx, columns]
  calc (n - 1) / 2 * (2 * n) = n * (2 * ((n - 1) / 2)) := by ring
    _ = n * (n - 1) := by rw [half]

end

theorem side_odd (version : Nat) : side version % 2 = 1 := by
  unfold side
  omega

theorem dataPositions_inside {version : Nat} {p : Position} (listed : p ∈ dataPositions version) :
    InSquare (side version) p :=
  (mem_path (side_odd version) (List.mem_filter.mp listed).1).1

theorem nodup_dataPositions (version : Nat) : (dataPositions version).Nodup :=
  (nodup_path (side_odd version)).filter _

def block (rows columns : List Nat) : List Position := rows.product columns

theorem mem_block {rows columns : List Nat} {p : Position} :
    p ∈ block rows columns ↔ p.1 ∈ rows ∧ p.2 ∈ columns := List.mem_product

theorem length_block (rows columns : List Nat) : (block rows columns).length = rows.length * columns.length :=
  List.length_product rows columns

/-- Rows or columns of an alignment pattern; the timing patterns have their share of it. -/
def around (a : Nat) : List Nat := (List.range' (a - 2) 5).filter (· ≠ 6)

/-- Areas that hold the function patterns, without column 6. -/
def patternAreas (version : Nat) : List Position :=
  let n := side version
  let corner := [0, 1, 2, 3, 4, 5, 7, 8]
  block (List.range 9) corner ++ block (List.range 9) (List.range' (n - 8) 8) ++
    block (List.range' (n - 8) 8) corner ++ block [6] (List.range' 9 (n - 17)) ++
    (if 7 ≤ version then
      block (List.range 6) (List.range' (n - 11) 3) ++ block (List.range' (n - 11) 3) (List.range 6)
    else []) ++
    (QrStandard.alignmentCentres version).flatMap fun c => block (around c.1) (around c.2)

theorem alignmentCentres_crossing (v : Version) : ∀ c ∈ QrStandard.alignmentCentres (number v),
    (c.1 = 6 → 11 ≤ c.2 ∧ c.2 + 11 ≤ side (number v)) ∧ (c.1 ≠ 6 → 9 ≤ c.1) ∧ (c.2 ≠ 6 → 9 ≤ c.2) := by
  revert v
  decide +kernel

theorem alignmentCentres_sum (v : Version) :
    ((QrStandard.alignmentCentres (number v)).map
        fun c => (around c.1).length * (around c.2).length).sum + 208 + (side (number v) - 17) +
      (if 7 ≤ number v then 36 else 0) + dataModules (number v) ≤ side (number v) * (side (number v) - 1) := by
  revert v
  decide +kernel

theorem mem_around {a x : Nat} : x ∈ around a ↔ a - 2 ≤ x ∧ x < a - 2 + 5 ∧ x ≠ 6 := by
  simp [around, and_assoc]

theorem corner_area {version : Nat} {p : Position} (inside : InSquare (side version) p) (column : p.2 ≠ 6)
    (near : p.1 ≤ 8 ∧ p.2 ≤ 8 ∨ p.1 ≤ 8 ∧ side version ≤ p.2 + 8 ∨ side version ≤ p.1 + 8 ∧ p.2 ≤ 8) :
    p ∈ patternAreas version := by
  obtain ⟨below, right⟩ := inside
  simp only [patternAreas, List.mem_append, mem_block, List.mem_range, List.mem_range'_1, List.mem_cons,
    List.not_mem_nil, or_false]
  refine .inl (.inl (.inl ?_))
  omega

theorem timing_area {version : Nat} {p : Position} (row : p.1 = 6) (left : 9 ≤ p.2)
    (right : p.2 + 9 ≤ side version) : p ∈ patternAreas version := by
  simp only [patternAreas, List.mem_append, mem_block, List.mem_range, List.mem_range'_1, List.mem_cons,
    List.not_mem_nil, or_false]
  refine .inl (.inl (.inr ?_))
  omega

theorem version_area {version : Nat} {p : Position} (large : 7 ≤ version) (area : VersionArea (side version) p) :
    p ∈ patternAreas version := by
  unfold VersionArea side at area
  simp only [patternAreas, List.mem_append, if_pos large, mem_block, List.mem_range, List.mem_range'_1, side]
  refine .inl (.inr ?_)
  omega

theorem alignment_area {v : Version} {p : Position} (column : p.2 ≠ 6)
    (near : ∃ c ∈ QrStandard.alignmentCentres (number v), far p c ≤ 2) : p ∈ patternAreas (number v) := by
  obtain ⟨c, listed, near⟩ := near
  obtain ⟨first, rows, columns⟩ := alignmentCentres_crossing v c listed
  rw [far_le_iff] at near
  by_cases row : p.1 = 6
  · apply timing_area row <;> omega
  · refine List.mem_append_right _ (List.mem_flatMap.mpr ⟨c, listed, mem_block.mpr ⟨?_, ?_⟩⟩)
    · rw [mem_around]
      omega
    · rw [mem_around]
      omega

theorem finder_area {version : Nat} {p : Position} {c : Position} (inside : InSquare (side version) p)
    (column : p.2 ≠ 6) (listed : c ∈ finderCentres (side version)) (near : far p c ≤ 4) :
    p ∈ patternAreas version := by
  apply corner_area inside column
  rw [far_le_iff] at near
  simp only [finderCentres, List.mem_cons, List.not_mem_nil, or_false] at listed
  rcases listed with rfl | rfl | rfl <;> dsimp only at near <;> omega

theorem pattern_area {v : Version} {p : Position} (inside : InSquare (side (number v)) p)
    (column : p.2 ≠ 6) (pattern : functionColour (number v) 0 p ≠ none) : p ∈ patternAreas (number v) := by
  have large : 21 ≤ side (number v) := by rw [← size_eq]; exact (size_bounds v).1
  by_contra free
  apply pattern
  simp only [functionColour]
  rw [if_neg, if_neg, if_neg, if_neg, if_neg, if_neg, if_neg]
  · rintro ⟨c, listed, near⟩
    exact free (finder_area inside column listed (near.trans (by omega)))
  · rintro (⟨row, left, right⟩ | ⟨six, -, -⟩)
    · by_cases corner : 9 ≤ p.2 ∧ p.2 + 9 ≤ side (number v)
      · exact free (timing_area row corner.1 corner.2)
      · exact free (corner_area inside column (by omega))
    · exact column six
  · rintro rfl
    exact free (corner_area inside column (by dsimp only; omega))
  · exact fun near => free (alignment_area column near)
  · rintro ⟨seven, stands⟩
    exact free (version_area seven ((isVersion_iff large p).mp stands))
  · rintro ⟨c, listed, ring⟩
    exact free (finder_area inside column listed ring.le)
  · intro stands
    have area := (isFormat_iff large p).mp stands
    obtain ⟨below, right⟩ := inside
    unfold FormatArea at area
    exact free (corner_area ⟨below, right⟩ column (by omega))

theorem length_patternAreas (v : Version) :
    (patternAreas (number v)).length + dataModules (number v) ≤ side (number v) * (side (number v) - 1) := by
  have total := alignmentCentres_sum v
  have large : 21 ≤ side (number v) := by rw [← size_eq]; exact (size_bounds v).1
  simp only [patternAreas, List.length_append, List.length_flatMap, length_block, List.length_cons,
    List.length_nil, List.length_range, List.length_range'] at total ⊢
  split_ifs at total ⊢ <;>
    simp only [List.length_append, length_block, List.length_range, List.length_range', List.length_nil] <;>
    omega

theorem length_dataPositions (v : Version) :
    8 * totalCodewords (number v) ≤ (dataPositions (number v)).length := by
  have odd := side_odd (number v)
  have parts := List.length_eq_length_filter_add (l := path (side (number v)))
    fun p => (functionColour (number v) 0 p).isNone
  have few : ((path (side (number v))).filter fun p => !(functionColour (number v) 0 p).isNone).length ≤
      (patternAreas (number v)).length := by
    refine (List.subperm_of_subset ((nodup_path odd).filter _) fun p listed => ?_).length_le
    obtain ⟨member, pattern⟩ := List.mem_filter.mp listed
    obtain ⟨inside, column⟩ := mem_path odd member
    refine pattern_area inside column fun free => ?_
    rw [free] at pattern
    cases pattern
  have areas := length_patternAreas v
  rw [length_path odd] at parts
  unfold totalCodewords
  unfold dataPositions
  omega

end AirFerry.Proof.Qr
