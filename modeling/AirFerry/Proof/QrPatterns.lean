import AirFerry.FastQr.Default
import AirFerry.Proof.QrMatrix
import AirFerry.QrStandard.Symbol

namespace AirFerry.Proof.Qr
open Library Library.Writes FastQr FastQr.Default QrStandard

theorem far_add (y x : Nat) (p q : Position) : far (y + p.1, x + p.2) (y + q.1, x + q.2) = far p q := by
  simp only [far, Nat.add_max_add_left, Nat.add_min_add_left, Nat.add_sub_add_left]

theorem far_le_iff (p c : Position) (r : Nat) :
    far p c ≤ r ↔ p.1 ≤ c.1 + r ∧ c.1 ≤ p.1 + r ∧ p.2 ≤ c.2 + r ∧ c.2 ≤ p.2 + r := by
  simp only [far]
  omega

theorem far_triangle (p c d : Position) : far c d ≤ far p c + far p d := by
  have toC := (far_le_iff p c _).mp le_rfl
  have toD := (far_le_iff p d _).mp le_rfl
  rw [far_le_iff]
  omega

def Apart (distance : Nat) (centres : List Position) : Prop :=
  ∀ c ∈ centres, ∀ d ∈ centres, c ≠ d → distance ≤ far c d

theorem decide_near {centres : List Position} {r : Nat} (apart : Apart (2 * r + 1) centres)
    {c p : Position} (listed : c ∈ centres) (near : far p c ≤ r) (other : Nat) :
    decide (∃ c ∈ centres, far p c ≤ r ∧ far p c ≠ other) = decide (far p c ≠ other) := by
  apply decide_eq_decide.mpr
  constructor
  · intro ⟨d, member, close, differs⟩
    by_cases same : c = d
    · rwa [same]
    · have distance := apart c listed d member same
      have triangle := far_triangle p c d
      omega
  · exact fun differs => ⟨c, listed, near, differs⟩

theorem paints_moved {writes : Nat → Nat → List Write} {r : Nat} {kind : Bool → FastQr.Module} {gap : Nat}
    (base : Paints (writes 0 0) (fun p => far p (r, r) ≤ r)
      (fun p => kind (decide (far p (r, r) ≠ gap))))
    (moved : ∀ y x, writes y x = (writes 0 0).map fun w => ((y + w.1.1, x + w.1.2), w.2)) (y x : Nat) :
    Paints (writes y x) (fun p => far p (y + r, x + r) ≤ r)
      (fun p => kind (decide (far p (y + r, x + r) ≠ gap))) := by
  have there := base.map (fun p => (y + p.1, x + p.2))
    (fun p => kind (decide (far p (y + r, x + r) ≠ gap)))
    (fun p => by rw [← far_add y x p (r, r)])
  rw [moved]
  refine there.congr (fun p => ?_) fun _ _ => rfl
  constructor
  · rintro ⟨q, near, rfl⟩
    rwa [← far_add y x q (r, r)] at near
  · intro near
    obtain ⟨top, -, left, -⟩ := (far_le_iff p _ r).mp near
    obtain ⟨-, below, -, right⟩ := (far_le_iff p _ r).mp near
    refine ⟨(p.1 - y, p.2 - x), ?_, Prod.ext (by simp only; omega) (by simp only; omega)⟩
    rw [← far_add y x (p.1 - y, p.2 - x) (r, r)]
    have same : (y + (p.1 - y), x + (p.2 - x)) = p := Prod.ext (by simp only; omega) (by simp only; omega)
    rwa [same]

theorem square_cases {r : Nat} {good : Position → Prop} (all : ∀ a ≤ 2 * r, ∀ b ≤ 2 * r, good (a, b))
    (p : Position) (near : far p (r, r) ≤ r) : good p := by
  obtain ⟨below, -, right, -⟩ := (far_le_iff p _ r).mp near
  exact all p.1 (by simp only at below; omega) p.2 (by simp only at right; omega)

theorem finderWrites_moved (y x : Nat) :
    finderWrites y x = (finderWrites 0 0).map fun w => ((y + w.1.1, x + w.1.2), w.2) := by
  simp only [finderWrites, List.map_append, List.map_flatMap, List.map_cons, List.map_nil,
    Nat.add_comm, Nat.zero_add, Nat.add_zero]

theorem finderWrites_paints (y x : Nat) :
    Paints (finderWrites y x) (fun p => far p (y + 3, x + 3) ≤ 3)
      (fun p => Module.finderPattern (decide (far p (y + 3, x + 3) ≠ 2))) := by
  refine paints_moved ⟨?_, ?_⟩ finderWrites_moved y x
  · exact square_cases (by decide)
  · decide

theorem alignmentWrites_moved (y x : Nat) :
    alignmentWrites (y + 2) (x + 2) =
      (alignmentWrites 2 2).map fun w => ((y + w.1.1, x + w.1.2), w.2) := by
  simp only [alignmentWrites, List.map_append, List.map_flatMap, List.map_cons, List.map_nil,
    Nat.add_sub_cancel, Nat.add_comm, Nat.add_left_comm, Nat.zero_add, Nat.add_zero, Nat.reduceSubDiff,
    Nat.sub_self]

theorem alignmentWrites_paints (y x : Nat) :
    Paints (alignmentWrites (y + 2) (x + 2)) (fun p => far p (y + 2, x + 2) ≤ 2)
      (fun p => Module.alignment (decide (far p (y + 2, x + 2) ≠ 1))) := by
  refine @paints_moved (fun y x => alignmentWrites (y + 2) (x + 2)) 2 Module.alignment 1 ⟨?_, ?_⟩
    alignmentWrites_moved y x
  · exact square_cases (by decide)
  · decide

def formatBit (n : Nat) (p : Position) : Nat :=
  if p.1 = 8 then
    if p.2 ≤ 5 then 14 - p.2 else if p.2 = 7 then 8 else if p.2 = 8 then 7 else n - 1 - p.2
  else if p.1 ≤ 5 then p.1 else if p.1 = 7 then 6 else p.1 + 15 - n

def FormatArea (n : Nat) (p : Position) : Prop :=
  p.1 = 8 ∧ (p.2 ≤ 5 ∨ p.2 = 7 ∨ p.2 = 8 ∨ n - 8 ≤ p.2 ∧ p.2 < n) ∨
    p.2 = 8 ∧ (p.1 ≤ 5 ∨ p.1 = 7 ∨ n - 7 ≤ p.1 ∧ p.1 < n)

section
variable {n : Nat}

theorem formatBit_spec (large : 21 ≤ n) {b : Nat} (small : b < 15) {p : Position}
    (stands : IsFormat n b p) : formatBit n p = b ∧ FormatArea n p := by
  unfold FormatArea formatBit
  rcases stands with rfl | rfl
  · unfold formatPositions
    split_ifs <;> simp_all <;> omega
  · unfold formatPositions
    split_ifs <;> simp_all <;> omega

theorem isFormat_formatBit (large : 21 ≤ n) {p : Position} (area : FormatArea n p) :
    formatBit n p < 15 ∧ IsFormat n (formatBit n p) p := by
  obtain ⟨y, x⟩ := p
  unfold FormatArea at area
  unfold IsFormat formatBit formatPositions
  dsimp only at area ⊢
  rw [Prod.mk.injEq, Prod.mk.injEq]
  constructor
  · split_ifs <;> omega
  · split_ifs <;> omega

theorem isFormat_iff (large : 21 ≤ n) (p : Position) :
    (∃ b ∈ List.range 15, IsFormat n b p) ↔ FormatArea n p := by
  constructor
  · rintro ⟨b, listed, stands⟩
    exact (formatBit_spec large (List.mem_range.mp listed) stands).2
  · intro area
    obtain ⟨small, stands⟩ := isFormat_formatBit large area
    exact ⟨_, List.mem_range.mpr small, stands⟩

theorem decide_format (large : 21 ≤ n) (word : Nat) {p : Position} (area : FormatArea n p) :
    decide (∃ b ∈ List.range 15, IsFormat n b p ∧ word.testBit b = true) =
      word.testBit (formatBit n p) := by
  apply Bool.eq_iff_iff.mpr
  rw [decide_eq_true_iff]
  constructor
  · rintro ⟨b, listed, stands, bit⟩
    rwa [(formatBit_spec large (List.mem_range.mp listed) stands).1]
  · intro bit
    obtain ⟨small, stands⟩ := isFormat_formatBit large area
    exact ⟨_, List.mem_range.mpr small, stands, bit⟩

theorem placeholderWrites_paints (large : 21 ≤ n) :
    Paints (placeholderWrites n) (FormatArea n) (fun _ => Module.format Module.light) := by
  constructor
  · rintro ⟨y, x⟩ area
    simp only [placeholderWrites, covers_append, covers_flatMap, covers_cons, covers_nil, or_false,
      List.mem_range, Prod.mk.injEq]
    rcases area with ⟨row, low | seven | eight | ⟨high, inside⟩⟩ | ⟨column, low | seven | ⟨high, inside⟩⟩ <;>
      dsimp only at *
    · exact .inl ⟨x, by omega⟩
    · omega
    · omega
    · by_cases near : n - 6 ≤ x
      · exact .inl ⟨n - 1 - x, by omega⟩
      · omega
    · exact .inl ⟨y, by omega⟩
    · omega
    · by_cases near : n - 6 ≤ y
      · exact .inl ⟨n - 1 - y, by omega⟩
      · omega
  · intro w member
    simp only [placeholderWrites, List.mem_append, List.mem_flatMap, List.mem_range, List.mem_cons,
      List.not_mem_nil, or_false] at member
    unfold FormatArea
    rcases member with ⟨i, small, rfl | rfl | rfl | rfl⟩ | rfl | rfl | rfl | rfl | rfl | rfl <;>
      exact ⟨by dsimp only; omega, rfl⟩

theorem formatWrites_paints (large : 21 ≤ n) (word : Nat) :
    Paints (formatWrites n word) (FormatArea n) (fun p => Module.format (word.testBit (formatBit n p))) := by
  constructor
  · rintro ⟨y, x⟩ area
    simp only [formatWrites, covers_append, covers_flatMap, covers_cons, covers_nil, or_false,
      List.mem_range, List.mem_reverse, Prod.mk.injEq]
    rcases area with ⟨row, low | seven | eight | ⟨high, inside⟩⟩ | ⟨column, low | seven | ⟨high, inside⟩⟩ <;>
      dsimp only at *
    · exact .inl (.inl ⟨5 - x, by omega⟩)
    · omega
    · omega
    · by_cases near : n - 6 ≤ x
      · exact .inl (.inr ⟨n - 1 - x, by omega⟩)
      · omega
    · exact .inl (.inr ⟨y, by omega⟩)
    · omega
    · by_cases near : n - 6 ≤ y
      · exact .inl (.inl ⟨y + 6 - n, by omega⟩)
      · omega
  · intro w member
    simp only [formatWrites, List.mem_append, List.mem_flatMap, List.mem_range, List.mem_reverse,
      List.mem_cons, List.not_mem_nil, or_false] at member
    unfold FormatArea formatBit
    rcases member with (⟨i, small, rfl | rfl⟩ | ⟨i, small, rfl | rfl⟩) |
        rfl | rfl | rfl | rfl | rfl | rfl <;>
      refine ⟨by dsimp only; omega, ?_⟩ <;> dsimp only <;> congr 2 <;> split_ifs <;> omega

def versionBit (n : Nat) (p : Position) : Nat :=
  if p.1 < 6 then p.1 * 3 + (p.2 + 11 - n) else p.2 * 3 + (p.1 + 11 - n)

def VersionArea (n : Nat) (p : Position) : Prop :=
  p.1 < 6 ∧ n - 11 ≤ p.2 ∧ p.2 < n - 8 ∨ p.2 < 6 ∧ n - 11 ≤ p.1 ∧ p.1 < n - 8

theorem versionBit_spec (large : 21 ≤ n) {b : Nat} (small : b < 18) {p : Position}
    (stands : IsVersion n b p) : versionBit n p = b ∧ VersionArea n p := by
  unfold VersionArea versionBit
  rcases stands with rfl | rfl
  · unfold versionPositions
    dsimp only
    split_ifs <;> omega
  · unfold versionPositions
    dsimp only
    split_ifs <;> omega

theorem isVersion_versionBit (large : 21 ≤ n) {p : Position} (area : VersionArea n p) :
    versionBit n p < 18 ∧ IsVersion n (versionBit n p) p := by
  obtain ⟨y, x⟩ := p
  unfold VersionArea at area
  unfold IsVersion versionBit versionPositions
  dsimp only at area ⊢
  rw [Prod.mk.injEq, Prod.mk.injEq]
  constructor
  · split_ifs <;> omega
  · split_ifs <;> omega

theorem isVersion_iff (large : 21 ≤ n) (p : Position) :
    (∃ b ∈ List.range 18, IsVersion n b p) ↔ VersionArea n p := by
  constructor
  · rintro ⟨b, listed, stands⟩
    exact (versionBit_spec large (List.mem_range.mp listed) stands).2
  · intro area
    obtain ⟨small, stands⟩ := isVersion_versionBit large area
    exact ⟨_, List.mem_range.mpr small, stands⟩

theorem decide_version (large : 21 ≤ n) (word : Nat) {p : Position} (area : VersionArea n p) :
    decide (∃ b ∈ List.range 18, IsVersion n b p ∧ word.testBit b = true) =
      word.testBit (versionBit n p) := by
  apply Bool.eq_iff_iff.mpr
  rw [decide_eq_true_iff]
  constructor
  · rintro ⟨b, listed, stands, bit⟩
    rwa [(versionBit_spec large (List.mem_range.mp listed) stands).1]
  · intro bit
    obtain ⟨small, stands⟩ := isVersion_versionBit large area
    exact ⟨_, List.mem_range.mpr small, stands, bit⟩

theorem versionWrites_paints (large : 21 ≤ n) (word : Nat) :
    Paints (versionWrites n word) (VersionArea n)
      (fun p => Module.version (word.testBit (versionBit n p))) := by
  constructor
  · rintro ⟨y, x⟩ area
    simp only [versionWrites, covers_flatMap, covers_cons, covers_nil, or_false, List.mem_range,
      Prod.mk.injEq]
    rcases area with ⟨low, left, right⟩ | ⟨low, left, right⟩ <;> dsimp only at *
    · exact ⟨x + 11 - n, by omega, y, by omega⟩
    · exact ⟨y + 11 - n, by omega, x, by omega⟩
  · intro w member
    simp only [versionWrites, List.mem_flatMap, List.mem_range, List.mem_cons, List.not_mem_nil,
      or_false] at member
    unfold VersionArea versionBit
    obtain ⟨i, smallI, j, smallJ, rfl | rfl⟩ := member <;> refine ⟨by dsimp only; omega, ?_⟩ <;>
      dsimp only <;> congr 2 <;> split_ifs <;> omega

theorem emptyWrites_paints (large : 21 ≤ n) :
    Paints (emptyWrites n) (fun p => InSquare n p ∧ ∃ c ∈ finderCentres n, far p c = 4)
      (fun _ => Module.empty Module.light) := by
  have ring (p c : Position) : far p c = 4 ↔ far p c ≤ 4 ∧ ¬ far p c ≤ 3 := by omega
  constructor
  · rintro ⟨y, x⟩ ⟨⟨below, right⟩, c, listed, distance⟩
    rw [ring, far_le_iff, far_le_iff] at distance
    simp only [finderCentres, List.mem_cons, List.not_mem_nil, or_false] at listed
    simp only [emptyWrites, covers_flatMap, covers_cons, covers_nil, or_false, List.mem_range,
      Prod.mk.injEq]
    rcases listed with rfl | rfl | rfl <;> dsimp only at *
    · by_cases column : x = 7
      · exact ⟨y, by omega⟩
      · exact ⟨x, by omega⟩
    · by_cases column : x = n - 8
      · exact ⟨y, by omega⟩
      · exact ⟨x + 8 - n, by omega⟩
    · by_cases column : x = 7
      · exact ⟨y + 8 - n, by omega⟩
      · exact ⟨x, by omega⟩
  · intro w member
    simp only [emptyWrites, List.mem_flatMap, List.mem_range, List.mem_cons, List.not_mem_nil,
      or_false] at member
    obtain ⟨i, small, rfl | rfl | rfl | rfl | rfl | rfl⟩ := member
    · exact ⟨⟨⟨by dsimp only; omega, by dsimp only; omega⟩, (3, 3), by simp [finderCentres], by
        rw [ring, far_le_iff, far_le_iff]; dsimp only; omega⟩, rfl⟩
    · exact ⟨⟨⟨by dsimp only; omega, by dsimp only; omega⟩, (3, 3), by simp [finderCentres], by
        rw [ring, far_le_iff, far_le_iff]; dsimp only; omega⟩, rfl⟩
    · exact ⟨⟨⟨by dsimp only; omega, by dsimp only; omega⟩, (n - 4, 3), by simp [finderCentres], by
        rw [ring, far_le_iff, far_le_iff]; dsimp only; omega⟩, rfl⟩
    · exact ⟨⟨⟨by dsimp only; omega, by dsimp only; omega⟩, (n - 4, 3), by simp [finderCentres], by
        rw [ring, far_le_iff, far_le_iff]; dsimp only; omega⟩, rfl⟩
    · exact ⟨⟨⟨by dsimp only; omega, by dsimp only; omega⟩, (3, n - 4), by simp [finderCentres], by
        rw [ring, far_le_iff, far_le_iff]; dsimp only; omega⟩, rfl⟩
    · exact ⟨⟨⟨by dsimp only; omega, by dsimp only; omega⟩, (3, n - 4), by simp [finderCentres], by
        rw [ring, far_le_iff, far_le_iff]; dsimp only; omega⟩, rfl⟩

theorem timingWrites_paints (large : 21 ≤ n) :
    Paints (timingWrites n) (IsTiming n) (fun p => Module.timing (decide ((p.1 + p.2) % 2 = 0))) := by
  unfold timingWrites positionSize
  constructor
  · rintro ⟨y, x⟩ area
    simp only [covers_flatMap, covers_cons, covers_nil, or_false, List.mem_range'_1, Prod.mk.injEq]
    rcases area with ⟨row, left, right⟩ | ⟨column, left, right⟩ <;> dsimp only at *
    · exact ⟨x, by omega⟩
    · exact ⟨y, by omega⟩
  · intro w member
    simp only [List.mem_flatMap, List.mem_range'_1, List.mem_cons, List.not_mem_nil, or_false] at member
    obtain ⟨i, ⟨first, last⟩, rfl | rfl⟩ := member <;> refine ⟨?_, ?_⟩
    · exact .inl ⟨rfl, by dsimp only; omega, by dsimp only; omega⟩
    · by_cases even : i % 2 = 0
      · simp [even, Module.dark, show (6 + i) % 2 = 0 by omega]
      · simp [show i % 2 = 1 by omega, Module.light, show (6 + i) % 2 = 1 by omega]
    · exact .inr ⟨rfl, by dsimp only; omega, by dsimp only; omega⟩
    · by_cases even : i % 2 = 0
      · simp [even, Module.dark, show (i + 6) % 2 = 0 by omega]
      · simp [show i % 2 = 1 by omega, Module.light, show (i + 6) % 2 = 1 by omega]

theorem finderCentres_apart (large : 21 ≤ n) : Apart 7 (finderCentres n) := by
  intro c listedC d listedD differ
  by_contra near
  have close : far c d ≤ 6 := by omega
  rw [far_le_iff] at close
  simp only [finderCentres, List.mem_cons, List.not_mem_nil, or_false] at listedC listedD
  rcases listedC with rfl | rfl | rfl <;> rcases listedD with rfl | rfl | rfl <;> dsimp only at close <;>
    first | exact differ rfl | omega

theorem patternWrites_paints (large : 21 ≤ n) :
    Paints (patternWrites n) (fun p => ∃ c ∈ finderCentres n, far p c ≤ 3)
      (fun p => Module.finderPattern
        (decide (∃ c ∈ finderCentres n, far p c ≤ 3 ∧ far p c ≠ 2))) := by
  have corner : n - 7 + 3 = n - 4 := by omega
  have each : ∀ offset ∈ [(0, 0), (n - positionSize, 0), (0, n - positionSize)],
      Paints (finderWrites offset.1 offset.2) (fun p => far p (offset.1 + 3, offset.2 + 3) ≤ 3)
        (fun p => Module.finderPattern
          (decide (∃ c ∈ finderCentres n, far p c ≤ 3 ∧ far p c ≠ 2))) := by
    intro offset listed
    refine (finderWrites_paints offset.1 offset.2).congr (fun _ => Iff.rfl) fun p near => ?_
    rw [decide_near (finderCentres_apart large) ?_ near]
    simp only [List.mem_cons, List.not_mem_nil, or_false] at listed
    rcases listed with rfl | rfl | rfl <;> simp [finderCentres, positionSize, corner]
  refine (Paints.flatMap each).congr (fun p => ?_) fun _ _ => rfl
  simp only [List.mem_cons, List.not_mem_nil, or_false, exists_eq_or_imp, exists_eq_left,
    finderCentres, positionSize, corner, Nat.zero_add]
  tauto

end

abbrev number (v : Version) : Nat := v + 1

theorem size_eq (v : Version) : v.size = side (number v) := by
  unfold Version.size side number
  omega

theorem alignmentCentres_eq (v : Version) :
    Default.alignmentCentres v = QrStandard.alignmentCentres (number v) := by
  revert v
  decide +kernel

theorem alignmentAxis_apart (v : Version) : ∀ a ∈ alignmentAxis (number v), ∀ b ∈ alignmentAxis (number v),
    a ≠ b → a + 5 ≤ b ∨ b + 5 ≤ a := by
  revert v
  decide +kernel

theorem alignmentCentres_axis {version : Nat} {c : Position}
    (listed : c ∈ QrStandard.alignmentCentres version) :
    c.1 ∈ alignmentAxis version ∧ c.2 ∈ alignmentAxis version := by
  have member := (List.mem_filter.mp listed).1
  exact List.mem_product.mp member

theorem alignmentCentres_apart (v : Version) : Apart 5 (QrStandard.alignmentCentres (number v)) := by
  intro c listedC d listedD differ
  by_contra near
  have close : far c d ≤ 4 := by omega
  rw [far_le_iff] at close
  obtain ⟨rowC, columnC⟩ := alignmentCentres_axis listedC
  obtain ⟨rowD, columnD⟩ := alignmentCentres_axis listedD
  have rows : c.1 = d.1 := by
    by_contra other
    have apart := alignmentAxis_apart v c.1 rowC d.1 rowD other
    omega
  have columns : c.2 = d.2 := by
    by_contra other
    have apart := alignmentAxis_apart v c.2 columnC d.2 columnD other
    omega
  exact differ (Prod.ext rows columns)

theorem alignmentAxis_inside (v : Version) :
    ∀ a ∈ alignmentAxis (number v), 6 ≤ a ∧ a + 7 ≤ side (number v) := by
  revert v
  decide +kernel

theorem alignments_paint (v : Version) :
    Paints ((Default.alignmentCentres v).flatMap fun centre => alignmentWrites centre.1 centre.2)
      (fun p => ∃ c ∈ QrStandard.alignmentCentres (number v), far p c ≤ 2)
      (fun p => Module.alignment
        (decide (∃ c ∈ QrStandard.alignmentCentres (number v), far p c ≤ 2 ∧ far p c ≠ 1))) := by
  rw [alignmentCentres_eq]
  apply Paints.flatMap
  intro c listed
  obtain ⟨row, column⟩ := alignmentCentres_axis listed
  have top := (alignmentAxis_inside v c.1 row).1
  have left := (alignmentAxis_inside v c.2 column).1
  have paints := alignmentWrites_paints (c.1 - 2) (c.2 - 2)
  rw [Nat.sub_add_cancel (by omega), Nat.sub_add_cancel (by omega)] at paints
  refine paints.congr (fun _ => Iff.rfl) fun p near => ?_
  exact congrArg Module.alignment (decide_near (alignmentCentres_apart v) listed near 1).symm

end AirFerry.Proof.Qr
