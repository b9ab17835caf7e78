import AirFerry.Proof.QrPatterns

/-!
# The empty symbol

An empty symbol has a module for data just where the standard has no function pattern, and its
other modules have the colours of the standard; the format information comes later.
-/

namespace AirFerry.Proof.Qr
open Library FastQr FastQr.Default QrStandard

instance (n : Nat) : DecidablePred (FormatArea n) := fun _ => inferInstanceAs (Decidable (_ ∨ _))
instance (n : Nat) : DecidablePred (VersionArea n) := fun _ => inferInstanceAs (Decidable (_ ∨ _))

/-- Finder and timing patterns and the dark module, the assignments that come last first. -/
def corners (n : Nat) (p : Position) : FastQr.Module :=
  if p = (n - 8, 8) then Module.darkModule Module.dark
  else if IsTiming n p then Module.timing (decide ((p.1 + p.2) % 2 = 0))
  else if ∃ c ∈ finderCentres n, far p c ≤ 3 then
    Module.finderPattern (decide (∃ c ∈ finderCentres n, far p c ≤ 3 ∧ far p c ≠ 2))
  else Module.data Module.light

def aligned (v : Version) (p : Position) : FastQr.Module :=
  if ∃ c ∈ QrStandard.alignmentCentres (number v), far p c ≤ 2 then
    Module.alignment (decide (∃ c ∈ QrStandard.alignmentCentres (number v), far p c ≤ 2 ∧ far p c ≠ 1))
  else corners v.size p

def numbered (v : Version) (p : Position) : FastQr.Module :=
  if 6 ≤ v.val ∧ VersionArea v.size p then
    Module.version (v.information.testBit (versionBit v.size p))
  else aligned v p

def blank (v : Version) (p : Position) : FastQr.Module :=
  if FormatArea v.size p then Module.format Module.light
  else if InSquare v.size p ∧ ∃ c ∈ finderCentres v.size, far p c = 4 then Module.empty Module.light
  else numbered v p

theorem size_bounds (v : Version) : 21 ≤ v.size ∧ v.size ≤ qrMaxWidth := by
  unfold Version.size qrMaxWidth
  omega

theorem inSquare_format {n : Nat} (large : 21 ≤ n) (p : Position) (area : FormatArea n p) :
    InSquare n p := by
  unfold FormatArea at area
  constructor <;> omega

theorem inSquare_version {n : Nat} (large : 21 ≤ n) (p : Position) (area : VersionArea n p) :
    InSquare n p := by
  unfold VersionArea at area
  constructor <;> omega

theorem inSquare_timing {n : Nat} (large : 21 ≤ n) (p : Position) (line : IsTiming n p) :
    InSquare n p := by
  unfold IsTiming at line
  constructor <;> omega

theorem inSquare_finder {n : Nat} (large : 21 ≤ n) (p : Position)
    (near : ∃ c ∈ finderCentres n, far p c ≤ 3) : InSquare n p := by
  obtain ⟨c, listed, near⟩ := near
  rw [far_le_iff] at near
  simp only [finderCentres, List.mem_cons, List.not_mem_nil, or_false] at listed
  rcases listed with rfl | rfl | rfl <;> exact ⟨by dsimp only at near; omega, by dsimp only at near; omega⟩

theorem inSquare_alignment (v : Version) (p : Position)
    (near : ∃ c ∈ QrStandard.alignmentCentres (number v), far p c ≤ 2) : InSquare v.size p := by
  obtain ⟨c, listed, near⟩ := near
  obtain ⟨row, column⟩ := alignmentCentres_axis listed
  have below := (alignmentAxis_inside v c.1 row).2
  have right := (alignmentAxis_inside v c.2 column).2
  rw [far_le_iff] at near
  rw [← size_eq] at below right
  constructor <;> omega

theorem dark_paints (n : Nat) : Writes.Paints [((n - 8, 8), Module.darkModule Module.dark)]
    (fun p => p = (n - 8, 8)) fun _ => Module.darkModule Module.dark where
  covers p here := by simp [here]
  only w member := by
    rw [List.mem_singleton.mp member]
    exact ⟨rfl, rfl⟩

theorem alignmentCentres_first : QrStandard.alignmentCentres 1 = [] := by decide

theorem alignments_drawn {v : Version} {qr : QRCode} (drawn : Draws v.size qr (corners v.size)) :
    ∃ qr', createMatrixAlignments qr v = .ok qr' ∧ Draws v.size qr' (aligned v) := by
  by_cases first : v.val = 0
  · refine ⟨qr, if_pos first, drawn.congr fun p _ => ?_⟩
    rw [aligned, if_neg]
    intro ⟨c, listed, _⟩
    rw [number, first, alignmentCentres_first] at listed
    cases listed
  · obtain ⟨qr', put, drawn'⟩ := drawn.paint (alignments_paint v) (inSquare_alignment v)
    exact ⟨qr', (if_neg first).trans put, drawn'⟩

theorem version_drawn {v : Version} {qr : QRCode} (drawn : Draws v.size qr (aligned v)) :
    ∃ qr', createMatrixVersionInfo qr v = .ok qr' ∧ Draws v.size qr' (numbered v) := by
  have large := (size_bounds v).1
  by_cases small : v.val < 6
  · refine ⟨qr, if_pos small, drawn.congr fun p _ => ?_⟩
    rw [numbered, if_neg fun both => absurd both.1 (not_le.mpr small)]
  · obtain ⟨qr', put, drawn'⟩ := drawn.paint (versionWrites_paints large v.information)
      (inSquare_version large)
    rw [← drawn.size] at put
    refine ⟨qr', (if_neg small).trans put, drawn'.congr fun p _ => ?_⟩
    simp only [numbered, not_lt.mp small, true_and]

theorem createMatrix_blank (v : Version) :
    ∃ qr, Default.createMatrix v = .ok qr ∧ Draws v.size qr (blank v) := by
  obtain ⟨large, fits⟩ := size_bounds v
  have start : (QRCode.default v.size).size = v.size := rfl
  obtain ⟨qr₁, pattern, drawn₁⟩ := (Draws.default fits).paint (patternWrites_paints large)
    (inSquare_finder large)
  obtain ⟨qr₂, timing, drawn₂⟩ := drawn₁.paint (timingWrites_paints large) (inSquare_timing large)
  obtain ⟨qr₃, dark, drawn₃⟩ := drawn₂.paint (dark_paints v.size) fun p here => by
    rw [here]
    exact ⟨by dsimp only; omega, by dsimp only; omega⟩
  obtain ⟨qr₄, alignments, drawn₄⟩ := alignments_drawn drawn₃
  obtain ⟨qr₅, version, drawn₅⟩ := version_drawn drawn₄
  obtain ⟨qr₆, empty, drawn₆⟩ := drawn₅.paint (emptyWrites_paints large) fun p ring => ring.1
  obtain ⟨qr, placeholder, drawn⟩ := drawn₆.paint (placeholderWrites_paints large) (inSquare_format large)
  refine ⟨qr, ?_, drawn⟩
  simp only [Default.createMatrix, createMatrixPattern, createMatrixTiming, createMatrixDarkModule,
    createMatrixEmpty, bind, Except.bind, start, drawn₁.size, drawn₂.size, drawn₅.size, drawn₆.size,
    pattern, timing, dark, alignments, version, empty, placeholder]

theorem information_eq (v : Version) (large : 6 ≤ v.val) : v.information = versionWord (number v) := by
  revert v
  decide +kernel

theorem formatInformation_eq : Hardcode.ecmToFormatInformation = formatWord 0 := by decide

def shown (m : FastQr.Module) : Option Bool := if m.moduleType = .data then none else some m.value

theorem corners_shown (n : Nat) (p : Position) :
    shown (corners n p) =
      if p = (n - 8, 8) then some true
      else if IsTiming n p then some (decide ((p.1 + p.2) % 2 = 0))
      else if ∃ c ∈ finderCentres n, far p c ≤ 3 then
        some (decide (∃ c ∈ finderCentres n, far p c ≤ 3 ∧ far p c ≠ 2))
      else none := by
  unfold corners
  split_ifs <;> rfl

theorem aligned_shown (v : Version) (p : Position) :
    shown (aligned v p) =
      if ∃ c ∈ QrStandard.alignmentCentres (number v), far p c ≤ 2 then
        some (decide (∃ c ∈ QrStandard.alignmentCentres (number v), far p c ≤ 2 ∧ far p c ≠ 1))
      else shown (corners v.size p) := by
  unfold aligned
  split_ifs <;> rfl

theorem numbered_shown (v : Version) (p : Position) :
    shown (numbered v p) =
      if 7 ≤ number v ∧ ∃ b ∈ List.range 18, IsVersion v.size b p then
        some (decide (∃ b ∈ List.range 18, IsVersion v.size b p ∧ (versionWord (number v)).testBit b = true))
      else shown (aligned v p) := by
  have large := (size_bounds v).1
  unfold numbered
  by_cases area : 6 ≤ v.val ∧ VersionArea v.size p
  · have stands := (isVersion_iff large p).mpr area.2
    rw [if_pos area, if_pos ⟨Nat.succ_le_succ area.1, stands⟩, decide_version large _ area.2,
      information_eq v area.1]
    rfl
  · rw [if_neg area, if_neg]
    rintro ⟨seven, stands⟩
    exact area ⟨Nat.le_of_succ_le_succ seven, (isVersion_iff large p).mp stands⟩

/-- The empty symbol is for data just where the standard has no function pattern; elsewhere it has the
colours of the standard, but for the format information. -/
theorem functionColour_blank {v : Version} {p : Position} (inside : InSquare v.size p) :
    functionColour (number v) 0 p =
      if FormatArea v.size p then some ((formatWord 0).testBit (formatBit v.size p))
      else shown (blank v p) := by
  have large := (size_bounds v).1
  simp only [functionColour, ← size_eq]
  by_cases area : FormatArea v.size p
  · rw [if_pos area, if_pos ((isFormat_iff large p).mpr area), decide_format large _ area]
  · rw [if_neg area, if_neg fun stands => area ((isFormat_iff large p).mp stands), blank, if_neg area]
    by_cases ring : ∃ c ∈ finderCentres v.size, far p c = 4
    · rw [if_pos ring, if_pos ⟨inside, ring⟩]
      rfl
    · have outside : ¬ (InSquare v.size p ∧ ∃ c ∈ finderCentres v.size, far p c = 4) :=
        fun both => ring both.2
      rw [if_neg ring, if_neg outside, numbered_shown, aligned_shown, corners_shown]

theorem blank_data {v : Version} {p : Position} (free : (blank v p).moduleType = .data) :
    blank v p = Module.data Module.light ∧ ¬ FormatArea v.size p := by
  unfold blank numbered aligned corners at *
  split_ifs at * <;> first | exact ⟨rfl, ‹_›⟩ | cases free

end AirFerry.Proof.Qr
