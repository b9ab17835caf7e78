import AirFerry.Proof.BitBuffer
import AirFerry.Proof.QrPath

/-!
# Placing and masking

The code goes the path of the standard, puts the next bit on every module for data it meets, and
then inverts the modules for data on a checkerboard.
-/

namespace AirFerry.Proof.Qr
open Library FastQr FastQr.Placement QrStandard

theorem foldlM_flatMap {α β σ : Type} {row : σ → α → Exec σ} {step : σ → β → Exec σ} {items : α → List β}
    {Good : σ → Prop} (keeps : ∀ s b s', Good s → step s b = .ok s' → Good s')
    (rows : ∀ s a, Good s → row s a = (items a).foldlM step s) (xs : List α) {s : σ} (good : Good s) :
    xs.foldlM row s = (xs.flatMap items).foldlM step s := by
  have kept : ∀ (bs : List β) s s', Good s → bs.foldlM step s = .ok s' → Good s' := by
    intro bs
    induction bs with
    | nil =>
        intro s s' good done
        cases done
        exact good
    | cons b bs ih =>
        intro s s' good done
        rw [List.foldlM_cons] at done
        obtain ⟨next, first, rest⟩ := Exec.bind_ok done
        exact ih next s' (keeps s b next good first) rest
  induction xs generalizing s with
  | nil => rfl
  | cons a xs ih =>
      rw [List.foldlM_cons, List.flatMap_cons, List.foldlM_append, rows s a good]
      cases first : (items a).foldlM step s with
      | error fault => rfl
      | ok next => exact ih (kept _ s next good first)

theorem put_size {qr qr' : QRCode} {y x : Nat} {m : FastQr.Module} (put : qr.put y x m = .ok qr') :
    qr'.size = qr.size := by
  unfold QRCode.put at put
  split_ifs at put
  cases put
  rfl

theorem placeBit_size {bytes : Bytes} {state state' : QRCode × Nat} {y x : Nat}
    (placed : placeBit bytes state y x = .ok state') : state'.1.size = state.1.size := by
  obtain ⟨m, -, rest⟩ := Exec.bind_ok placed
  by_cases free : m.moduleType = .data
  · rw [if_pos free] at rest
    obtain ⟨byte, -, rest⟩ := Exec.bind_ok rest
    obtain ⟨qr, put, done⟩ := Exec.bind_ok rest
    cases done
    exact put_size put
  · rw [if_neg free] at rest
    cases rest
    rfl

theorem placeColumn_path {bytes : Bytes} {n k x : Nat} {state : QRCode × Nat} (size : state.1.size = n) :
    placeColumn bytes (decide (k % 2 = 0)) x state =
      (pairPath n k x).foldlM (fun s p => placeBit bytes s p.1 p.2) state := by
  have rows (ys : List Nat) := @foldlM_flatMap Nat Position (QRCode × Nat)
    (fun s y => do placeBit bytes (← placeBit bytes s y x) y (x - 1))
    (fun s p => placeBit bytes s p.1 p.2) (fun y => [(y, x), (y, x - 1)]) (fun _ => True)
    (fun _ _ _ _ _ => trivial) (fun s y _ => by simp) ys state trivial
  simp only [placeColumn, pairPath, decide_eq_true_eq, size]
  exact rows _

theorem placeColumns_zipIdx (bytes : Bytes) (xs : List Nat) (k : Nat) (state : QRCode × Nat) :
    placeColumns bytes (decide (k % 2 = 0)) xs state = (xs.zipIdx k).foldlM
      (fun s pair => placeColumn bytes (decide (pair.2 % 2 = 0)) pair.1 s) state := by
  induction xs generalizing k state with
  | nil => rfl
  | cons x xs ih =>
      have turned : (!decide (k % 2 = 0)) = decide ((k + 1) % 2 = 0) := by
        by_cases even : k % 2 = 0
        · simp [even, show (k + 1) % 2 = 1 by omega]
        · simp [even, show (k + 1) % 2 = 0 by omega]
      rw [placeColumns, List.zipIdx_cons, List.foldlM_cons, turned]
      congr 1
      funext next
      exact ih (k + 1) next

theorem columns_eq (v : Version) : columns v.size = pairColumns v.size := by
  revert v
  decide +kernel

theorem placeColumns_path (bytes : Bytes) {v : Version} {state : QRCode × Nat}
    (size : state.1.size = v.size) :
    placeColumns bytes true (columns v.size) state =
      (path v.size).foldlM (fun s p => placeBit bytes s p.1 p.2) state := by
  have start := placeColumns_zipIdx bytes (pairColumns v.size) 0 state
  rw [columns_eq]
  refine start.trans (@foldlM_flatMap (Nat × Nat) Position (QRCode × Nat) _ _ _
    (fun s => s.1.size = v.size) ?_ ?_ _ state size)
  · intro s p s' good placed
    exact (placeBit_size placed).trans good
  · intro s pair good
    exact placeColumn_path good

theorem and_shiftLeft_ne_zero (b : U8) {k : Nat} (small : k < 8) :
    ((b &&& (1 <<< k)) != 0) = b.getLsbD k := by
  revert b
  revert k
  decide +kernel

section
variable {n : Nat} {qr : QRCode} {table : Position → FastQr.Module}

def Free (table : Position → FastQr.Module) (p : Position) : Bool := (table p).moduleType = .data

def bitWrites (bytes : Bytes) (table : Position → FastQr.Module) (positions : List Position) (i : Nat) :
    List Write :=
  ((positions.filter (Free table)).zipIdx i).map fun w => (w.1, (table w.1).set (bitAt bytes w.2))

theorem placeBit_free {bytes : Bytes} {p : Position} {i : Nat} (drawn : Draws n qr table)
    (inside : InSquare n p) (free : Free table p = true) (enough : i < 8 * bytes.length) :
    ∃ qr', placeBit bytes (qr, i) p.1 p.2 = .ok (qr', i + 1) ∧
      Draws n qr' (Function.update table p ((table p).set (bitAt bytes i))) := by
  obtain ⟨qr', put, draws⟩ := drawn.put inside ((table p).set (bitAt bytes i))
  refine ⟨qr', ?_, draws⟩
  have byte : index bytes (i / 8) = .ok (bytes[i / 8]?.getD 0) := by
    rw [index_of_lt (by omega), List.getElem?_eq_getElem (by omega), Option.getD_some]
  have bit := and_shiftLeft_ne_zero (bytes[i / 8]?.getD 0) (show 7 - i % 8 < 8 by omega)
  rw [placeBit, drawn.get inside]
  simp only [bind, Except.bind, if_pos (of_decide_eq_true free), byte]
  rw [bit, ← bitAt, put]
  rfl

theorem placeBit_taken {bytes : Bytes} {p : Position} {i : Nat} (drawn : Draws n qr table)
    (inside : InSquare n p) (taken : ¬ Free table p = true) :
    placeBit bytes (qr, i) p.1 p.2 = .ok (qr, i) := by
  rw [placeBit, drawn.get inside]
  simp only [bind, Except.bind, if_neg fun free => taken (decide_eq_true free)]
  rfl

theorem bitWrites_update {bytes : Bytes} {positions : List Position} {p : Position} (other : p ∉ positions)
    (m : FastQr.Module) (i : Nat) :
    bitWrites bytes (Function.update table p m) positions i = bitWrites bytes table positions i := by
  have apart : ∀ q ∈ positions, Function.update table p m q = table q := by
    intro q member
    refine Function.update_of_ne ?_ m table
    rintro rfl
    exact other member
  have same : positions.filter (Free (Function.update table p m)) = positions.filter (Free table) := by
    apply List.filter_congr
    intro q member
    rw [Free, Free, apart q member]
  rw [bitWrites, bitWrites, same]
  apply List.map_congr_left
  intro w member
  rw [apart w.1 (List.mem_filter.mp (zipIdx_member member)).1]

theorem placeBits_spec {bytes : Bytes} {positions : List Position} {i : Nat} (drawn : Draws n qr table)
    (inside : ∀ p ∈ positions, InSquare n p) (distinct : positions.Nodup)
    (enough : i + positions.length ≤ 8 * bytes.length) :
    ∃ qr' j, positions.foldlM (fun s p => placeBit bytes s p.1 p.2) (qr, i) = .ok (qr', j) ∧
      Draws n qr' (Writes.after table (bitWrites bytes table positions i)) := by
  induction positions generalizing qr table i with
  | nil => exact ⟨qr, i, rfl, drawn⟩
  | cons p positions ih =>
      rw [List.length_cons] at enough
      simp only [List.forall_mem_cons] at inside
      obtain ⟨first, rest⟩ := List.nodup_cons.mp distinct
      rw [List.foldlM_cons]
      by_cases free : Free table p = true
      · obtain ⟨next, placed, draws⟩ := @placeBit_free n qr table bytes p i drawn inside.1 free (by omega)
        obtain ⟨qr', j, done, result⟩ := @ih next _ (i + 1) draws inside.2 rest (by omega)
        refine ⟨qr', j, ?_, ?_⟩
        · rw [placed]
          exact done
        · rw [bitWrites_update first] at result
          rw [bitWrites, List.filter_cons_of_pos free, List.zipIdx_cons, List.map_cons, Writes.after_cons]
          exact result
      · obtain ⟨qr', j, done, result⟩ := @ih qr table i drawn inside.2 rest (by omega)
        refine ⟨qr', j, ?_, ?_⟩
        · rw [placeBit_taken drawn inside.1 free]
          exact done
        · rwa [bitWrites, List.filter_cons_of_neg free]

theorem toggleData_spec {p : Position} (drawn : Draws n qr table) (inside : InSquare n p) :
    ∃ qr', toggleData qr p.1 p.2 = .ok qr' ∧
      Draws n qr' (Function.update table p (if Free table p then (table p).toggle else table p)) := by
  by_cases free : Free table p = true
  · obtain ⟨qr', put, draws⟩ := drawn.put inside (table p).toggle
    refine ⟨qr', ?_, by rwa [if_pos free]⟩
    rw [toggleData, drawn.get inside]
    simp only [bind, Except.bind, if_pos (of_decide_eq_true free)]
    exact put
  · refine ⟨qr, ?_, by rwa [if_neg free, Function.update_eq_self]⟩
    rw [toggleData, drawn.get inside]
    simp only [bind, Except.bind, if_neg fun same => free (decide_eq_true same)]
    rfl

theorem toggleCells_spec {cells : List Position} (drawn : Draws n qr table)
    (inside : ∀ p ∈ cells, InSquare n p) (distinct : cells.Nodup) :
    ∃ qr', cells.foldlM (fun qr p => toggleData qr p.1 p.2) qr = .ok qr' ∧
      Draws n qr' fun p => if p ∈ cells ∧ Free table p then (table p).toggle else table p := by
  induction cells generalizing qr table with
  | nil => exact ⟨qr, rfl, drawn.congr fun p _ => by simp⟩
  | cons p cells ih =>
      simp only [List.forall_mem_cons] at inside
      obtain ⟨first, rest⟩ := List.nodup_cons.mp distinct
      obtain ⟨next, toggled, draws⟩ := toggleData_spec drawn inside.1
      obtain ⟨qr', done, result⟩ := ih draws inside.2 rest
      refine ⟨qr', ?_, result.congr fun q _ => ?_⟩
      · rw [List.foldlM_cons, toggled]
        exact done
      · by_cases here : q = p
        · subst here
          simp [first, Function.update_self]
        · simp [Free, here]

end

theorem toggleData_size {qr qr' : QRCode} {y x : Nat} (toggled : toggleData qr y x = .ok qr') :
    qr'.size = qr.size := by
  obtain ⟨m, -, rest⟩ := Exec.bind_ok toggled
  by_cases free : m.moduleType = .data
  · rw [if_pos free] at rest
    exact put_size rest
  · rw [if_neg free] at rest
    cases rest
    rfl

theorem stepBy2_range' (start count : Nat) :
    stepBy2 (List.range' start count) = List.range' start ((count + 1) / 2) 2 := by
  induction count using Nat.twoStepInduction generalizing start with
  | zero => rfl
  | one => rfl
  | more count ih _ =>
      rw [List.range'_succ, List.range'_succ, stepBy2, ih, show (count + 2 + 1) / 2 = (count + 1) / 2 + 1 by omega,
        List.range'_succ]

def checkerboard (n : Nat) : List Position :=
  (List.range n).flatMap fun row =>
    (stepBy2 (List.range' (row &&& 1) (n - (row &&& 1)))).map fun column => (row, column)

theorem mem_checkerboard {n : Nat} {p : Position} :
    p ∈ checkerboard n ↔ InSquare n p ∧ masked 0 p = true := by
  simp only [checkerboard, List.mem_flatMap, List.mem_range, List.mem_map, stepBy2_range', Nat.and_one_is_mod,
    List.mem_range', masked, InSquare, beq_iff_eq]
  constructor
  · rintro ⟨row, below, column, ⟨i, small, rfl⟩, rfl⟩
    dsimp only
    omega
  · rintro ⟨⟨below, right⟩, even⟩
    exact ⟨p.1, below, p.2, ⟨p.2 / 2, by omega, by omega⟩, rfl⟩

theorem nodup_checkerboard (n : Nat) : (checkerboard n).Nodup := by
  refine List.nodup_flatMap.mpr ⟨fun row _ => ?_, List.nodup_range.imp ?_⟩
  · rw [stepBy2_range']
    exact (List.nodup_range' 2 (by simp)).map fun _ _ same => (Prod.ext_iff.mp same).2
  · intro row row' differ p here there
    obtain ⟨column, -, rfl⟩ := List.mem_map.mp here
    obtain ⟨column', -, same⟩ := List.mem_map.mp there
    exact differ (Prod.ext_iff.mp same).1.symm

theorem maskCheckerboard_spec {n : Nat} {qr : QRCode} {table : Position → FastQr.Module}
    (drawn : Draws n qr table) :
    ∃ qr', maskCheckerboard qr = .ok qr' ∧
      Draws n qr' fun p => if masked 0 p ∧ Free table p then (table p).toggle else table p := by
  have cells : maskCheckerboard qr = (checkerboard n).foldlM (fun qr p => toggleData qr p.1 p.2) qr := by
    rw [maskCheckerboard, drawn.size]
    refine @foldlM_flatMap Nat Position QRCode _ _ _ (fun qr => qr.size = n) ?_ ?_ _ qr drawn.size
    · intro qr p qr' good toggled
      exact (toggleData_size toggled).trans good
    · intro qr row good
      rw [good, List.foldlM_map]
  obtain ⟨qr', done, draws⟩ := toggleCells_spec drawn (fun p member => (mem_checkerboard.mp member).1)
    (nodup_checkerboard n)
  refine ⟨qr', cells.trans done, draws.congr fun p inside => ?_⟩
  simp only [mem_checkerboard, inside, true_and]

theorem free_blank {v : Version} {p : Position} (inside : InSquare v.size p) :
    Free (blank v) p = (functionColour (number v) 0 p).isNone := by
  rw [functionColour_blank inside, Free]
  by_cases free : (blank v p).moduleType = .data
  · rw [if_neg (blank_data free).2, shown, if_pos free, decide_eq_true free]
    rfl
  · rw [shown, if_neg free, decide_eq_false free]
    split_ifs <;> rfl

theorem path_free (v : Version) : (path v.size).filter (Free (blank v)) = dataPositions (number v) := by
  have odd := side_odd (number v)
  rw [dataPositions, ← size_eq] at *
  apply List.filter_congr
  intro p listed
  exact free_blank (mem_path odd listed).1

theorem bitWrites_places (bytes : Bytes) (v : Version) :
    (bitWrites bytes (blank v) (path v.size) 0).map Prod.fst = dataPositions (number v) := by
  rw [bitWrites, path_free, List.map_map]
  exact List.zipIdx_map_fst 0 _

/-- Function modules have the colours of the standard with mask 0, data modules the bits under it. -/
structure Finished (v : Version) (bytes : Bytes) (table : Position → FastQr.Module) : Prop where
  function : ∀ p colour, InSquare v.size p → functionColour (number v) 0 p = some colour →
    (table p).value = colour
  bit : ∀ j p, (dataPositions (number v))[j]? = some p →
    (table p).value = xor (bitAt bytes j) (masked 0 p)

section
variable {v : Version} {bytes : Bytes}

def unmasked (v : Version) (bytes : Bytes) (p : Position) : FastQr.Module :=
  if FormatArea v.size p then Module.format ((formatWord 0).testBit (formatBit v.size p))
  else Writes.after (blank v) (bitWrites bytes (blank v) (path v.size) 0) p

theorem unmasked_bit {j : Nat} {p : Position} (listed : (dataPositions (number v))[j]? = some p) :
    unmasked v bytes p = Module.data (bitAt bytes j) := by
  have member := List.mem_of_getElem? listed
  have inside := dataPositions_inside member
  rw [← size_eq] at inside
  have free : Free (blank v) p = true := by
    rw [← path_free] at member
    exact (List.mem_filter.mp member).2
  obtain ⟨start, outside⟩ := blank_data (of_decide_eq_true free)
  have written : (p, (blank v p).set (bitAt bytes j)) ∈ bitWrites bytes (blank v) (path v.size) 0 := by
    rw [bitWrites, path_free]
    exact List.mem_map.mpr ⟨(p, j), List.mem_zipIdx_iff_getElem?.mpr listed, rfl⟩
  have distinct := nodup_dataPositions (number v)
  rw [← bitWrites_places bytes] at distinct
  rw [unmasked, if_neg outside]
  refine (Writes.after_of_nodup distinct written).trans ?_
  rw [start]
  rfl

theorem unmasked_function {p : Position} {colour : Bool} (inside : InSquare v.size p)
    (function : functionColour (number v) 0 p = some colour) :
    (unmasked v bytes p).moduleType ≠ .data ∧ (unmasked v bytes p).value = colour := by
  have taken : ¬ Free (blank v) p = true := by
    rw [free_blank inside, function]
    exact Bool.false_ne_true
  rw [functionColour_blank inside] at function
  unfold unmasked
  by_cases area : FormatArea v.size p
  · rw [if_pos area] at function ⊢
    cases function
    exact ⟨nofun, rfl⟩
  · have untouched : ∀ w ∈ bitWrites bytes (blank v) (path v.size) 0, w.1 ≠ p := by
      intro w member here
      have place : w.1 ∈ (bitWrites bytes (blank v) (path v.size) 0).map Prod.fst := List.mem_map_of_mem member
      rw [bitWrites_places, ← path_free, here] at place
      exact taken (List.mem_filter.mp place).2
    have type : ¬ (blank v p).moduleType = .data := fun same => taken (decide_eq_true same)
    rw [if_neg area] at function ⊢
    rw [Writes.after_of_not_mem untouched]
    rw [shown, if_neg type] at function
    exact ⟨type, Option.some.inj function⟩

theorem placeOnMatrix_finished (enough : v.size * (v.size - 1) ≤ 8 * bytes.length) (len : Nat) :
    ∃ qr table, placeOnMatrix (CompactQR.fromArray bytes len) v = .ok qr ∧ Draws v.size qr table ∧
      Finished v bytes table := by
  have odd : v.size % 2 = 1 := by rw [size_eq]; exact side_odd _
  have large := (size_bounds v).1
  obtain ⟨qr₀, created, drawn₀⟩ := createMatrix_blank v
  obtain ⟨qr₁, j, placed, drawn₁⟩ := @placeBits_spec _ qr₀ _ bytes (path v.size) 0 drawn₀
    (fun p listed => (mem_path odd listed).1) (nodup_path odd) (by rw [length_path odd]; omega)
  obtain ⟨qr₂, format, drawn₂⟩ := drawn₁.paint (formatWrites_paints large (formatWord 0))
    (inSquare_format large)
  obtain ⟨qr₃, masking, drawn₃⟩ := maskCheckerboard_spec drawn₂
  refine ⟨qr₃, _, ?_, drawn₃, ?_, ?_⟩
  · rw [← placeColumns_path bytes drawn₀.size] at placed
    rw [← drawn₁.size, ← formatInformation_eq] at format
    simp only [placeOnMatrix, placeOnMatrixData, CompactQR.fromArray, Default.createMatrixFormatInfo, bind,
      Except.bind, created, drawn₀.size, placed, pure, Except.pure, format, masking]
  · intro p colour inside function
    obtain ⟨type, value⟩ := @unmasked_function v bytes p colour inside function
    rw [if_neg fun both => type (of_decide_eq_true both.2)]
    exact value
  · intro j p listed
    have bit := @unmasked_bit v bytes j p listed
    unfold unmasked at bit
    simp only [Free, bit, Module.data, and_true, decide_true]
    by_cases inverted : masked 0 p = true
    · simp [inverted, Module.toggle]
    · simp [inverted]

end

end AirFerry.Proof.Qr
