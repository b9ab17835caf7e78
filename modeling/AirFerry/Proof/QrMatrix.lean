import AirFerry.FastQr.Module
import AirFerry.Library.Writes

namespace AirFerry.Proof.Qr
open Library FastQr

def InSquare (n : Nat) (p : Nat × Nat) : Prop := p.1 < n ∧ p.2 < n

instance (n : Nat) (p : Nat × Nat) : Decidable (InSquare n p) := inferInstanceAs (Decidable (_ ∧ _))

structure Draws (n : Nat) (qr : QRCode) (table : Nat × Nat → Module) : Prop where
  size : qr.size = n
  fits : n ≤ qrMaxWidth
  length : qr.data.length = qrMaxModules
  shows : ∀ p, InSquare n p → qr.data[p.1 * n + p.2]? = some (table p)

theorem position_lt {n : Nat} {p : Nat × Nat} (inside : InSquare n p) (fits : n ≤ qrMaxWidth) :
    (p.1 + 1) * n ≤ qrMaxModules ∧ p.1 * n + p.2 < (p.1 + 1) * n := by
  refine ⟨Nat.mul_le_mul (inside.1.trans_le fits) fits, ?_⟩
  rw [Nat.succ_mul]
  exact Nat.add_lt_add_left inside.2 _

theorem position_injective {n : Nat} {p q : Nat × Nat} (insideP : InSquare n p)
    (insideQ : InSquare n q) (same : p.1 * n + p.2 = q.1 * n + q.2) : p = q := by
  have quotient (p : Nat × Nat) (inside : InSquare n p) : (p.1 * n + p.2) / n = p.1 := by
    rw [Nat.add_comm, Nat.add_mul_div_right _ _ (Nat.zero_lt_of_lt inside.2),
      Nat.div_eq_of_lt inside.2, Nat.zero_add]
  have rows : p.1 = q.1 := by rw [← quotient p insideP, same, quotient q insideQ]
  rw [rows] at same
  exact Prod.ext rows (Nat.add_left_cancel same)

section
variable {n : Nat} {qr : QRCode} {table : Nat × Nat → Module}

theorem Draws.congr {other : Nat × Nat → Module} (drawn : Draws n qr table)
    (same : ∀ p, InSquare n p → table p = other p) : Draws n qr other :=
  ⟨drawn.size, drawn.fits, drawn.length, fun p inside => by rw [drawn.shows p inside, same p inside]⟩

theorem Draws.default (fits : n ≤ qrMaxWidth) :
    Draws n (QRCode.default n) fun _ => Module.data Module.light := by
  refine ⟨rfl, fits, List.length_replicate, fun p inside => ?_⟩
  obtain ⟨below, row⟩ := position_lt inside fits
  exact List.getElem?_replicate_of_lt (row.trans_le below)

theorem Draws.get (drawn : Draws n qr table) {y x : Nat} (inside : InSquare n (y, x)) :
    qr.get y x = .ok (table (y, x)) := by
  obtain ⟨below, row⟩ := position_lt inside drawn.fits
  have width : (y + 1) * n - y * n = n := by rw [Nat.succ_mul, Nat.add_sub_cancel_left]
  have present := drawn.shows (y, x) inside
  have column : ((qr.data.drop (y * n)).take n)[x]? = some (table (y, x)) := by
    rw [List.getElem?_take, if_pos inside.2, List.getElem?_drop, present]
  rw [QRCode.get, drawn.size, slice, if_pos ⟨Nat.mul_le_mul_right n (Nat.le_succ y), by
    rw [drawn.length]; exact below⟩, width]
  simp only [bind, Except.bind]
  exact index_of_getElem? column

theorem Draws.put (drawn : Draws n qr table) {y x : Nat} (inside : InSquare n (y, x)) (m : Module) :
    ∃ qr', qr.put y x m = .ok qr' ∧ Draws n qr' (Function.update table (y, x) m) := by
  obtain ⟨below, row⟩ := position_lt inside drawn.fits
  refine ⟨{ data := qr.data.set (y * n + x) m, size := n }, ?_, rfl, drawn.fits, ?_, fun p other => ?_⟩
  · rw [QRCode.put, drawn.size, if_pos (by rw [drawn.length]; exact below), if_pos inside.2]
  · rw [List.length_set]
    exact drawn.length
  · change (qr.data.set (y * n + x) m)[p.1 * n + p.2]? = _
    rw [List.getElem?_set]
    by_cases here : p = (y, x)
    · rw [if_pos (by rw [here]), if_pos (by rw [drawn.length]; exact row.trans_le below), here,
        Function.update_self]
    · have apart : y * n + x ≠ p.1 * n + p.2 := by
        intro same
        exact here (position_injective other inside same.symm)
      rw [if_neg apart, drawn.shows p other, Function.update_of_ne here]

theorem Draws.putAll {writes : List Write} (drawn : Draws n qr table)
    (inside : ∀ w ∈ writes, InSquare n w.1) :
    ∃ qr', qr.putAll writes = .ok qr' ∧ Draws n qr' (Writes.after table writes) := by
  induction writes generalizing qr table with
  | nil => exact ⟨qr, rfl, drawn⟩
  | cons w writes ih =>
      simp only [List.forall_mem_cons] at inside
      obtain ⟨next, put, draws⟩ := drawn.put inside.1 w.2
      obtain ⟨qr', rest, result⟩ := ih draws inside.2
      refine ⟨qr', ?_, result⟩
      rw [QRCode.putAll, List.foldlM_cons, put]
      exact rest

theorem Draws.paint {writes : List Write} {region : Nat × Nat → Prop} [DecidablePred region]
    {value : Nat × Nat → Module} (drawn : Draws n qr table)
    (paints : Writes.Paints writes region value) (inside : ∀ p, region p → InSquare n p) :
    ∃ qr', qr.putAll writes = .ok qr' ∧
      Draws n qr' fun p => if region p then value p else table p := by
  obtain ⟨qr', put, draws⟩ := drawn.putAll fun w member => inside w.1 (paints.only w member).1
  exact ⟨qr', put, draws.congr fun p _ => paints.after table p⟩

end

end AirFerry.Proof.Qr
