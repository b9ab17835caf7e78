import Mathlib.Tactic

/-!
# A buffered writer

Writes gather in a buffer, which is drained when it is full. The file behind it takes as much of
each write as it likes, or fails.
-/

namespace AirFerry.Library.BufWriter

variable {α ε : Type}

/-- How the file answers its writes, in order, and what becomes of a final flush. -/
structure Device (ε : Type) where
  accept : Nat → Except ε Nat
  stuck : ε
  sync : Except ε Unit

structure Device.Steady (device : Device ε) : Prop where
  accept : ∀ n, ∃ room, 0 < room ∧ device.accept n = .ok room
  sync : device.sync = .ok ()

structure File (α : Type) where
  contents : List α
  writes : Nat

def File.drain (device : Device ε) (file : File α) (items : List α) :
    File α × List α × Except ε Unit :=
  if items = [] then (file, [], .ok ())
  else
    match device.accept file.writes with
    | .error reason => ({ file with writes := file.writes + 1 }, items, .error reason)
    | .ok room =>
        if room = 0 then ({ file with writes := file.writes + 1 }, items, .error device.stuck)
        else
          File.drain device
            { contents := file.contents ++ items.take room, writes := file.writes + 1 }
            (items.drop room)
termination_by items.length
decreasing_by
  rename_i some room
  have := List.length_pos_iff.mpr some
  rw [List.length_drop]
  omega

theorem File.drain_ok {device : Device ε} {file file' : File α} {items rest : List α}
    (h : file.drain device items = (file', rest, .ok ())) :
    rest = [] ∧ file'.contents = file.contents ++ items := by
  fun_induction File.drain device file items with
  | case1 file =>
      cases h
      exact ⟨rfl, (List.append_nil _).symm⟩
  | case2 => cases h
  | case3 => cases h
  | case4 file items _ room _ _ ih =>
      obtain ⟨done, contents⟩ := ih h
      refine ⟨done, ?_⟩
      rw [contents, List.append_assoc, List.take_append_drop]

theorem File.drain_steady {device : Device ε} (steady : device.Steady) (file : File α)
    (items : List α) : (file.drain device items).2.2 = .ok () := by
  fun_induction File.drain device file items with
  | case1 => rfl
  | case2 file items _ reason answer =>
      obtain ⟨room, -, accepted⟩ := steady.accept file.writes
      rw [accepted] at answer
      cases answer
  | case3 file items _ answer =>
      obtain ⟨room, positive, accepted⟩ := steady.accept file.writes
      rw [accepted] at answer
      cases answer
      exact absurd positive (Nat.lt_irrefl 0)
  | case4 file items _ room _ _ ih => exact ih

structure Writer (α : Type) where
  file : File α
  buf : List α
  capacity : Nat

namespace Writer

variable {device : Device ε} {w w' : Writer α} {items : List α}

def withCapacity (capacity : Nat) (contents : List α) : Writer α :=
  { file := { contents, writes := 0 }, buf := [], capacity }

def flushBuf (device : Device ε) (w : Writer α) : Writer α × Except ε Unit :=
  match w.file.drain device w.buf with
  | (file, buf, result) => ({ w with file, buf }, result)

def writeAll (device : Device ε) (w : Writer α) (items : List α) : Writer α × Except ε Unit :=
  let spare := w.capacity - w.buf.length
  if items.length < spare then ({ w with buf := w.buf ++ items }, .ok ())
  else
    match if spare < items.length then w.flushBuf device else (w, .ok ()) with
    | (w, .error reason) => (w, .error reason)
    | (w, .ok ()) =>
        if w.capacity ≤ items.length then
          match w.file.drain device items with
          | (file, _, result) => ({ w with file }, result)
        else ({ w with buf := w.buf ++ items }, .ok ())

def flush (device : Device ε) (w : Writer α) : Writer α × Except ε Unit :=
  match w.flushBuf device with
  | (w, .error reason) => (w, .error reason)
  | (w, .ok ()) => (w, device.sync)

/-- Dropping the writer drains it once more and ignores what comes of it. -/
def drop (device : Device ε) (w : Writer α) : File α := (w.flushBuf device).1.file

def written (w : Writer α) : List α := w.file.contents ++ w.buf

theorem flushBuf_ok (h : w.flushBuf device = (w', .ok ())) :
    w'.buf = [] ∧ w'.file.contents = w.written := by
  unfold flushBuf at h
  cases drained : w.file.drain device w.buf with
  | mk file rest =>
      obtain ⟨buf, result⟩ := rest
      rw [drained] at h
      cases h
      obtain ⟨done, contents⟩ := File.drain_ok drained
      exact ⟨done, contents⟩

theorem flushBuf_steady (steady : device.Steady) (w : Writer α) :
    (w.flushBuf device).2 = .ok () := by
  unfold flushBuf
  exact File.drain_steady steady w.file w.buf

theorem writeAll_ok (h : w.writeAll device items = (w', .ok ())) :
    w'.written = w.written ++ items := by
  unfold writeAll at h
  simp only at h
  split at h
  · cases h
    exact (List.append_assoc _ _ _).symm
  rename_i full
  have ready : ∀ w₁ : Writer α, (if w.capacity - w.buf.length < items.length then w.flushBuf device
      else (w, .ok ())) = (w₁, .ok ()) → w₁.written = w.written ∧
        (w₁.capacity ≤ items.length → w₁.buf = [] ∨ items = []) := by
    intro w₁ before
    split at before
    · obtain ⟨empty, contents⟩ := flushBuf_ok before
      rw [written, empty, contents, List.append_nil]
      exact ⟨rfl, fun _ => Or.inl rfl⟩
    · cases before
      refine ⟨rfl, fun large => ?_⟩
      by_cases empty : items = []
      · exact Or.inr empty
      · have := List.length_pos_iff.mpr empty
        exact Or.inl (List.length_eq_zero_iff.mp (by omega))
  split at h
  · cases h
  rename_i w₁ before
  obtain ⟨same, room⟩ := ready w₁ before
  split at h
  · rename_i large
    cases drained : w₁.file.drain device items with
    | mk file rest =>
        obtain ⟨left, result⟩ := rest
        rw [drained] at h
        cases h
        rw [← same, written, written, (File.drain_ok drained).2]
        rcases room large with empty | empty
        · rw [empty, List.append_nil, List.append_nil]
        · rw [empty, List.append_nil, List.append_nil]
  · cases h
    rw [← same]
    exact (List.append_assoc _ _ _).symm

theorem writeAll_steady (steady : device.Steady) (w : Writer α) (items : List α) :
    (w.writeAll device items).2 = .ok () := by
  unfold writeAll
  simp only
  split
  · rfl
  have drained := flushBuf_steady steady w
  split
  · rename_i failed
    split at failed
    · rw [failed] at drained
      cases drained
    · cases failed
  · split
    · exact File.drain_steady steady _ items
    · rfl

theorem flush_ok (h : w.flush device = (w', .ok ())) : w'.file.contents = w.written := by
  unfold flush at h
  split at h
  · cases h
  · rename_i w₁ drained
    obtain rfl : w₁ = w' := congrArg Prod.fst h
    exact (flushBuf_ok drained).2

theorem flush_steady (steady : device.Steady) (w : Writer α) : (w.flush device).2 = .ok () := by
  have drained := flushBuf_steady steady w
  unfold flush
  split
  · rename_i failed
    rw [failed] at drained
    cases drained
  · exact steady.sync

end Writer

end AirFerry.Library.BufWriter
