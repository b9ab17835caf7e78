import Mathlib.Tactic

/-!
# Reading in chunks

A reader yields a fixed list of items and then ends or fails. How many items one read yields is
not its caller's choice; what all of them yield together is.
-/

namespace AirFerry.Library.Chunked

variable {α ε : Type}

structure Chunking where
  size : Nat → Nat
  positive : ∀ n, 0 < size n

structure Reader (α ε : Type) where
  pending : List α
  failure : Option ε
  reads : Nat

def Reader.read (chunking : Chunking) (r : Reader α ε) (room : Nat) :
    Except ε (List α × Reader α ε) :=
  if r.pending = [] then
    match r.failure with
    | some reason => .error reason
    | none => .ok ([], r)
  else
    let n := min (chunking.size r.reads) room
    .ok (r.pending.take n, { r with pending := r.pending.drop n, reads := r.reads + 1 })

structure Take (α ε : Type) where
  inner : Reader α ε
  limit : Nat

namespace Take

variable {chunking : Chunking} {r r' : Take α ε} {room : Nat} {chunk : List α}

def read (chunking : Chunking) (r : Take α ε) (room : Nat) : Except ε (List α × Take α ε) :=
  if r.limit = 0 then .ok ([], r)
  else
    match r.inner.read chunking (min room r.limit) with
    | .error reason => .error reason
    | .ok (chunk, inner) => .ok (chunk, { inner, limit := r.limit - chunk.length })

def content (r : Take α ε) : List α := r.inner.pending.take r.limit

def ending (r : Take α ε) : Option ε :=
  if r.inner.pending.length < r.limit then r.inner.failure else none

theorem length_content_le (r : Take α ε) : r.content.length ≤ r.limit := List.length_take_le _ _

theorem content_eq_nil : r.content = [] ↔ r.limit = 0 ∨ r.inner.pending = [] := List.take_eq_nil_iff

theorem read_end (done : r.content = []) :
    r.read chunking room = match r.ending with
      | some reason => .error reason
      | none => .ok ([], r) := by
  unfold read ending
  by_cases none : r.limit = 0
  · rw [if_pos none, if_neg (by omega)]
  have empty : r.inner.pending = [] := (content_eq_nil.mp done).resolve_left none
  rw [if_neg none, if_pos (by rw [empty, List.length_nil]; omega), Reader.read, if_pos empty]
  cases r.inner.failure with
  | some reason => rfl
  | none => rfl

theorem read_more (more : r.content ≠ []) (space : r.limit ≠ 0 → 0 < room) :
    ∃ chunk r', r.read chunking room = .ok (chunk, r') ∧ chunk ≠ [] ∧
      r.content = chunk ++ r'.content ∧ r'.ending = r.ending := by
  obtain ⟨limit, pending⟩ := not_or.mp fun none => more (content_eq_nil.mpr none)
  obtain ⟨n, chosen⟩ : ∃ n, n = min (chunking.size r.inner.reads) (min room r.limit) := ⟨_, rfl⟩
  have positive : 0 < n := by
    have := chunking.positive r.inner.reads
    have := space limit
    omega
  have within : n ≤ r.limit := by omega
  have length : (r.inner.pending.take n).length = min n r.inner.pending.length := List.length_take
  have nonempty : r.inner.pending.length ≠ 0 := fun zero => pending (List.length_eq_zero_iff.mp zero)
  refine ⟨r.inner.pending.take n, {
      inner := { r.inner with pending := r.inner.pending.drop n, reads := r.inner.reads + 1 }
      limit := r.limit - (r.inner.pending.take n).length }, ?_, ?_, ?_, ?_⟩
  · rw [read, if_neg limit, Reader.read, if_neg pending, ← chosen]
  · intro empty
    rw [empty, List.length_nil] at length
    omega
  · rw [content, content]
    dsimp only
    rw [length]
    by_cases short : r.inner.pending.length ≤ n
    · rw [List.drop_eq_nil_of_le short, List.take_nil, List.append_nil,
        List.take_of_length_le short, List.take_of_length_le (short.trans within)]
    · rw [min_eq_left (by omega), ← List.take_add]
      congr 1
      omega
  · rw [ending, ending]
    dsimp only
    rw [List.length_drop, length]
    by_cases before : r.inner.pending.length < r.limit
    · rw [if_pos before, if_pos (by omega)]
    · rw [if_neg before, if_neg (by omega)]

theorem read_spec (space : r.limit ≠ 0 → 0 < room) :
    match r.read chunking room with
    | .error reason => r.content = [] ∧ r.ending = some reason
    | .ok (chunk, rest) => r.content = chunk ++ rest.content ∧ rest.ending = r.ending ∧
        (chunk = [] → r.content = [] ∧ r.ending = none) := by
  by_cases done : r.content = []
  · rw [read_end done]
    cases ending : r.ending with
    | some reason => exact ⟨done, rfl⟩
    | none => exact ⟨rfl, ending, fun _ => ⟨done, rfl⟩⟩
  · obtain ⟨chunk, rest, step, nonempty, content, ending⟩ := @read_more _ _ chunking r room done space
    rw [step]
    exact ⟨content, ending, fun empty => absurd empty nonempty⟩

theorem limit_lt (step : r.read chunking room = .ok (chunk, r')) (some : chunk ≠ []) :
    r'.limit < r.limit := by
  unfold read at step
  split at step
  · cases step
    exact absurd rfl some
  · split at step
    · cases step
    · cases step
      have positive := List.length_pos_iff.mpr some
      dsimp only
      omega

/-- Each read may fill the whole buffer: a smaller one is another chunking. -/
def readToEnd (chunking : Chunking) (r : Take α ε) (out : List α) : Except ε (List α) :=
  match _ : r.read chunking r.limit with
  | .error reason => .error reason
  | .ok (chunk, rest) =>
      if chunk = [] then .ok out
      else readToEnd chunking rest (out ++ chunk)
termination_by r.limit
decreasing_by
  rename_i step nonempty
  exact limit_lt step nonempty

theorem readToEnd_eq (chunking : Chunking) (r : Take α ε) (out : List α) :
    r.readToEnd chunking out = match r.ending with
      | some reason => .error reason
      | none => .ok (out ++ r.content) := by
  fun_induction readToEnd chunking r out with
  | case1 r out reason step =>
      have spec := @read_spec _ _ chunking r r.limit Nat.pos_of_ne_zero
      rw [step] at spec
      rw [spec.2]
  | case2 r out rest step =>
      have spec := @read_spec _ _ chunking r r.limit Nat.pos_of_ne_zero
      rw [step] at spec
      obtain ⟨content, ending⟩ := spec.2.2 rfl
      rw [content, ending, List.append_nil]
  | case3 r out chunk rest step nonempty ih =>
      have spec := @read_spec _ _ chunking r r.limit Nat.pos_of_ne_zero
      rw [step] at spec
      rw [ih, spec.2.1, spec.1, List.append_assoc]

end Take

end AirFerry.Library.Chunked
