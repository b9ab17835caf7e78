import Mathlib.Tactic

/-!
# Runs of a machine that may abort

`step` consumes one input; the first fault ends the run.
-/

namespace AirFerry.Library.Run

universe u
variable {ε : Type} {σ ι ο α : Type u}

def run (step : σ → ι → Except ε (σ × ο)) : σ → List ι → Except ε (σ × List ο)
  | s, [] => .ok (s, [])
  | s, i :: rest =>
      match step s i with
      | .error fault => .error fault
      | .ok (s, o) =>
          match run step s rest with
          | .error fault => .error fault
          | .ok (s, os) => .ok (s, o :: os)

variable {step : σ → ι → Except ε (σ × ο)}

@[simp] theorem run_nil (s : σ) : run step s [] = .ok (s, []) := rfl

theorem run_cons {s s₁ s₂ : σ} {i : ι} {rest : List ι} {o : ο} {os : List ο}
    (head : step s i = .ok (s₁, o)) (tail : run step s₁ rest = .ok (s₂, os)) :
    run step s (i :: rest) = .ok (s₂, o :: os) := by
  simp only [run, head, tail]

theorem run_cons_inv {s s₂ : σ} {i : ι} {rest : List ι} {outs : List ο}
    (h : run step s (i :: rest) = .ok (s₂, outs)) :
    ∃ s₁ o os, step s i = .ok (s₁, o) ∧ run step s₁ rest = .ok (s₂, os) ∧ outs = o :: os := by
  simp only [run] at h
  split at h
  · cases h
  · rename_i s₁ o head
    split at h
    · cases h
    · rename_i s' os tail
      cases h
      exact ⟨s₁, o, os, head, tail, rfl⟩

theorem length_of_run {s s' : σ} {inputs : List ι} {outs : List ο}
    (h : run step s inputs = .ok (s', outs)) : outs.length = inputs.length := by
  induction inputs generalizing s outs with
  | nil =>
      cases h
      rfl
  | cons i rest ih =>
      obtain ⟨s₁, o, os, head, tail, rfl⟩ := run_cons_inv h
      rw [List.length_cons, List.length_cons, ih tail]

theorem run_append {s s₁ s₂ : σ} {xs ys : List ι} {os ps : List ο}
    (first : run step s xs = .ok (s₁, os)) (second : run step s₁ ys = .ok (s₂, ps)) :
    run step s (xs ++ ys) = .ok (s₂, os ++ ps) := by
  induction xs generalizing s os with
  | nil =>
      cases first
      exact second
  | cons i rest ih =>
      obtain ⟨s', o, os', head, tail, rfl⟩ := run_cons_inv first
      exact run_cons head (ih tail)

/-- Simulation: each step succeeds and is matched by one step of the abstract machine. -/
theorem run_simulates {Matches : σ → α → Prop} {Expected : ο → Prop} (next : α → ι → α)
    (simulate : ∀ s a i, Matches s a →
      ∃ s' o, step s i = .ok (s', o) ∧ Matches s' (next a i) ∧ Expected o)
    (inputs : List ι) (s : σ) (a : α) (h : Matches s a) :
    ∃ s' os, run step s inputs = .ok (s', os) ∧ Matches s' (inputs.foldl next a) ∧
      ∀ o ∈ os, Expected o := by
  induction inputs generalizing s a with
  | nil => exact ⟨s, [], rfl, h, by simp⟩
  | cons i rest ih =>
      obtain ⟨s₁, o, head, matched, expected⟩ := simulate s a i h
      obtain ⟨s₂, os, tail, final, outputs⟩ := ih s₁ (next a i) matched
      refine ⟨s₂, o :: os, run_cons head tail, final, ?_⟩
      intro out member
      rcases List.mem_cons.mp member with rfl | member
      · exact expected
      · exact outputs out member

theorem forall_step_concat {Step : List ι → ι → Prop} {inputs : List ι} {last : ι} :
    (∀ pre i, pre ++ [i] <+: inputs ++ [last] → Step pre i) ↔
      (∀ pre i, pre ++ [i] <+: inputs → Step pre i) ∧ Step inputs last := by
  constructor
  · intro every
    exact ⟨fun pre i inside => every pre i (inside.trans (List.prefix_append inputs [last])),
      every inputs last List.prefix_rfl⟩
  · rintro ⟨earlier, final⟩ pre i inside
    rcases List.prefix_concat_iff.mp inside with whole | inside
    · obtain ⟨rfl, same⟩ := List.append_inj' whole rfl
      cases same
      exact final
    · exact earlier pre i inside

end AirFerry.Library.Run
