import Mathlib.Tactic

/-!
# Incremental decoders

A decoder consumes packets one at a time and may answer after any of them. Once it has answered it
is fed no further.
-/

namespace AirFerry.Library.Incremental

universe u v w
variable {σ : Type u} {π : Type v} {ο : Type w}

def feed (decode : σ → π → σ × Option ο) : σ → List π → σ × Option ο
  | s, [] => (s, none)
  | s, p :: rest =>
      match decode s p with
      | (s, some answer) => (s, some answer)
      | (s, none) => feed decode s rest

variable (decode : σ → π → σ × Option ο)

@[simp] theorem feed_nil (s : σ) : feed decode s [] = (s, none) := rfl

theorem feed_append (s : σ) (xs ys : List π) :
    feed decode s (xs ++ ys) =
      match feed decode s xs with
      | (s, some answer) => (s, some answer)
      | (s, none) => feed decode s ys := by
  induction xs generalizing s with
  | nil => rfl
  | cons p rest ih =>
      simp only [List.cons_append, feed]
      split
      · rfl
      · exact ih _

theorem feed_append_of_answered {s : σ} {xs : List π} (ys : List π)
    (answered : (feed decode s xs).2.isSome) : feed decode s (xs ++ ys) = feed decode s xs := by
  rw [feed_append]
  split
  · rename_i heq
    exact heq.symm
  · rename_i heq
    simp [heq] at answered

theorem feed_append_of_silent {s : σ} {xs : List π} (ys : List π)
    (silent : (feed decode s xs).2 = none) :
    feed decode s (xs ++ ys) = feed decode (feed decode s xs).1 ys := by
  rw [feed_append]
  split
  · rename_i heq
    simp [heq] at silent
  · rename_i heq
    rw [heq]

theorem feed_singleton (s : σ) (p : π) : feed decode s [p] = decode s p := by
  simp only [feed]
  split <;> simp_all

theorem feed_embed {τ : Type*} {inner : τ → π → τ × Option ο} {embed : τ → σ}
    (step : ∀ t p, decode (embed t) p = (embed (inner t p).1, (inner t p).2)) (t : τ)
    (packets : List π) :
    feed decode (embed t) packets =
      (embed (feed inner t packets).1, (feed inner t packets).2) := by
  induction packets generalizing t with
  | nil => rfl
  | cons p rest ih =>
      simp only [feed, step t p]
      cases now : inner t p with
      | mk next answer =>
          cases answer with
          | some a => rfl
          | none => exact ih next

def accumulate (answer : List π → Option ο) (kept : List π) (p : π) : List π × Option ο :=
  (kept ++ [p], answer (kept ++ [p]))

theorem feed_accumulate_some {answer : List π → Option ο} {kept packets : List π} {a : ο}
    (h : (feed (accumulate answer) kept packets).2 = some a) :
    ∃ taken, taken <+: packets ∧ answer (kept ++ taken) = some a := by
  induction packets generalizing kept with
  | nil => cases h
  | cons p rest ih =>
      simp only [feed, accumulate] at h
      cases now : answer (kept ++ [p]) with
      | some b =>
          rw [now] at h
          cases h
          exact ⟨[p], by simp, now⟩
      | none =>
          rw [now] at h
          obtain ⟨taken, pre, found⟩ := ih h
          refine ⟨p :: taken, by simpa using pre, ?_⟩
          simpa using found

theorem feed_accumulate_isSome {answer : List π → Option ο} {kept packets : List π}
    (nonempty : packets ≠ []) (h : (answer (kept ++ packets)).isSome) :
    (feed (accumulate answer) kept packets).2.isSome := by
  induction packets generalizing kept with
  | nil => exact absurd rfl nonempty
  | cons p rest ih =>
      simp only [feed, accumulate]
      cases now : answer (kept ++ [p]) with
      | some b => rfl
      | none =>
          cases rest with
          | nil =>
              rw [now] at h
              cases h
          | cons q rest => exact ih (by simp) (by simpa using h)

end AirFerry.Library.Incremental
