import Mathlib.Tactic
import Mathlib.Data.Int.ModEq
import Mathlib.Data.Int.GCD

/-!
# FNV-1a

A round exclusive-ors a byte into the state and multiplies. Two states `d` apart are `(d + e) * prime`
apart after a round, where `e` is small.
-/

namespace AirFerry.Library.Fnv

variable {w : Nat}

def round (prime h : BitVec w) (b : BitVec 8) : BitVec w := (h ^^^ b.setWidth w) * prime

def shift (h : BitVec w) (b : BitVec 8) : Int := (h ^^^ b.setWidth w).toNat - h.toNat

theorem toNat_byte (wide : 8 ≤ w) (b : BitVec 8) : (b.setWidth w).toNat = b.toNat := by
  rw [BitVec.toNat_setWidth]
  exact Nat.mod_eq_of_lt (lt_of_lt_of_le b.isLt (Nat.pow_le_pow_right Nat.two_pos wide))

theorem shift_bounds (wide : 8 ≤ w) (h : BitVec w) (b : BitVec 8) :
    -255 ≤ shift h b ∧ shift h b ≤ 255 := by
  have high : (h.toNat ^^^ b.toNat) / 2 ^ 8 = h.toNat / 2 ^ 8 := by
    rw [Nat.xor_div_two_pow, Nat.div_eq_of_lt b.isLt, Nat.xor_zero]
  rw [shift, BitVec.toNat_xor, toNat_byte wide]
  omega

theorem shift_injective (wide : 8 ≤ w) (h : BitVec w) : Function.Injective (shift h) := by
  intro a b same
  have equal : (h ^^^ a.setWidth w).toNat = (h ^^^ b.setWidth w).toNat := by
    simp only [shift] at same
    omega
  have bytes : a.setWidth w = b.setWidth w := by
    have cancelled := congrArg (h ^^^ ·) (BitVec.eq_of_toNat_eq equal)
    simpa only [← BitVec.xor_assoc, BitVec.xor_self, BitVec.zero_xor] using cancelled
  apply BitVec.eq_of_toNat_eq
  rw [← toNat_byte wide a, ← toNat_byte wide b, bytes]

theorem round_difference (prime : BitVec w) {h h' : BitVec w} {d : Int}
    (apart : (h.toNat - h'.toNat : Int) ≡ d [ZMOD 2 ^ w]) (b b' : BitVec 8) :
    ((round prime h b).toNat - (round prime h' b').toNat : Int) ≡
      (d + (shift h b - shift h' b')) * prime.toNat [ZMOD 2 ^ w] := by
  have reduced : ∀ (x : BitVec w) (c : BitVec 8), ((round prime x c).toNat : Int) ≡
      (x.toNat + shift x c) * prime.toNat [ZMOD 2 ^ w] := by
    intro x c
    rw [round, BitVec.toNat_mul, shift, Int.natCast_mod, add_sub_cancel]
    push_cast
    exact Int.mod_modEq _ _
  have both := (reduced h b).sub (reduced h' b')
  have moved := (apart.add_right (shift h b - shift h' b')).mul_right (prime.toNat : Int)
  have arranged : (h.toNat + shift h b - (h'.toNat + shift h' b') : Int) =
      h.toNat - h'.toNat + (shift h b - shift h' b') := by ring
  rw [← sub_mul, arranged] at both
  exact both.trans moved

def prime128 : BitVec 128 := 0x0000000001000000000000000000013b

/-- Multiples of the prime's powers by so little never cancel modulo `2 ^ 128`: with
`p = 2 ^ 88 + 315`, the upper and the lower half of the sum vanish, and together they say that
`X - 315` divides the polynomial of the multiples twice. -/
theorem no_small_relation {e₁ e₂ e₃ e₄ : Int} (h₁ : |e₁| ≤ 510) (h₂ : |e₂| ≤ 510)
    (h₃ : |e₃| ≤ 510) (h₄ : |e₄| ≤ 510)
    (relation : (2 ^ 128 : Int) ∣ ((e₁ * (2 ^ 88 + 315) + e₂) * (2 ^ 88 + 315) + e₃) * (2 ^ 88 + 315) +
      e₄) : e₁ = 0 ∧ e₂ = 0 ∧ e₃ = 0 ∧ e₄ = 0 := by
  rw [abs_le] at h₁ h₂ h₃ h₄
  let lower := 315 ^ 3 * e₁ + 315 ^ 2 * e₂ + 315 * e₃ + e₄
  let upper := 3 * 315 ^ 2 * e₁ + 2 * 315 * e₂ + e₃
  have expanded : ((e₁ * (2 ^ 88 + 315) + e₂) * (2 ^ 88 + 315) + e₃) * (2 ^ 88 + 315) + e₄ =
      2 ^ 128 * (2 ^ 136 * e₁ + 2 ^ 48 * (3 * 315 * e₁ + e₂)) + (2 ^ 88 * upper + lower) := by
    simp only [lower, upper]
    ring
  rw [expanded, Int.dvd_add_right (Dvd.intro _ rfl)] at relation
  have low : lower = 0 := by
    apply Int.eq_zero_of_abs_lt_dvd (m := 2 ^ 88)
    · have divides : (2 ^ 88 : Int) ∣ 2 ^ 88 * upper + lower :=
        dvd_trans ⟨2 ^ 40, by norm_num⟩ relation
      rwa [Int.dvd_add_right (Dvd.intro _ rfl)] at divides
    · rw [abs_lt]
      simp only [lower]
      constructor
      · norm_num
        linarith
      · norm_num
        linarith
  have high : upper = 0 := by
    rw [low, add_zero, show (2 ^ 128 : Int) = 2 ^ 88 * 2 ^ 40 by norm_num] at relation
    apply Int.eq_zero_of_abs_lt_dvd (m := 2 ^ 40)
    · exact Int.dvd_of_mul_dvd_mul_left (by norm_num) relation
    · rw [abs_lt]
      simp only [upper]
      constructor
      · norm_num
        linarith
      · norm_num
        linarith
  simp only [lower] at low
  simp only [upper] at high
  omega

theorem odd_prime128 : IsCoprime (2 ^ 128 : Int) (prime128.toNat : Int) := by
  apply IsCoprime.pow_left
  exact (Int.isCoprime_iff_gcd_eq_one.mpr (by decide))

theorem four_bytes_injective {h : BitVec 128} {a₁ a₂ a₃ a₄ b₁ b₂ b₃ b₄ : BitVec 8}
    (same : round prime128 (round prime128 (round prime128 (round prime128 h a₁) a₂) a₃) a₄ =
      round prime128 (round prime128 (round prime128 (round prime128 h b₁) b₂) b₃) b₄) :
    a₁ = b₁ ∧ a₂ = b₂ ∧ a₃ = b₃ ∧ a₄ = b₄ := by
  have start : (h.toNat - h.toNat : Int) ≡ 0 [ZMOD 2 ^ 128] := by
    rw [sub_self]
  have first := round_difference prime128 start a₁ b₁
  have second := round_difference prime128 first a₂ b₂
  have third := round_difference prime128 second a₃ b₃
  have fourth := round_difference prime128 third a₄ b₄
  have small : ∀ (x y : BitVec 128) (a b : BitVec 8), |shift x a - shift y b| ≤ 510 := by
    intro x y a b
    have left := shift_bounds (by decide) x a
    have right := shift_bounds (by decide) y b
    rw [abs_le]
    omega
  have relation : (2 ^ 128 : Int) ∣ _ :=
    odd_prime128.dvd_of_dvd_mul_right
      (Int.modEq_zero_iff_dvd.mp (fourth.symm.trans (by rw [same, sub_self])))
  rw [zero_add] at relation
  obtain ⟨e₁, e₂, e₃, e₄⟩ := no_small_relation (small _ _ _ _) (small _ _ _ _) (small _ _ _ _)
    (small _ _ _ _) relation
  -- each round starts from equal states once the bytes before it agree
  obtain rfl := shift_injective (by decide) h (sub_eq_zero.mp e₁)
  obtain rfl := shift_injective (by decide) _ (sub_eq_zero.mp e₂)
  obtain rfl := shift_injective (by decide) _ (sub_eq_zero.mp e₃)
  obtain rfl := shift_injective (by decide) _ (sub_eq_zero.mp e₄)
  exact ⟨rfl, rfl, rfl, rfl⟩

end AirFerry.Library.Fnv
