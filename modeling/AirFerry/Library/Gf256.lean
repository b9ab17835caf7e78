import Mathlib.Algebra.Ring.Defs
import Mathlib.Algebra.Group.Hom.End
import Mathlib.Data.Nat.Factors
import Mathlib.Data.Fintype.BigOperators
import Mathlib.Dynamics.PeriodicPts.Defs
import Mathlib.Tactic

/-!
# The field with 256 elements

Bytes as polynomials over the two-element field, modulo `x^8 + x^4 + x^3 + x^2 + 1`. Addition is
`xor`. A product is a sum of doublings, doubling being multiplication with `x`; the powers of `x`
are all the elements but zero.
-/

namespace AirFerry.Library

@[ext] structure Gf256 where
  bits : BitVec 8
deriving DecidableEq

namespace Gf256

instance : Zero Gf256 := ⟨⟨0⟩⟩
instance : One Gf256 := ⟨⟨1⟩⟩
instance : Add Gf256 := ⟨fun a b => ⟨a.bits ^^^ b.bits⟩⟩
instance : Neg Gf256 := ⟨id⟩

@[simp] theorem bits_zero : (0 : Gf256).bits = 0 := rfl
@[simp] theorem bits_one : (1 : Gf256).bits = 1 := rfl
@[simp] theorem bits_add (a b : Gf256) : (a + b).bits = a.bits ^^^ b.bits := rfl
@[simp] theorem neg_eq (a : Gf256) : -a = a := rfl

instance : AddCommGroup Gf256 where
  add_assoc a b c := by ext1; exact BitVec.xor_assoc a.bits b.bits c.bits
  zero_add a := by ext1; exact BitVec.zero_xor
  add_zero a := by ext1; exact BitVec.xor_zero
  add_comm a b := by ext1; exact BitVec.xor_comm a.bits b.bits
  neg_add_cancel a := by ext1; exact BitVec.xor_self
  nsmul := nsmulRec
  zsmul := zsmulRec

@[simp] theorem add_self (a : Gf256) : a + a = 0 := by
  ext1
  exact BitVec.xor_self

def doubleBits (a : BitVec 8) : BitVec 8 := if a.msb then a <<< 1 ^^^ 0x1D else a <<< 1

theorem doubleBits_xor (a b : BitVec 8) : doubleBits (a ^^^ b) = doubleBits a ^^^ doubleBits b := by
  unfold doubleBits
  rw [BitVec.msb_xor, BitVec.shiftLeft_xor_distrib]
  apply BitVec.eq_of_getLsbD_eq
  intro i _
  cases a.msb <;> cases b.msb <;> simp [Bool.xor_comm, Bool.xor_left_comm]

def double : AddMonoid.End Gf256 where
  toFun a := ⟨doubleBits a.bits⟩
  map_zero' := rfl
  map_add' a b := by ext1; exact doubleBits_xor a.bits b.bits

theorem bits_double (a : Gf256) : (double a).bits = doubleBits a.bits := rfl

theorem bits_iterate (k : Nat) (a : Gf256) : ((double ^ k) a).bits = doubleBits^[k] a.bits := by
  induction k with
  | zero => rfl
  | succ k ih =>
      rw [pow_succ', Function.iterate_succ_apply']
      change doubleBits ((double ^ k) a).bits = _
      rw [ih]

def exp (k : Nat) : Gf256 := (double ^ k) 1

theorem exp_succ (k : Nat) : exp (k + 1) = double (exp k) := by
  rw [exp, pow_succ']
  rfl

theorem double_eight : double ^ 8 = 1 + double ^ 2 + double ^ 3 + double ^ 4 := by
  apply AddMonoidHom.ext
  intro a
  change (double ^ 8) a = a + (double ^ 2) a + (double ^ 3) a + (double ^ 4) a
  ext1
  simp only [bits_add, bits_iterate]
  generalize a.bits = b
  revert b
  decide +kernel

def act (a : Gf256) : AddMonoid.End Gf256 :=
  ∑ i ∈ Finset.range 8, if a.bits.getLsbD i then double ^ i else 0

theorem add_self_end (f : AddMonoid.End Gf256) : f + f = 0 := by
  apply AddMonoidHom.ext
  intro a
  exact add_self (f a)

theorem act_zero : act 0 = 0 := by
  simp [act]

theorem act_one : act 1 = 1 := by
  simp [act]

theorem ite_xor (b c : Bool) (f : AddMonoid.End Gf256) :
    (if b ^^ c then f else 0) = (if b then f else 0) + if c then f else 0 := by
  cases b <;> cases c <;> simp [add_self_end]

theorem getLsbD_doubleBits (b : BitVec 8) :
    (doubleBits b).getLsbD 0 = b.getLsbD 7 ∧ (doubleBits b).getLsbD 1 = b.getLsbD 0 ∧
      (doubleBits b).getLsbD 2 = (b.getLsbD 1 ^^ b.getLsbD 7) ∧
      (doubleBits b).getLsbD 3 = (b.getLsbD 2 ^^ b.getLsbD 7) ∧
      (doubleBits b).getLsbD 4 = (b.getLsbD 3 ^^ b.getLsbD 7) ∧
      (doubleBits b).getLsbD 5 = b.getLsbD 4 ∧ (doubleBits b).getLsbD 6 = b.getLsbD 5 ∧
      (doubleBits b).getLsbD 7 = b.getLsbD 6 := by
  revert b
  decide +kernel

theorem act_double (a : Gf256) : act (double a) = double * act a := by
  obtain ⟨b0, b1, b2, b3, b4, b5, b6, b7⟩ := getLsbD_doubleBits a.bits
  simp only [act, Finset.sum_range_succ, Finset.sum_range_zero, zero_add, bits_double, mul_add,
    mul_ite, mul_zero, ← pow_succ', b0, b1, b2, b3, b4, b5, b6, b7, ite_xor, Nat.reduceAdd]
  cases a.bits.getLsbD 7 with
  | false =>
      simp only [Bool.false_eq_true, if_false, zero_add, add_zero]
  | true =>
      rw [double_eight]
      simp only [if_true, pow_zero]
      abel

theorem act_exp (k : Nat) : act (exp k) = double ^ k := by
  induction k with
  | zero => exact act_one
  | succ k ih => rw [exp_succ, act_double, ih, pow_succ']

theorem exp_add (j k : Nat) : exp (j + k) = (double ^ j) (exp k) := by
  rw [exp, pow_add]
  rfl

theorem exp_period : exp 255 = 1 := by
  ext1
  rw [exp, bits_iterate]
  decide +kernel

theorem exp_mul_period (k : Nat) : exp (255 * k) = 1 := by
  induction k with
  | zero => rfl
  | succ k ih => rw [Nat.mul_succ, Nat.add_comm, exp_add, ih, ← exp, exp_period]

theorem exp_mod (k : Nat) : exp (k % 255) = exp k := by
  rw [← Nat.mod_add_div k 255, exp_add (k % 255), exp_mul_period, ← exp, Nat.mod_add_div]

theorem exp_ne_zero (k : Nat) : exp k ≠ 0 := by
  intro zero
  have whole : exp (254 * k + k) = 1 := by
    rw [← Nat.succ_mul]
    exact exp_mul_period k
  rw [exp_add, zero, map_zero] at whole
  exact absurd whole (by decide)

theorem minimalPeriod_double : Function.minimalPeriod double 1 = 255 := by
  have proper : ∀ n ∈ [85, 51, 15], ¬ Function.IsPeriodicPt double n 1 := by
    intro n listed periodic
    have bits := congrArg Gf256.bits periodic.eq
    rw [← AddMonoid.End.coe_pow, bits_iterate] at bits
    revert bits
    simp only [List.mem_cons, List.not_mem_nil, or_false] at listed
    rcases listed with rfl | rfl | rfl <;> decide +kernel
  have divides : Function.minimalPeriod double 1 ∣ 255 :=
    Function.IsPeriodicPt.minimalPeriod_dvd (by
      rw [Function.IsPeriodicPt, Function.IsFixedPt, ← AddMonoid.End.coe_pow]
      exact exp_period)
  have reaches : ∀ d ∈ Nat.divisors 255, d = 255 ∨ ∃ n ∈ [85, 51, 15], d ∣ n := by decide
  rcases reaches _ (Nat.mem_divisors.mpr ⟨divides, by simp⟩) with whole | ⟨n, listed, part⟩
  · exact whole
  · exact absurd ((Function.isPeriodicPt_minimalPeriod double 1).trans_dvd part) (proper n listed)

theorem exp_injOn : Set.InjOn exp (Set.Iio 255) := by
  have injective := @Function.iterate_injOn_Iio_minimalPeriod _ double 1
  rwa [minimalPeriod_double] at injective

theorem toNat_bits_injective : Function.Injective fun a : Gf256 => a.bits.toNat := by
  intro a b same
  ext1
  exact BitVec.eq_of_toNat_eq same

theorem exists_exp {a : Gf256} (nonzero : a ≠ 0) : ∃ k < 255, exp k = a := by
  let numbers := (Finset.range 255).image fun k => (exp k).bits.toNat
  have count : numbers.card = 255 := by
    rw [Finset.card_image_of_injOn, Finset.card_range]
    intro j hj k hk same
    rw [Finset.coe_range] at hj hk
    exact exp_injOn hj hk (toNat_bits_injective same)
  have inside : numbers ⊆ (Finset.range 256).erase 0 := by
    intro n member
    obtain ⟨k, -, rfl⟩ := Finset.mem_image.mp member
    refine Finset.mem_erase.mpr ⟨fun zero => exp_ne_zero k ?_, Finset.mem_range.mpr (exp k).bits.isLt⟩
    exact toNat_bits_injective zero
  have all : numbers = (Finset.range 256).erase 0 := by
    apply Finset.eq_of_subset_of_card_le inside
    rw [count, Finset.card_erase_of_mem (by simp), Finset.card_range]
  have member : a.bits.toNat ∈ numbers := by
    rw [all]
    refine Finset.mem_erase.mpr ⟨fun zero => nonzero ?_, Finset.mem_range.mpr a.bits.isLt⟩
    exact toNat_bits_injective zero
  obtain ⟨k, small, same⟩ := Finset.mem_image.mp member
  exact ⟨k, Finset.mem_range.mp small, toNat_bits_injective same⟩

theorem cases_exp (a : Gf256) : a = 0 ∨ ∃ k, a = exp k := by
  by_cases zero : a = 0
  · exact .inl zero
  · obtain ⟨k, -, same⟩ := exists_exp zero
    exact .inr ⟨k, same.symm⟩

instance : Mul Gf256 := ⟨fun a b => act a b⟩

theorem mul_def (a b : Gf256) : a * b = act a b := rfl

theorem exp_mul (k : Nat) (a : Gf256) : exp k * a = (double ^ k) a := by
  rw [mul_def, act_exp]

theorem exp_mul_exp (j k : Nat) : exp j * exp k = exp (j + k) := by
  rw [exp_mul, exp_add]

theorem mul_comm' (a b : Gf256) : a * b = b * a := by
  rcases cases_exp a with rfl | ⟨j, rfl⟩
  · rw [mul_def, mul_def, act_zero, map_zero]
    rfl
  rcases cases_exp b with rfl | ⟨k, rfl⟩
  · rw [mul_def, mul_def, act_zero, map_zero]
    rfl
  rw [exp_mul_exp, exp_mul_exp, add_comm]

theorem zero_mul' (a : Gf256) : 0 * a = 0 := by
  rw [mul_def, act_zero]
  rfl

theorem mul_assoc' (a b c : Gf256) : a * b * c = a * (b * c) := by
  rcases cases_exp a with rfl | ⟨j, rfl⟩
  · rw [zero_mul', zero_mul', zero_mul']
  rcases cases_exp b with rfl | ⟨k, rfl⟩
  · rw [mul_comm' (exp j), zero_mul', zero_mul', mul_comm' (exp j), zero_mul']
  rw [exp_mul_exp, exp_mul, exp_mul, exp_mul, pow_add]
  rfl

theorem mul_add' (a b c : Gf256) : a * (b + c) = a * b + a * c := map_add (act a) b c

instance : CommRing Gf256 where
  mul_assoc := mul_assoc'
  one_mul a := by rw [mul_def, act_one]; rfl
  mul_one a := by rw [mul_comm', mul_def, act_one]; rfl
  left_distrib := mul_add'
  right_distrib a b c := by rw [mul_comm', mul_add', mul_comm' c, mul_comm' c]
  zero_mul := zero_mul'
  mul_zero a := by rw [mul_comm', zero_mul']
  mul_comm := mul_comm'
  zsmul := zsmulRec
  neg_add_cancel := neg_add_cancel

theorem sub_eq (a b : Gf256) : a - b = a + b := sub_eq_add_neg a b

theorem exp_eq_pow (k : Nat) : exp k = exp 1 ^ k := by
  induction k with
  | zero => rfl
  | succ k ih => rw [pow_succ, ← ih, exp_mul_exp]

instance : Nontrivial Gf256 := ⟨0, 1, by decide⟩

instance : NoZeroDivisors Gf256 where
  eq_zero_or_eq_zero_of_mul_eq_zero {a b} zero := by
    rcases cases_exp a with rfl | ⟨j, rfl⟩
    · exact .inl rfl
    rcases cases_exp b with rfl | ⟨k, rfl⟩
    · exact .inr rfl
    rw [exp_mul_exp] at zero
    exact absurd zero (exp_ne_zero _)

instance : IsDomain Gf256 := NoZeroDivisors.to_isDomain Gf256

end Gf256
end AirFerry.Library
