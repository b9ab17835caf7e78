import Mathlib.Data.BitVec
import Mathlib.Logic.Function.Iterate

/-!
# Cyclic redundancy checks

The reflected register of `w` bits over any polynomial whose top bit is set. What differs within
`w` bits leaves another remainder.
-/

namespace AirFerry.Library.Crc

/-- Lists of one length that agree outside `n` places in a row. -/
structure Burst {α : Type} (n start : Nat) (xs ys : List α) : Prop where
  length : xs.length = ys.length
  agree : ∀ i, i < start ∨ start + n ≤ i → xs[i]? = ys[i]?

variable {α : Type} {n start : Nat} {xs ys : List α}

theorem Burst.take (burst : Burst n start xs ys) (k : Nat) :
    Burst n start (xs.take k) (ys.take k) := by
  refine ⟨by rw [List.length_take, List.length_take, burst.length], fun i outside => ?_⟩
  rw [List.getElem?_take, List.getElem?_take, burst.agree i outside]

theorem Burst.drop (burst : Burst n start xs ys) (k : Nat) :
    Burst n (start - k) (xs.drop k) (ys.drop k) := by
  refine ⟨by rw [List.length_drop, List.length_drop, burst.length], fun i outside => ?_⟩
  rw [List.getElem?_drop, List.getElem?_drop]
  exact burst.agree (k + i) (by omega)

theorem Burst.take_eq (burst : Burst n start xs ys) {k : Nat} (before : k ≤ start) :
    xs.take k = ys.take k := by
  apply List.ext_getElem?
  intro i
  rw [List.getElem?_take, List.getElem?_take]
  split_ifs with inside
  · exact burst.agree i (Or.inl (by omega))
  · rfl

theorem Burst.drop_eq (burst : Burst n start xs ys) {k : Nat} (after : start + n ≤ k) :
    xs.drop k = ys.drop k := by
  apply List.ext_getElem?
  intro i
  rw [List.getElem?_drop, List.getElem?_drop]
  exact burst.agree (k + i) (Or.inr (by omega))

variable {w : Nat} (poly : BitVec w)

def shift (c : BitVec w) : BitVec w := if c.getLsbD 0 then (c >>> 1) ^^^ poly else c >>> 1

def absorb (c : BitVec w) (b : BitVec 8) : BitVec w := (shift poly)^[8] (c ^^^ b.setWidth w)

def run (c : BitVec w) (bytes : List (BitVec 8)) : BitVec w := bytes.foldl (absorb poly) c

theorem run_append (c : BitVec w) (xs ys : List (BitVec 8)) :
    run poly c (xs ++ ys) = run poly (run poly c xs) ys := List.foldl_append

theorem xor_xor_xor_comm (a b c d : BitVec w) : (a ^^^ b) ^^^ (c ^^^ d) = (a ^^^ c) ^^^ (b ^^^ d) := by
  simp only [BitVec.xor_assoc]
  congr 1
  simp only [← BitVec.xor_assoc]
  rw [BitVec.xor_comm b c]

theorem shift_xor (c d : BitVec w) : shift poly (c ^^^ d) = shift poly c ^^^ shift poly d := by
  unfold shift
  rw [BitVec.getLsbD_xor, BitVec.ushiftRight_xor_distrib]
  cases c.getLsbD 0 <;> cases d.getLsbD 0
  · simp
  · simp [BitVec.xor_assoc]
  · simp only [Bool.true_bne, Bool.not_false, if_true, Bool.false_eq_true, if_false, BitVec.xor_assoc]
    rw [BitVec.xor_comm poly]
  · simp only [bne_self_eq_false, Bool.false_eq_true, if_false, if_true]
    rw [xor_xor_xor_comm, BitVec.xor_self, BitVec.xor_zero]

theorem shifts_xor (n : Nat) (c d : BitVec w) :
    (shift poly)^[n] (c ^^^ d) = (shift poly)^[n] c ^^^ (shift poly)^[n] d := by
  induction n generalizing c d with
  | zero => rfl
  | succ n hn => rw [Function.iterate_succ_apply, shift_xor, hn, ← Function.iterate_succ_apply,
      ← Function.iterate_succ_apply]

theorem absorb_xor (c d : BitVec w) (a b : BitVec 8) :
    absorb poly c a ^^^ absorb poly d b =
      (shift poly)^[8] ((c ^^^ d) ^^^ (a ^^^ b).setWidth w) := by
  rw [absorb, absorb, ← shifts_xor, xor_xor_xor_comm, ← BitVec.setWidth_xor]

variable {poly} (top : poly.getLsbD (w - 1) = true)
include top

theorem shift_small {c : BitVec w} {k : Nat} (short : k < w)
    (small : (shift poly c).toNat < 2 ^ k) : c.toNat = 2 * (shift poly c).toNat := by
  have down : (c >>> 1).toNat = c.toNat / 2 := by
    rw [BitVec.toNat_ushiftRight, Nat.shiftRight_one]
  cases low : c.getLsbD 0 with
  | true =>
      have set : (shift poly c).getLsbD (w - 1) = true := by
        rw [shift, if_pos low, BitVec.getLsbD_xor, BitVec.getLsbD_ushiftRight, top,
          BitVec.getLsbD_of_ge c (1 + (w - 1)) (by omega)]
        rfl
      have large := Nat.ge_two_pow_of_testBit set
      have bound : 2 ^ k ≤ 2 ^ (w - 1) := Nat.pow_le_pow_right (by decide) (by omega)
      omega
  | false =>
      have moved : shift poly c = c >>> 1 := by
        rw [shift, low]
        rfl
      have even : c.toNat % 2 = 0 := by
        rw [BitVec.getLsbD, Nat.testBit_zero, decide_eq_false_iff_not] at low
        omega
      rw [moved, down]
      omega

theorem shifts_small {c : BitVec w} {k n : Nat} (short : k + n ≤ w)
    (small : ((shift poly)^[n] c).toNat < 2 ^ k) :
    c.toNat = 2 ^ n * ((shift poly)^[n] c).toNat := by
  induction n generalizing k with
  | zero => rw [Function.iterate_zero_apply, pow_zero, one_mul]
  | succ n hn =>
      rw [Function.iterate_succ_apply'] at small ⊢
      have last := shift_small top (by omega) small
      have before := hn (k := k + 1) (by omega) (by rw [last, pow_succ]; omega)
      rw [before, last, pow_succ, mul_assoc]

theorem absorb_small {c d : BitVec w} {a b : BitVec 8} {k : Nat} (short : k + 8 ≤ w)
    (small : (absorb poly c a ^^^ absorb poly d b).toNat < 2 ^ k) :
    ((c ^^^ d) ^^^ (a ^^^ b).setWidth w).toNat =
      2 ^ 8 * (absorb poly c a ^^^ absorb poly d b).toNat := by
  rw [absorb_xor] at small ⊢
  exact shifts_small top short small

theorem run_small {u v : List (BitVec 8)} {c d : BitVec w} (length : u.length = v.length)
    (short : 8 * u.length ≤ w) (same : run poly c u = run poly d v) :
    (c ^^^ d).toNat < 2 ^ (8 * u.length) := by
  induction u generalizing v c d with
  | nil =>
      cases List.length_eq_zero_iff.mp length.symm
      have equal : c = d := same
      rw [equal, BitVec.xor_self]
      exact Nat.one_pos
  | cons a u hu =>
      cases v with
      | nil => cases length
      | cons b v =>
          rw [List.length_cons] at short
          have rest := hu (Nat.succ.inj length) (by omega) same
          have step := absorb_small top (k := 8 * u.length) (by omega) rest
          have byte : ((a ^^^ b).setWidth w).toNat < 2 ^ (8 * (u.length + 1)) := by
            rw [BitVec.toNat_setWidth]
            apply lt_of_le_of_lt (Nat.mod_le _ _)
            exact lt_of_lt_of_le (a ^^^ b).isLt (Nat.pow_le_pow_right (by decide) (by omega))
          have whole : ((c ^^^ d) ^^^ (a ^^^ b).setWidth w).toNat < 2 ^ (8 * (u.length + 1)) := by
            rw [step, Nat.mul_succ, pow_add, mul_comm]
            exact Nat.mul_lt_mul_of_pos_right rest (by decide)
          have cancel : c ^^^ d =
              ((c ^^^ d) ^^^ (a ^^^ b).setWidth w) ^^^ (a ^^^ b).setWidth w := by
            rw [BitVec.xor_assoc, BitVec.xor_self, BitVec.xor_zero]
          rw [cancel, BitVec.toNat_xor]
          exact Nat.xor_lt_two_pow whole byte

theorem run_bytes_injective {u v : List (BitVec 8)} {c : BitVec w} (length : u.length = v.length)
    (short : 8 * u.length ≤ w) (same : run poly c u = run poly c v) : u = v := by
  induction u generalizing v c with
  | nil => exact (List.length_eq_zero_iff.mp length.symm).symm
  | cons a u hu =>
      cases v with
      | nil => cases length
      | cons b v =>
          rw [List.length_cons] at short
          have tails : u.length = v.length := Nat.succ.inj length
          have rest := run_small top tails (by omega) same
          have step := absorb_small top (k := 8 * u.length) (by omega) rest
          have wide : (a ^^^ b).toNat < 2 ^ w :=
            lt_of_lt_of_le (a ^^^ b).isLt (Nat.pow_le_pow_right (by decide) (by omega))
          rw [BitVec.xor_self, BitVec.zero_xor, BitVec.toNat_setWidth, Nat.mod_eq_of_lt wide] at step
          have zero : a ^^^ b = 0 := by
            apply BitVec.eq_of_toNat_eq
            have byte := (a ^^^ b).isLt
            change (a ^^^ b).toNat = 0
            omega
          have equal : a = b := BitVec.xor_eq_zero_iff.mp zero
          subst equal
          rw [hu tails (by omega) same]

theorem run_injective {c d : BitVec w} (wide : 8 ≤ w) {bytes : List (BitVec 8)}
    (same : run poly c bytes = run poly d bytes) : c = d := by
  induction bytes generalizing c d with
  | nil => exact same
  | cons b bytes hbytes =>
      have next : absorb poly c b = absorb poly d b := hbytes same
      have none : (absorb poly c b ^^^ absorb poly d b).toNat < 2 ^ 0 := by
        rw [next, BitVec.xor_self]
        exact Nat.one_pos
      have step := absorb_small top (k := 0) (by omega) none
      rw [next, BitVec.xor_self, BitVec.xor_self, BitVec.setWidth_zero, BitVec.xor_zero] at step
      exact BitVec.xor_eq_zero_iff.mp (BitVec.eq_of_toNat_eq step)

theorem burst_detected {c : BitVec w} {n start : Nat} {xs ys : List (BitVec 8)} (wide : 8 ≤ w)
    (short : 8 * n ≤ w) (burst : Burst n start xs ys) (same : run poly c xs = run poly c ys) :
    xs = ys := by
  have before : xs.take start = ys.take start := burst.take_eq le_rfl
  have after : (xs.drop start).drop n = (ys.drop start).drop n := by
    rw [List.drop_drop, List.drop_drop]
    exact burst.drop_eq le_rfl
  have middle : (xs.drop start).take n = (ys.drop start).take n := by
    rw [← List.take_append_drop start xs, ← List.take_append_drop start ys,
      ← List.take_append_drop n (xs.drop start), ← List.take_append_drop n (ys.drop start),
      before, after] at same
    simp only [run_append] at same
    have entered := run_injective top wide same
    apply run_bytes_injective top ?_ ?_ entered
    · rw [List.length_take, List.length_take, List.length_drop, List.length_drop, burst.length]
    · have bound := List.length_take_le n (xs.drop start)
      omega
  rw [← List.take_append_drop start xs, ← List.take_append_drop start ys,
    ← List.take_append_drop n (xs.drop start), ← List.take_append_drop n (ys.drop start),
    before, after, middle]

end AirFerry.Library.Crc
