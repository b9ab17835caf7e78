import Mathlib.Tactic

namespace AirFerry.Library.Bits

def ofNat : Nat → Nat → List Bool
  | 0, _ => []
  | width+1, n => n.testBit width :: ofNat width n

def toNat : List Bool → Nat
  | [] => 0
  | bit :: bits => bit.toNat * 2 ^ bits.length + toNat bits

def ofBytes (bytes : List (BitVec 8)) : List Bool := bytes.flatMap fun b => ofNat 8 b.toNat

def toBytes : Nat → List Bool → List (BitVec 8)
  | 0, _ => []
  | n+1, bits => BitVec.ofNat 8 (toNat (bits.take 8)) :: toBytes n (bits.drop 8)

def field (width : Nat) (bits : List Bool) : Option (Nat × List Bool) :=
  if width ≤ bits.length then some (toNat (bits.take width), bits.drop width) else none

@[simp] theorem length_ofNat (width n : Nat) : (ofNat width n).length = width := by
  induction width with
  | zero => rfl
  | succ width ih => simp [ofNat, ih]

theorem getElem?_ofNat (width n i : Nat) :
    (ofNat width n)[i]? = if i < width then some (n.testBit (width - 1 - i)) else none := by
  induction width generalizing i with
  | zero => simp [ofNat]
  | succ width ih =>
      cases i with
      | zero => simp [ofNat]
      | succ i =>
          rw [ofNat, List.getElem?_cons_succ, ih]
          simp only [Nat.add_lt_add_iff_right]
          congr 3
          omega

theorem toNat_ofNat (width n : Nat) : toNat (ofNat width n) = n % 2 ^ width := by
  induction width with
  | zero => simp [ofNat, toNat, Nat.mod_one]
  | succ width ih =>
      rw [ofNat, toNat, length_ofNat, ih, Nat.toNat_testBit, pow_succ, Nat.mod_mul, Nat.mul_comm,
        Nat.add_comm]

theorem toNat_ofNat_of_lt {width n : Nat} (fits : n < 2 ^ width) : toNat (ofNat width n) = n := by
  rw [toNat_ofNat, Nat.mod_eq_of_lt fits]

theorem ofNat_add (upper lower n : Nat) :
    ofNat (upper + lower) n = ofNat upper (n >>> lower) ++ ofNat lower n := by
  induction upper with
  | zero => simp [ofNat]
  | succ upper ih =>
      rw [Nat.succ_add, ofNat, ih, ofNat, List.cons_append, Nat.testBit_shiftRight,
        Nat.add_comm lower upper]

theorem ofNat_mod (width n : Nat) : ofNat width (n % 2 ^ width) = ofNat width n := by
  apply List.ext_getElem?
  intro i
  rw [getElem?_ofNat, getElem?_ofNat]
  by_cases inside : i < width
  · rw [if_pos inside, if_pos inside, Nat.testBit_mod_two_pow, decide_eq_true (by omega), Bool.true_and]
  · rw [if_neg inside, if_neg inside]

theorem field_ofNat {width n : Nat} (fits : n < 2 ^ width) (rest : List Bool) :
    field width (ofNat width n ++ rest) = some (n, rest) := by
  have front : (ofNat width n ++ rest).take width = ofNat width n :=
    List.take_left' (length_ofNat width n)
  have back : (ofNat width n ++ rest).drop width = rest := List.drop_left' (length_ofNat width n)
  rw [field, if_pos (by simp), front, back, toNat_ofNat_of_lt fits]

@[simp] theorem ofBytes_nil : ofBytes [] = [] := rfl

theorem ofBytes_cons (b : BitVec 8) (bytes : List (BitVec 8)) :
    ofBytes (b :: bytes) = ofNat 8 b.toNat ++ ofBytes bytes := rfl

@[simp] theorem length_ofBytes (bytes : List (BitVec 8)) :
    (ofBytes bytes).length = 8 * bytes.length := by
  induction bytes with
  | nil => rfl
  | cons b bytes ih =>
      rw [ofBytes_cons, List.length_append, length_ofNat, ih, List.length_cons]
      ring

@[simp] theorem length_toBytes (n : Nat) (bits : List Bool) : (toBytes n bits).length = n := by
  induction n generalizing bits with
  | zero => rfl
  | succ n ih => simp [toBytes, ih]

theorem getElem?_toBytes (n : Nat) (bits : List Bool) (j : Nat) :
    (toBytes n bits)[j]? =
      if j < n then some (BitVec.ofNat 8 (toNat ((bits.drop (8 * j)).take 8))) else none := by
  induction n generalizing bits j with
  | zero => simp [toBytes]
  | succ n ih =>
      cases j with
      | zero => simp [toBytes]
      | succ j =>
          rw [toBytes, List.getElem?_cons_succ, ih, List.drop_drop, Nat.mul_succ, Nat.add_comm 8]
          simp only [Nat.add_lt_add_iff_right]

theorem toBytes_ofBytes_append (bytes : List (BitVec 8)) (rest : List Bool) :
    toBytes bytes.length (ofBytes bytes ++ rest) = bytes := by
  induction bytes with
  | nil => rfl
  | cons b bytes ih =>
      have size := length_ofNat 8 b.toNat
      rw [List.length_cons, ofBytes_cons, List.append_assoc, toBytes, List.take_left' size,
        List.drop_left' size, ih, toNat_ofNat_of_lt b.isLt, BitVec.ofNat_toNat, BitVec.setWidth_eq]

theorem toBytes_ofBytes (bytes : List (BitVec 8)) : toBytes bytes.length (ofBytes bytes) = bytes := by
  have whole := toBytes_ofBytes_append bytes []
  rwa [List.append_nil] at whole

theorem toBytes_take (n : Nat) (bits : List Bool) : toBytes n (bits.take (8 * n)) = toBytes n bits := by
  induction n generalizing bits with
  | zero => rfl
  | succ n ih =>
      have front : (bits.take (8 * (n + 1))).take 8 = bits.take 8 := by
        rw [List.take_take, Nat.min_eq_left (by omega)]
      have back : (bits.take (8 * (n + 1))).drop 8 = (bits.drop 8).take (8 * n) := by
        rw [List.drop_take, Nat.mul_succ, Nat.add_sub_cancel]
      rw [toBytes, front, back, ih, toBytes]

theorem getElem?_ofBytes (bytes : List (BitVec 8)) (i : Nat) :
    (ofBytes bytes)[i]? = bytes[i / 8]?.map fun b => b.getLsbD (7 - i % 8) := by
  induction bytes generalizing i with
  | nil => simp
  | cons b bytes ih =>
      rw [ofBytes_cons]
      by_cases inside : i < 8
      · rw [List.getElem?_append_left (by simpa using inside), getElem?_ofNat, if_pos inside,
          Nat.div_eq_of_lt inside, Nat.mod_eq_of_lt inside]
        rfl
      · obtain ⟨j, rfl⟩ := Nat.exists_eq_add_of_le' (not_lt.mp inside)
        rw [List.getElem?_append_right (by simp), length_ofNat, Nat.add_sub_cancel, ih,
          Nat.add_div_right j (by simp), Nat.add_mod_right, List.getElem?_cons_succ]

end AirFerry.Library.Bits
