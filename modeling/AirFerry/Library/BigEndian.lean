import Mathlib.Tactic

namespace AirFerry.Library.BigEndian

def toBytes : Nat → Nat → List (BitVec 8)
  | 0, _ => []
  | n+1, value => BitVec.ofNat 8 (value / 256 ^ n) :: toBytes n value

def ofBytes : List (BitVec 8) → Nat
  | [] => 0
  | b :: bs => b.toNat * 256 ^ bs.length + ofBytes bs

@[simp] theorem length_toBytes (n value : Nat) : (toBytes n value).length = n := by
  induction n with
  | zero => rfl
  | succ n ih => simp [toBytes, ih]

theorem ofBytes_lt (bs : List (BitVec 8)) : ofBytes bs < 256 ^ bs.length := by
  induction bs with
  | nil => simp [ofBytes]
  | cons b bs ih =>
      have digit : b.toNat + 1 ≤ 256 := b.isLt
      calc b.toNat * 256 ^ bs.length + ofBytes bs
          < b.toNat * 256 ^ bs.length + 256 ^ bs.length := by omega
        _ = (b.toNat + 1) * 256 ^ bs.length := by ring
        _ ≤ 256 * 256 ^ bs.length := Nat.mul_le_mul_right _ digit
        _ = 256 ^ (b :: bs).length := by rw [List.length_cons, pow_succ, mul_comm]

theorem ofBytes_toBytes (n value : Nat) : ofBytes (toBytes n value) = value % 256 ^ n := by
  induction n with
  | zero => simp [toBytes, ofBytes, Nat.mod_one]
  | succ n ih =>
      have digit : (BitVec.ofNat 8 (value / 256 ^ n)).toNat = value / 256 ^ n % 256 :=
        BitVec.toNat_ofNat ..
      rw [toBytes, ofBytes, length_toBytes, ih, digit, pow_succ, Nat.mod_mul, mul_comm]
      exact Nat.add_comm _ _

theorem toBytes_add_mul (n high low : Nat) : toBytes n (high * 256 ^ n + low) = toBytes n low := by
  induction n generalizing high with
  | zero => rfl
  | succ n ih =>
      have shape : high * 256 ^ (n+1) + low = (high * 256) * 256 ^ n + low := by ring
      simp only [toBytes, shape, ih]
      congr 1
      apply BitVec.eq_of_toNat_eq
      have quotient : ((high * 256) * 256 ^ n + low) / 256 ^ n = high * 256 + low / 256 ^ n := by
        rw [add_comm, Nat.add_mul_div_right _ _ (by positivity), add_comm]
      simp only [BitVec.toNat_ofNat, quotient]
      omega

theorem toBytes_ofBytes (bs : List (BitVec 8)) : toBytes bs.length (ofBytes bs) = bs := by
  induction bs with
  | nil => rfl
  | cons b bs ih =>
      have low : ofBytes bs < 256 ^ bs.length := ofBytes_lt bs
      simp only [List.length_cons, toBytes, ofBytes, toBytes_add_mul, ih]
      congr 1
      apply BitVec.eq_of_toNat_eq
      have quotient : (b.toNat * 256 ^ bs.length + ofBytes bs) / 256 ^ bs.length = b.toNat := by
        rw [add_comm, Nat.add_mul_div_right _ _ (by positivity), Nat.div_eq_of_lt low, zero_add]
      simp [quotient]

theorem ofNat_ofBytes_toBytes {w : Nat} (n : Nat) (width : w = 8 * n) (value : BitVec w) :
    BitVec.ofNat w (ofBytes (toBytes n value.toNat)) = value := by
  apply BitVec.eq_of_toNat_eq
  have bound : value.toNat < 2 ^ w := value.isLt
  have size : 256 ^ n = 2 ^ w := by rw [width, pow_mul]; rfl
  rw [ofBytes_toBytes, size, Nat.mod_eq_of_lt bound, BitVec.toNat_ofNat, Nat.mod_eq_of_lt bound]

theorem toBytes_toNat_ofBytes {w : Nat} (bs : List (BitVec 8)) (width : w = 8 * bs.length) :
    toBytes bs.length (BitVec.ofNat w (ofBytes bs)).toNat = bs := by
  have size : 256 ^ bs.length = 2 ^ w := by rw [width, pow_mul]; rfl
  have bound : ofBytes bs < 2 ^ w := size ▸ ofBytes_lt bs
  rw [BitVec.toNat_ofNat, Nat.mod_eq_of_lt bound, toBytes_ofBytes]

end AirFerry.Library.BigEndian
