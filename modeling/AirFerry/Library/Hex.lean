import Mathlib.Tactic

namespace AirFerry.Library.Hex

def digit (n : Fin 16) : Char :=
  ['0', '1', '2', '3', '4', '5', '6', '7', '8', '9', 'a', 'b', 'c', 'd', 'e', 'f'].get n

theorem digit_injective : Function.Injective digit := by decide

theorem high_lt (b : BitVec 8) : b.toNat / 16 < 16 := by
  have small := b.isLt
  omega

theorem low_lt (b : BitVec 8) : b.toNat % 16 < 16 := Nat.mod_lt _ (by decide)

def chars : List (BitVec 8) → List Char
  | [] => []
  | b :: bs => digit ⟨b.toNat / 16, high_lt b⟩ :: digit ⟨b.toNat % 16, low_lt b⟩ :: chars bs

def encode (bytes : List (BitVec 8)) : String := String.ofList (chars bytes)

theorem chars_injective : Function.Injective chars := by
  intro xs
  induction xs with
  | nil =>
      intro ys same
      cases ys with
      | nil => rfl
      | cons y ys => cases same
  | cons x xs ih =>
      intro ys same
      cases ys with
      | nil => cases same
      | cons y ys =>
          simp only [chars, List.cons.injEq] at same
          obtain ⟨high, low, rest⟩ := same
          have quotient := congrArg Fin.val (digit_injective high)
          have remainder := congrArg Fin.val (digit_injective low)
          simp only at quotient remainder
          have value : x = y := BitVec.eq_of_toNat_eq (by omega)
          rw [value, ih rest]

theorem encode_injective : Function.Injective encode := by
  intro xs ys same
  exact chars_injective (String.ofList_injective same)

end AirFerry.Library.Hex
