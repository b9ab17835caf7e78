import AirFerry.Library.BigEndian
import AirFerry.Library.Run

/-!
# Execution

The release build has `panic = "abort"`, so a panic ends the process. `Exec` makes every panic the
core could raise a value: an out-of-range slice or index, an overflow of one of the sums the
source relies on, and a broken precondition of the upstream codec. The source's own `Result`
values are ordinary results inside it. `u32` and `u64` locals are natural numbers, with the
source's `checked_*` and plain additions spelled out.
-/

namespace AirFerry
open Library

abbrev U8 := BitVec 8
abbrev U16 := BitVec 16
abbrev U32 := BitVec 32
abbrev U64 := BitVec 64
abbrev U128 := BitVec 128
abbrev Bytes := List U8

abbrev Octets (n : Nat) := { bytes : Bytes // bytes.length = n }

inductive Fault
  | sliceOutOfRange
  | indexOutOfRange
  | overflow
  | upstream
deriving DecidableEq, Repr

abbrev Exec := Except Fault

theorem Exec.bind_ok {α β : Type} {first : Exec α} {later : α → Exec β} {result : β}
    (h : first >>= later = .ok result) : ∃ value, first = .ok value ∧ later value = .ok result := by
  cases first with
  | error fault => cases h
  | ok value => exact ⟨value, rfl, h⟩

theorem guard_ok {ε α : Type} {check : Prop} [Decidable check] {refusal : ε} {rest : Except ε α}
    {value : α} (h : (if check then .error refusal else rest) = .ok value) :
    ¬ check ∧ rest = .ok value := by
  by_cases refused : check
  · rw [if_pos refused] at h
    cases h
  · rw [if_neg refused] at h
    exact ⟨refused, h⟩

section
variable {α : Type}

def index (xs : List α) (i : Nat) : Exec α :=
  match xs[i]? with
  | some x => .ok x
  | none => .error .indexOutOfRange

theorem index_of_getElem? {xs : List α} {i : Nat} {x : α} (h : xs[i]? = some x) :
    index xs i = .ok x := by
  simp [index, h]

theorem index_of_lt {xs : List α} {i : Nat} (h : i < xs.length) : index xs i = .ok xs[i] :=
  index_of_getElem? (List.getElem?_eq_getElem h)

def slice (xs : List α) (start stop : Nat) : Exec (List α) :=
  if start ≤ stop ∧ stop ≤ xs.length then .ok ((xs.drop start).take (stop - start))
  else .error .sliceOutOfRange

/-- Rust's `get` with a range. -/
def getRange (xs : List α) (start stop : Nat) : Option (List α) :=
  if start ≤ stop ∧ stop ≤ xs.length then some ((xs.drop start).take (stop - start)) else none

theorem getRange_min {xs : List α} {start : Nat} (inside : start ≤ xs.length) (n : Nat) :
    getRange xs start (min (start + n) xs.length) = some ((xs.drop start).take n) := by
  rw [getRange, if_pos (by omega)]
  congr 1
  apply List.take_eq_take_iff.mpr
  rw [List.length_drop]
  omega

end

theorem toNat_ofNat_of_lt {w n : Nat} (h : n < 2 ^ w) : (BitVec.ofNat w n).toNat = n := by
  rw [BitVec.toNat_ofNat, Nat.mod_eq_of_lt h]

def addU32 (a b : Nat) : Exec Nat :=
  if a + b < 2 ^ 32 then .ok (a + b) else .error .overflow

theorem addU32_of_lt {a b : Nat} (h : a + b < 2 ^ 32) : addU32 a b = .ok (a + b) := if_pos h

def sumU32 (xs : List Nat) : Exec Nat := xs.foldlM addU32 0

theorem foldlM_addU32 (xs : List Nat) (acc : Nat) (h : acc + xs.sum < 2 ^ 32) :
    xs.foldlM addU32 acc = .ok (acc + xs.sum) := by
  induction xs generalizing acc with
  | nil => rfl
  | cons x xs ih =>
      simp only [List.sum_cons] at h ⊢
      rw [List.foldlM_cons, addU32_of_lt (by omega)]
      exact (ih (acc + x) (by omega)).trans (by rw [Nat.add_assoc])

theorem foldlM_addU32_overflow (xs : List Nat) (acc : Nat) (start : acc < 2 ^ 32)
    (large : 2 ^ 32 ≤ acc + xs.sum) (total : Nat) : xs.foldlM addU32 acc ≠ .ok total := by
  induction xs generalizing acc with
  | nil =>
      simp only [List.sum_nil] at large
      omega
  | cons x xs ih =>
      simp only [List.sum_cons] at large
      rw [List.foldlM_cons]
      by_cases small : acc + x < 2 ^ 32
      · rw [addU32_of_lt small]
        exact ih (acc + x) small (by omega)
      · rw [addU32, if_neg small]
        intro h
        cases h

theorem sumU32_of_lt {xs : List Nat} (h : xs.sum < 2 ^ 32) : sumU32 xs = .ok xs.sum := by
  have total := foldlM_addU32 xs 0 (by omega)
  rwa [Nat.zero_add] at total

theorem sumU32_ok {xs : List Nat} {total : Nat} (h : sumU32 xs = .ok total) :
    total = xs.sum ∧ xs.sum < 2 ^ 32 := by
  by_cases small : xs.sum < 2 ^ 32
  · rw [sumU32_of_lt small] at h
    cases h
    exact ⟨rfl, small⟩
  · exact absurd h (foldlM_addU32_overflow xs 0 (by omega) (by omega) total)

def asU32 (n : Nat) : Nat := n % 2 ^ 32

theorem asU32_of_lt {n : Nat} (h : n < 2 ^ 32) : asU32 n = n := Nat.mod_eq_of_lt h

def checkedAdd (a b : Nat) : Option Nat := if a + b < 2 ^ 64 then some (a + b) else none

def checkedMul (a b : Nat) : Option Nat := if a * b < 2 ^ 64 then some (a * b) else none

def checkedAddU32 (a b : Nat) : Option Nat := if a + b < 2 ^ 32 then some (a + b) else none

theorem checkedAdd_of_lt {a b : Nat} (h : a + b < 2 ^ 64) : checkedAdd a b = some (a + b) :=
  if_pos h

theorem checkedMul_of_lt {a b : Nat} (h : a * b < 2 ^ 64) : checkedMul a b = some (a * b) :=
  if_pos h

theorem checkedAddU32_of_lt {a b : Nat} (h : a + b < 2 ^ 32) : checkedAddU32 a b = some (a + b) :=
  if_pos h

def checkedSub (a b : Nat) : Option Nat := if b ≤ a then some (a - b) else none

theorem checkedSub_of_le {a b : Nat} (h : b ≤ a) : checkedSub a b = some (a - b) := if_pos h

def ceilDiv (a b : Nat) : Nat := (a + b - 1) / b

theorem ceilDiv_pos {a b : Nat} (positive : 0 < a) (divisor : 0 < b) : 0 < ceilDiv a b :=
  Nat.div_pos (by omega) divisor

theorem ceilDiv_le {a b : Nat} (divisor : 0 < b) : ceilDiv a b ≤ a := by
  have grows : a ≤ a * b := Nat.le_mul_of_pos_right a divisor
  apply Nat.le_of_lt_succ
  rw [ceilDiv, Nat.div_lt_iff_lt_mul divisor, Nat.succ_mul]
  omega

theorem le_ceilDiv_mul (a : Nat) {b : Nat} (divisor : 0 < b) : a ≤ ceilDiv a b * b := by
  have rest := Nat.mod_lt (a + b - 1) divisor
  have whole := Nat.div_add_mod (a + b - 1) b
  rw [ceilDiv, Nat.mul_comm]
  omega

theorem ceilDiv_mul {a b : Nat} (divisor : 0 < b) (divides : a % b = 0) : ceilDiv a b * b = a := by
  obtain ⟨k, rfl⟩ := Nat.dvd_of_mod_eq_zero divides
  have quotient : (b * k + b - 1) / b = k := by
    apply Nat.div_eq_of_lt_le
    · rw [Nat.mul_comm]
      omega
    · rw [Nat.succ_mul, Nat.mul_comm]
      omega
  rw [ceilDiv, quotient, Nat.mul_comm]

theorem ceilDiv_mul_self (k : Nat) {b : Nat} (divisor : 0 < b) : ceilDiv (k * b) b = k := by
  have whole := ceilDiv_mul divisor (Nat.mul_mod_left k b)
  exact Nat.eq_of_mul_eq_mul_right divisor whole

theorem ceilDiv_mono {a c : Nat} (b : Nat) (le : a ≤ c) : ceilDiv a b ≤ ceilDiv c b :=
  Nat.div_le_div_right (by omega)

theorem ceilDiv_mul_lt (a : Nat) {b : Nat} (divisor : 0 < b) : ceilDiv a b * b < a + b := by
  have whole := Nat.div_mul_le_self (a + b - 1) b
  rw [ceilDiv]
  omega

/-! ## Sizes

`usize` has 64 bits on the phones and 32 on wasm32. -/

def asUsize (usizeBits n : Nat) : Nat := n % 2 ^ usizeBits

def addUsize (usizeBits a b : Nat) : Exec Nat :=
  if a + b < 2 ^ usizeBits then .ok (a + b) else .error .overflow

theorem addUsize_of_lt {usizeBits a b : Nat} (h : a + b < 2 ^ usizeBits) :
    addUsize usizeBits a b = .ok (a + b) := if_pos h

def saturatingAdd (usizeBits a b : Nat) : Nat := min (a + b) (2 ^ usizeBits - 1)

theorem saturatingAdd_of_lt {usizeBits a b : Nat} (h : a + b < 2 ^ usizeBits) :
    saturatingAdd usizeBits a b = a + b := by
  rw [saturatingAdd]
  omega

theorem asUsize_u32 {usizeBits : Nat} (wide : 32 ≤ usizeBits) (n : U32) :
    asUsize usizeBits n.toNat = n.toNat :=
  Nat.mod_eq_of_lt (lt_of_lt_of_le n.isLt (Nat.pow_le_pow_right Nat.two_pos wide))

def toBe {w : Nat} (n : Nat) (value : BitVec w) : Bytes := BigEndian.toBytes n value.toNat

@[simp] theorem length_toBe {w : Nat} (n : Nat) (value : BitVec w) : (toBe n value).length = n :=
  BigEndian.length_toBytes n value.toNat

def uintAt (w n : Nat) (bytes : Bytes) (o : Nat) : Exec (BitVec w) :=
  match slice bytes o (o + n) with
  | .error fault => .error fault
  | .ok field => .ok (BitVec.ofNat w (BigEndian.ofBytes field))

abbrev u16At := uintAt 16 2
abbrev u32At := uintAt 32 4
abbrev u64At := uintAt 64 8
abbrev u128At := uintAt 128 16

def octetsAt (n : Nat) (bytes : Bytes) (o : Nat) : Exec (Octets n) :=
  if h : o + n ≤ bytes.length then .ok ⟨(bytes.drop o).take n, by simp; omega⟩
  else .error .sliceOutOfRange

theorem slice_of_le {bytes : Bytes} {o n : Nat} (h : o + n ≤ bytes.length) :
    slice bytes o (o + n) = .ok ((bytes.drop o).take n) := by
  simp [slice, h]

theorem uintAt_of_le {w n : Nat} {bytes : Bytes} {o : Nat} (h : o + n ≤ bytes.length) :
    uintAt w n bytes o = .ok (BitVec.ofNat w (BigEndian.ofBytes ((bytes.drop o).take n))) := by
  simp [uintAt, slice_of_le h]

theorem octetsAt_of_le {n : Nat} {bytes : Bytes} {o : Nat} (h : o + n ≤ bytes.length) :
    octetsAt n bytes o = .ok ⟨(bytes.drop o).take n, by simp; omega⟩ := dif_pos h

theorem exists_uintAt (w : Nat) {n : Nat} {bytes : Bytes} {o : Nat} (h : o + n ≤ bytes.length) :
    ∃ value, uintAt w n bytes o = .ok value := ⟨_, uintAt_of_le h⟩

theorem exists_octetsAt {n : Nat} {bytes : Bytes} {o : Nat} (h : o + n ≤ bytes.length) :
    ∃ value, octetsAt n bytes o = .ok value := ⟨_, octetsAt_of_le h⟩

theorem exists_index {bytes : Bytes} {o : Nat} (h : o < bytes.length) :
    ∃ b, index bytes o = .ok b := ⟨_, index_of_lt h⟩

/-! ## Reading what was written

`Ahead bytes o rest` says that the cursor `o` stands before `rest`. -/

def Ahead (bytes : Bytes) (o : Nat) (rest : Bytes) : Prop :=
  o ≤ bytes.length ∧ bytes.drop o = rest

theorem Ahead.start (bytes : Bytes) : Ahead bytes 0 bytes := ⟨Nat.zero_le _, rfl⟩

theorem Ahead.room {bytes rest : Bytes} {o : Nat} (h : Ahead bytes o rest) :
    o + rest.length = bytes.length := by
  obtain ⟨inside, rfl⟩ := h
  simp only [List.length_drop]
  omega

theorem Ahead.skip {bytes field rest : Bytes} {o : Nat} (h : Ahead bytes o (field ++ rest)) :
    Ahead bytes (o + field.length) rest := by
  have room := h.room
  simp only [List.length_append] at room
  refine ⟨by omega, ?_⟩
  rw [← List.drop_drop, h.2, List.drop_left]

theorem Ahead.slice {bytes field rest : Bytes} {o n : Nat} (h : Ahead bytes o (field ++ rest))
    (size : field.length = n) : slice bytes o (o + n) = .ok field := by
  have room := h.room
  simp only [List.length_append] at room
  rw [slice_of_le (by omega), h.2, ← size, List.take_left]

theorem Ahead.uint {w n : Nat} {bytes rest : Bytes} {o : Nat} {value : BitVec w}
    (width : w = 8 * n) (h : Ahead bytes o (toBe n value ++ rest)) :
    uintAt w n bytes o = .ok value ∧ Ahead bytes (o + n) rest := by
  have next := h.skip
  rw [length_toBe] at next
  refine ⟨?_, next⟩
  rw [uintAt, h.slice (length_toBe n value)]
  exact congrArg Except.ok (BigEndian.ofNat_ofBytes_toBytes n width value)

theorem Ahead.octets {n : Nat} {bytes rest : Bytes} {o : Nat} {value : Octets n}
    (h : Ahead bytes o (value.1 ++ rest)) :
    octetsAt n bytes o = .ok value ∧ Ahead bytes (o + n) rest := by
  obtain ⟨field, rfl⟩ := value
  have room := h.room
  simp only [List.length_append] at room
  refine ⟨?_, h.skip⟩
  rw [octetsAt_of_le (by omega)]
  congr 1
  apply Subtype.ext
  change (bytes.drop o).take field.length = field
  rw [h.2]
  exact List.take_left

theorem Ahead.byte {bytes rest : Bytes} {o : Nat} {b : U8} (h : Ahead bytes o (b :: rest)) :
    index bytes o = .ok b ∧ Ahead bytes (o + 1) rest := by
  have next : Ahead bytes (o + 1) rest := @Ahead.skip bytes [b] rest o h
  refine ⟨index_of_getElem? ?_, next⟩
  rw [← List.head?_drop, h.2, List.head?_cons]

end AirFerry
