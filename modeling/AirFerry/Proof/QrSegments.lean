import AirFerry.Proof.BitBuffer
import AirFerry.FastQr.Encode
import AirFerry.QrStandard.Segment

namespace AirFerry.Proof.Qr
open Library FastQr FastQr.Encode QrStandard

section
variable {room : Nat} {c : CompactQR} {bits : List Bool}

theorem digit_of_isAsciiDigit (x : U8) (valid : isAsciiDigit x = true) :
    digit (x.toNat - 48) = x ∧ x.toNat - 48 < 10 := by
  revert x
  decide

def digitBits : Bytes → List Bool
  | x :: y :: z :: rest =>
      Bits.ofNat 10 ((x.toNat - 48) * 100 + (y.toNat - 48) * 10 + (z.toNat - 48)) ++ digitBits rest
  | [x, y] => Bits.ofNat 7 ((x.toNat - 48) * 10 + (y.toNat - 48))
  | [x] => Bits.ofNat 4 (x.toNat - 48)
  | [] => []

theorem length_digitBits (input : Bytes) : (digitBits input).length = (10 * input.length + 2) / 3 := by
  fun_induction digitBits input with
  | case1 x y z rest ih =>
      simp only [List.length_append, Bits.length_ofNat, ih, List.length_cons]
      omega
  | case2 => simp
  | case3 => simp
  | case4 => rfl

theorem asciiToDigit_ok {x : U8} (valid : isAsciiDigit x = true) :
    asciiToDigit x = .ok (x.toNat - 48) := if_pos valid

theorem Holds.encodeDigits {input : Bytes} (valid : ∀ x ∈ input, isAsciiDigit x = true)
    (held : Holds room c bits) :
    ∃ c', encodeDigits c input = .ok c' ∧ Holds room c' (bits ++ digitBits input) := by
  fun_induction Encode.encodeDigits c input generalizing bits with
  | case1 c x y z rest ih =>
      simp only [List.forall_mem_cons] at valid
      obtain ⟨first, second, third, others⟩ := valid
      obtain ⟨next, pushed, holds⟩ := held.pushBits
        ((x.toNat - 48) * 100 + (y.toNat - 48) * 10 + (z.toNat - 48)) (show 10 ≤ 64 by simp)
      obtain ⟨c', read, result⟩ := ih next others holds
      refine ⟨c', ?_, by rwa [digitBits, ← List.append_assoc]⟩
      simp only [asciiToDigit_ok first, asciiToDigit_ok second, asciiToDigit_ok third, encodeNumber,
        bind, Except.bind, pushed]
      exact read
  | case2 c x y =>
      simp only [List.forall_mem_cons] at valid
      obtain ⟨c', pushed, holds⟩ := held.pushBits ((x.toNat - 48) * 10 + (y.toNat - 48))
        (show 7 ≤ 64 by simp)
      refine ⟨c', ?_, holds⟩
      simp only [asciiToDigit_ok valid.1, asciiToDigit_ok valid.2.1, bind, Except.bind]
      exact pushed
  | case3 c x =>
      simp only [List.forall_mem_cons] at valid
      obtain ⟨c', pushed, holds⟩ := held.pushBits (x.toNat - 48) (show 4 ≤ 64 by simp)
      refine ⟨c', ?_, holds⟩
      simp only [asciiToDigit_ok valid.1, bind, Except.bind]
      exact pushed
  | case4 c => exact ⟨c, rfl, by rwa [digitBits, List.append_nil]⟩

theorem three_digits {a b d : Nat} (smallA : a < 10) (smallB : b < 10) (smallD : d < 10) :
    (a * 100 + b * 10 + d) / 100 = a ∧ (a * 100 + b * 10 + d) / 10 % 10 = b ∧
      (a * 100 + b * 10 + d) % 10 = d ∧ a * 100 + b * 10 + d < 1000 := by
  omega

theorem readDigits_digitBits {input : Bytes} (valid : ∀ x ∈ input, isAsciiDigit x = true)
    (rest : List Bool) : readDigits input.length (digitBits input ++ rest) = some (input, rest) := by
  fun_induction digitBits input with
  | case1 x y z others ih =>
      simp only [List.forall_mem_cons] at valid
      obtain ⟨first, second, third, more⟩ := valid
      obtain ⟨charX, smallX⟩ := digit_of_isAsciiDigit x first
      obtain ⟨charY, smallY⟩ := digit_of_isAsciiDigit y second
      obtain ⟨charZ, smallZ⟩ := digit_of_isAsciiDigit z third
      obtain ⟨hundreds, tens, ones, small⟩ := three_digits smallX smallY smallZ
      rw [List.append_assoc, List.length_cons, List.length_cons, List.length_cons, readDigits,
        Bits.field_ofNat (small.trans (by norm_num))]
      simp only [bind, Option.bind, ih more, hundreds, tens, ones, charX, charY, charZ, if_pos small]
  | case2 x y =>
      simp only [List.forall_mem_cons] at valid
      obtain ⟨charX, smallX⟩ := digit_of_isAsciiDigit x valid.1
      obtain ⟨charY, smallY⟩ := digit_of_isAsciiDigit y valid.2.1
      have tens : ((x.toNat - 48) * 10 + (y.toNat - 48)) / 10 = x.toNat - 48 := by omega
      have ones : ((x.toNat - 48) * 10 + (y.toNat - 48)) % 10 = y.toNat - 48 := by omega
      simp only [List.length_cons, List.length_nil, readDigits,
        Bits.field_ofNat (show (x.toNat - 48) * 10 + (y.toNat - 48) < 2 ^ 7 by omega), bind,
        Option.bind, tens, ones, charX, charY]
      rw [if_pos (by omega)]
  | case3 x =>
      simp only [List.forall_mem_cons] at valid
      obtain ⟨charX, smallX⟩ := digit_of_isAsciiDigit x valid.1
      simp only [List.length_cons, List.length_nil, readDigits,
        Bits.field_ofNat (show x.toNat - 48 < 2 ^ 4 by omega), bind, Option.bind, charX]
      rw [if_pos smallX]
  | case4 => rfl

def alphanumericValue (x : U8) : Nat := alphanumericSet.idxOf x

theorem alphanumericValue_spec (x : U8) (valid : isQrAlphanumeric x = true) :
    asciiToAlphanumeric x = .ok (alphanumericValue x) ∧ alphanumericValue x < 45 ∧
      alphanumericSet[alphanumericValue x]? = some x := by
  revert x
  decide +kernel

def pairBits : Bytes → List Bool
  | x :: y :: rest => Bits.ofNat 11 (alphanumericValue x * 45 + alphanumericValue y) ++ pairBits rest
  | [x] => Bits.ofNat 6 (alphanumericValue x)
  | [] => []

theorem length_pairBits (input : Bytes) : (pairBits input).length = (11 * input.length + 1) / 2 := by
  fun_induction pairBits input with
  | case1 x y rest ih =>
      simp only [List.length_append, Bits.length_ofNat, ih, List.length_cons]
      omega
  | case2 => simp
  | case3 => rfl

theorem Holds.encodePairs {input : Bytes} (valid : ∀ x ∈ input, isQrAlphanumeric x = true)
    (held : Holds room c bits) :
    ∃ c', encodePairs c input = .ok c' ∧ Holds room c' (bits ++ pairBits input) := by
  fun_induction Encode.encodePairs c input generalizing bits with
  | case1 c x y rest ih =>
      simp only [List.forall_mem_cons] at valid
      obtain ⟨first, second, others⟩ := valid
      obtain ⟨next, pushed, holds⟩ := held.pushBits (alphanumericValue x * 45 + alphanumericValue y)
        (show 11 ≤ 64 by simp)
      obtain ⟨c', read, result⟩ := ih next others holds
      refine ⟨c', ?_, by rwa [pairBits, ← List.append_assoc]⟩
      simp only [(alphanumericValue_spec x first).1, (alphanumericValue_spec y second).1, bind,
        Except.bind, pushed]
      exact read
  | case2 c x =>
      simp only [List.forall_mem_cons] at valid
      obtain ⟨c', pushed, holds⟩ := held.pushBits (alphanumericValue x) (show 6 ≤ 64 by simp)
      refine ⟨c', ?_, holds⟩
      simp only [(alphanumericValue_spec x valid.1).1, bind, Except.bind]
      exact pushed
  | case3 c => exact ⟨c, rfl, by rwa [pairBits, List.append_nil]⟩

theorem readPairs_pairBits {input : Bytes} (valid : ∀ x ∈ input, isQrAlphanumeric x = true)
    (rest : List Bool) : readPairs input.length (pairBits input ++ rest) = some (input, rest) := by
  fun_induction pairBits input with
  | case1 x y others ih =>
      simp only [List.forall_mem_cons] at valid
      obtain ⟨first, second, more⟩ := valid
      obtain ⟨-, smallX, charX⟩ := alphanumericValue_spec x first
      obtain ⟨-, smallY, charY⟩ := alphanumericValue_spec y second
      have upper : (alphanumericValue x * 45 + alphanumericValue y) / 45 = alphanumericValue x := by
        omega
      have lower : (alphanumericValue x * 45 + alphanumericValue y) % 45 = alphanumericValue y := by
        omega
      rw [List.append_assoc, List.length_cons, List.length_cons, readPairs,
        Bits.field_ofNat (show alphanumericValue x * 45 + alphanumericValue y < 2 ^ 11 by omega)]
      simp only [bind, Option.bind, upper, lower, charX, charY, ih more]
  | case2 x =>
      simp only [List.forall_mem_cons] at valid
      obtain ⟨-, smallX, charX⟩ := alphanumericValue_spec x valid.1
      simp only [List.length_cons, List.length_nil, readPairs,
        Bits.field_ofNat (show alphanumericValue x < 2 ^ 6 by omega), bind, Option.bind, charX]
  | case3 => rfl

theorem readOctets_ofBytes (input : Bytes) (rest : List Bool) :
    readOctets input.length (Bits.ofBytes input ++ rest) = some (input, rest) := by
  induction input with
  | nil => rfl
  | cons b input ih =>
      simp only [Bits.ofBytes_cons, List.append_assoc, List.length_cons, readOctets,
        Bits.field_ofNat b.isLt, bind, Option.bind, ih, BitVec.ofNat_toNat, BitVec.setWidth_eq]

def Writable : Mode → Bytes → Prop
  | .numeric, input => ∀ x ∈ input, isAsciiDigit x = true
  | .alphanumeric, input => ∀ x ∈ input, isQrAlphanumeric x = true
  | .byte, _ => True

theorem writable_bestEncoding (input : Bytes) : Writable (bestEncoding input) input := by
  unfold bestEncoding
  split
  · next digits => exact List.all_eq_true.mp digits
  · split
    · next chars => exact List.all_eq_true.mp chars
    · trivial

def indicator : Mode → Nat
  | .numeric => 1
  | .alphanumeric => 2
  | .byte => 4

def charBits : Mode → Bytes → List Bool
  | .numeric => digitBits
  | .alphanumeric => pairBits
  | .byte => Bits.ofBytes

def charLength : Mode → Nat → Nat
  | .numeric, len => (10 * len + 2) / 3
  | .alphanumeric, len => (11 * len + 1) / 2
  | .byte, len => 8 * len

theorem length_charBits (mode : Mode) (input : Bytes) :
    (charBits mode input).length = charLength mode input.length := by
  cases mode with
  | numeric => exact length_digitBits input
  | alphanumeric => exact length_pairBits input
  | byte => exact Bits.length_ofBytes input

theorem charLength_mono (mode : Mode) {a b : Nat} (le : a ≤ b) :
    charLength mode a ≤ charLength mode b := by
  cases mode with
  | numeric => exact Nat.div_le_div_right (by omega)
  | alphanumeric => exact Nat.div_le_div_right (by omega)
  | byte => exact Nat.mul_le_mul_left 8 le

def segmentBits (v : Version) (mode : Mode) (input : Bytes) : List Bool :=
  Bits.ofNat 4 (indicator mode) ++ Bits.ofNat (Hardcode.cciBits v mode) input.length ++
    charBits mode input

theorem readChars_charBits {mode : Mode} {input : Bytes} (writable : Writable mode input)
    (rest : List Bool) :
    readChars mode input.length (charBits mode input ++ rest) = some (input, rest) := by
  cases mode with
  | numeric => exact readDigits_digitBits writable rest
  | alphanumeric => exact readPairs_pairBits writable rest
  | byte => exact readOctets_ofBytes input rest

theorem longest_fits (v : Version) (mode : Mode) :
    4 + Hardcode.cciBits v mode + charLength mode ((Version.longest mode).getD v 0) ≤
        Hardcode.dataBits v ∧
      (Version.longest mode).getD v 0 < 2 ^ Hardcode.cciBits v mode ∧
      Hardcode.cciBits v mode = countBits (v + 1) mode := by
  cases mode with
  | numeric => revert v; decide
  | alphanumeric => revert v; decide
  | byte => revert v; decide

theorem dataCodewords_le_maxBytes (v : Version) : Hardcode.dataCodewords v ≤ v.maxBytes := by
  revert v
  decide

theorem Holds.encodeAs {mode : Mode} {input : Bytes} (writable : Writable mode input) (v : Version)
    (held : Holds room c []) :
    ∃ c', encodeAs c input (Hardcode.cciBits v mode) mode = .ok c' ∧
      Holds room c' (segmentBits v mode input) := by
  have narrow : Hardcode.cciBits v mode ≤ 64 := by
    revert v
    cases mode <;> decide
  obtain ⟨c₁, first, held₁⟩ := held.pushBits (indicator mode) (show 4 ≤ 64 by simp)
  obtain ⟨c₂, second, held₂⟩ := held₁.pushBits input.length narrow
  cases mode with
  | numeric =>
      obtain ⟨c', chars, result⟩ := held₂.encodeDigits writable
      refine ⟨c', ?_, result⟩
      simp only [Encode.encodeAs, encodeNumeric, indicator] at first ⊢
      simp only [first, second, bind, Except.bind]
      exact chars
  | alphanumeric =>
      obtain ⟨c', chars, result⟩ := held₂.encodePairs writable
      refine ⟨c', ?_, result⟩
      simp only [Encode.encodeAs, encodeAlphanumeric, indicator] at first ⊢
      simp only [first, second, bind, Except.bind]
      exact chars
  | byte =>
      obtain ⟨c', chars, result⟩ := held₂.pushU8Slice input
      refine ⟨c', ?_, result⟩
      simp only [Encode.encodeAs, encodeByte, indicator] at first ⊢
      simp only [first, second, bind, Except.bind]
      exact chars

theorem readData_segmentBits {v : Version} {mode : Mode} {input : Bytes} {rest : List Bool}
    (writable : Writable mode input) (fits : input.length ≤ (Version.longest mode).getD v 0)
    (ends : rest.length < 4 ∨ ∃ more, rest = Bits.ofNat 4 0 ++ more) :
    readData (v + 1) (segmentBits v mode input ++ rest) = some input := by
  obtain ⟨-, counted, width⟩ := longest_fits v mode
  have stop : ∀ fuel, readSegments (v + 1) (fuel + 1) rest = some [] := by
    intro fuel
    rcases ends with short | ⟨more, rfl⟩
    · rw [readSegments, if_pos short]
    · rw [readSegments, if_neg (by simp), Bits.field_ofNat (by simp)]
      rfl
  have known : modeOf (indicator mode) = some mode := by cases mode <;> rfl
  have small : indicator mode < 2 ^ 4 := by cases mode <;> decide
  have nonzero : indicator mode ≠ 0 := by cases mode <;> decide
  obtain ⟨fuel, enough⟩ : ∃ fuel, (segmentBits v mode input ++ rest).length = fuel + 1 := by
    refine ⟨(segmentBits v mode input ++ rest).length - 1, ?_⟩
    simp only [segmentBits, List.length_append, Bits.length_ofNat]
    omega
  rw [readData, enough, segmentBits, List.append_assoc, List.append_assoc, readSegments,
    if_neg (by simp), Bits.field_ofNat small]
  simp only [bind, Option.bind]
  rw [if_neg nonzero]
  simp only [known, ← width, Bits.field_ofNat (fits.trans_lt counted), readChars_charBits writable,
    stop, List.append_nil]

theorem encode_reads {v : Version} {mode : Mode} {input : Bytes} (writable : Writable mode input)
    (fits : input.length ≤ (Version.longest mode).getD v 0) :
    ∃ c, encode input mode v = .ok c ∧ v.maxBytes ≤ c.data.length ∧
      readData (v + 1) (Bits.ofBytes (c.data.take (Hardcode.dataCodewords v))) = some input := by
  obtain ⟨c₁, chars, held₁⟩ := (Holds.fromVersion v).encodeAs writable v
  obtain ⟨capacity, -, -⟩ := longest_fits v mode
  have size : (segmentBits v mode input).length ≤ Hardcode.dataBits v := by
    have shorter := charLength_mono mode fits
    simp only [segmentBits, List.length_append, Bits.length_ofNat, length_charBits]
    omega
  have len := held₁.len
  obtain ⟨c₂, terminated, held₂⟩ := held₁.pushBits 0 (show min (Hardcode.dataBits v - c₁.len) 4 ≤ 64 by omega)
  obtain ⟨c₃, padded, held₃⟩ := held₂.pushBits 0 (show (8 - c₂.len % 8) % 8 ≤ 64 by omega)
  obtain ⟨c, more, filled, held, enough⟩ := held₃.fill
  have small := dataCodewords_le_maxBytes v
  refine ⟨c, ?_, ?_, ?_⟩
  · simp only [encode, chars, addTerminator, padTo8, bind, Except.bind]
    rw [if_pos (by omega), terminated]
    simp only [padded]
    exact filled
  · have large := held.room
    omega
  · rw [held.ofBytes_take (by omega), List.append_assoc, List.append_assoc, List.take_append,
      List.take_of_length_le (by rw [Hardcode.dataBits] at size; omega)]
    apply readData_segmentBits writable fits
    rw [← len]
    by_cases room : 4 ≤ Hardcode.dataBits v - c₁.len
    · right
      rw [Nat.min_eq_right room, List.take_append, List.take_of_length_le
        (by rw [Bits.length_ofNat]; rw [Hardcode.dataBits] at room; omega)]
      exact ⟨_, rfl⟩
    · left
      rw [List.length_take]
      rw [Hardcode.dataBits] at room
      omega

end

end AirFerry.Proof.Qr
