import AirFerry.FastQr.Compact

namespace AirFerry.Proof.Qr
open Library FastQr

def bitAt (data : Bytes) (i : Nat) : Bool := (data[i / 8]?.getD 0).getLsbD (7 - i % 8)

/-- The buffer holds these bits and zeros after them, in at least `room` bytes. -/
structure Holds (room : Nat) (c : CompactQR) (bits : List Bool) : Prop where
  len : c.len = bits.length
  bit : ∀ i, bitAt c.data i = bits[i]?.getD false
  inside : bits.length ≤ 8 * c.data.length
  room : room ≤ c.data.length

theorem keepLast_of_le {i : Nat} (inside : i ≤ 64) : keepLast i = .ok (2 ^ i - 1) := by
  have table : keepLastTable = (List.range 65).map fun i => 2 ^ i - 1 := by decide
  rw [keepLast, table]
  apply index_of_getElem?
  rw [List.getElem?_map, List.getElem?_range (by omega)]
  rfl

theorem bitAt_modify {data : Bytes} {k : Nat} (inside : k < data.length) (change : U8 → U8) (i : Nat) :
    bitAt (data.modify k change) i =
      if i / 8 = k then (change (data[k]?.getD 0)).getLsbD (7 - i % 8) else bitAt data i := by
  unfold bitAt
  rw [List.getElem?_modify]
  by_cases same : i / 8 = k
  · simp [same, inside]
  · simp only [if_neg same, if_neg (Ne.symm same), id_map']

section
variable {room : Nat} {c : CompactQR} {bits : List Bool}

theorem Holds.fromVersion (v : Version) : Holds (v.maxBytes * 8) (CompactQR.fromVersion v) [] := by
  refine ⟨rfl, fun i => ?_, Nat.zero_le _, ?_⟩
  · rw [bitAt, CompactQR.fromVersion, List.getElem?_replicate]
    split
    · simp
    · simp
  · simp [CompactQR.fromVersion]

theorem Holds.increaseLen (held : Holds room c bits) (dataLength : Nat) :
    Holds room (c.increaseLen dataLength) bits ∧
      dataLength / 8 < (c.increaseLen dataLength).data.length ∧
      (c.increaseLen dataLength).len = c.len := by
  unfold CompactQR.increaseLen
  split
  · next short =>
      have size : (c.data.rightpad (dataLength / 8 + 1) 0).length = dataLength / 8 + 1 := by
        simp only [List.rightpad, List.length_append, List.length_replicate]
        omega
      have larger : c.data.length ≤ dataLength / 8 + 1 := by omega
      refine ⟨⟨held.len, fun i => ?_, ?_, ?_⟩, by rw [size]; omega, rfl⟩
      · rw [← held.bit i]
        unfold bitAt
        congr 1
        simp only [List.rightpad]
        by_cases inside : i / 8 < c.data.length
        · rw [List.getElem?_append_left inside]
        · rw [List.getElem?_append_right (not_lt.mp inside), List.getElem?_replicate,
            List.getElem?_eq_none (not_lt.mp inside)]
          split
          · rfl
          · rfl
      · exact held.inside.trans (by rw [size]; exact Nat.mul_le_mul_left 8 larger)
      · exact held.room.trans (by rw [size]; exact larger)
  · next long => exact ⟨held, by omega, rfl⟩

theorem Holds.place {n : Nat} {more : List Bool} {change : U8 → U8} {mask : U8}
    (held : Holds room c bits) (count : more.length = n) (space : c.len / 8 < c.data.length)
    (fits : c.len % 8 + n ≤ 8)
    (changes : change (c.data[c.len / 8]?.getD 0) = c.data[c.len / 8]?.getD 0 ||| mask)
    (masks : ∀ j < 8, mask.getLsbD (7 - j) = (decide (c.len % 8 ≤ j) && more[j - c.len % 8]?.getD false)) :
    ∃ data, updateAt c.data (c.len / 8) change = .ok data ∧ data.length = c.data.length ∧
      Holds room { len := c.len + n, data } (bits ++ more) := by
  subst count
  refine ⟨c.data.modify (c.len / 8) change, if_pos space, List.length_modify .., ?_⟩
  have len := held.len
  refine ⟨by rw [List.length_append, len], fun i => ?_, ?_, ?_⟩
  · rw [bitAt_modify space]
    by_cases same : i / 8 = c.len / 8
    · rw [if_pos same, changes, BitVec.getLsbD_or, masks _ (Nat.mod_lt i (by simp)), ← same]
      change (bitAt c.data i || _) = _
      rw [held.bit i]
      by_cases before : i < bits.length
      · have low : ¬ c.len % 8 ≤ i % 8 := by omega
        rw [List.getElem?_append_left before, decide_eq_false low, Bool.false_and, Bool.or_false]
      · have high : c.len % 8 ≤ i % 8 := by omega
        have offset : i % 8 - c.len % 8 = i - bits.length := by omega
        rw [List.getElem?_append_right (not_lt.mp before), List.getElem?_eq_none (not_lt.mp before),
          decide_eq_true high, offset]
        simp
    · rw [if_neg same, held.bit i]
      by_cases before : i < bits.length
      · rw [List.getElem?_append_left before]
      · rw [List.getElem?_append_right (not_lt.mp before), List.getElem?_eq_none (not_lt.mp before),
          List.getElem?_eq_none (by omega)]
  · rw [List.length_append, List.length_modify]
    omega
  · rw [List.length_modify]
    exact held.room

theorem Holds.or {n : Nat} {more : List Bool} (held : Holds room c bits) (mask : U8)
    (count : more.length = n) (space : c.len / 8 < c.data.length) (fits : c.len % 8 + n ≤ 8)
    (masks : ∀ j < 8, mask.getLsbD (7 - j) =
      (decide (c.len % 8 ≤ j) && more[j - c.len % 8]?.getD false)) :
    ∃ data, updateAt c.data (c.len / 8) (fun b => b ||| mask) = .ok data ∧
      data.length = c.data.length ∧ Holds room { len := c.len + n, data } (bits ++ more) :=
  held.place count space fits rfl masks

theorem Holds.next_byte (held : Holds room c bits) (aligned : c.len % 8 = 0) :
    c.data[c.len / 8]?.getD 0 = 0 := by
  apply BitVec.eq_of_getLsbD_eq
  intro j small
  have bit := held.bit (c.len + (7 - j))
  have byte : (c.len + (7 - j)) / 8 = c.len / 8 := by omega
  have position : 7 - (c.len + (7 - j)) % 8 = j := by omega
  have beyond : bits.length ≤ c.len + (7 - j) := by rw [← held.len]; omega
  rw [bitAt, byte, position, @List.getElem?_eq_none _ bits _ beyond] at bit
  rw [bit]
  simp

theorem getLsbD_shiftRight_keep (b : U8) {right j : Nat} (inside : right ≤ 8) (small : j < 8) :
    (b >>> right &&& BitVec.ofNat 8 (2 ^ (8 - right) - 1)).getLsbD (7 - j) =
      (decide (right ≤ j) && (Bits.ofNat (8 - right) (b.toNat >>> right))[j - right]?.getD false) := by
  simp only [BitVec.getLsbD_and, BitVec.getLsbD_ushiftRight, BitVec.getLsbD_ofNat,
    Nat.testBit_two_pow_sub_one, Bits.getElem?_ofNat, Nat.testBit_shiftRight]
  by_cases high : right ≤ j
  · have position : right + (8 - right - 1 - (j - right)) = right + (7 - j) := by omega
    rw [if_pos (by omega), position]
    simp [high, show 7 - j < 8 - right by omega, BitVec.getLsbD, show 7 - j < 8 by omega]
  · simp [high, show ¬ 7 - j < 8 - right by omega]

theorem getLsbD_keep_shiftLeft (b : U8) {right j : Nat} (inside : right ≤ 8) (small : j < 8) :
    ((b &&& BitVec.ofNat 8 (2 ^ right - 1)) <<< (8 - right)).getLsbD (7 - j) =
      (Bits.ofNat right b.toNat)[j]?.getD false := by
  simp only [BitVec.getLsbD_shiftLeft, BitVec.getLsbD_and, BitVec.getLsbD_ofNat,
    Nat.testBit_two_pow_sub_one, Bits.getElem?_ofNat]
  by_cases front : j < right
  · have position : 7 - j - (8 - right) = right - 1 - j := by omega
    rw [if_pos front, position]
    simp [show 7 - j < 8 by omega, show ¬ 7 - j < 8 - right by omega, BitVec.getLsbD,
      show right - 1 - j < 8 by omega, show right - 1 - j < right by omega]
  · simp [front]
    omega

theorem Holds.pushU8 (held : Holds room c bits) (b : U8) :
    ∃ c', c.pushU8 b = .ok c' ∧ Holds room c' (bits ++ Bits.ofNat 8 b.toNat) := by
  obtain ⟨grown, space, len⟩ := held.increaseLen (c.len + 8)
  obtain ⟨d, which⟩ : ∃ d, d = c.increaseLen (c.len + 8) := ⟨_, rfl⟩
  rw [← which] at grown space len
  simp only [CompactQR.pushU8, ← which, len]
  by_cases aligned : c.len % 8 = 0
  · obtain ⟨data, written, -, result⟩ := @Holds.place _ _ _ 8 (Bits.ofNat 8 b.toNat) (fun _ => b) b
      grown (Bits.length_ofNat 8 _) (by omega) (by omega)
      (by rw [grown.next_byte (by omega)]; simp) (fun j small => by
        rw [len, aligned, Nat.sub_zero, Bits.getElem?_ofNat, if_pos small]
        simp [BitVec.getLsbD])
    rw [len] at written result
    refine ⟨_, ?_, result⟩
    simp [aligned, written, bind, Except.bind, pure, Except.pure]
  · obtain ⟨right, rest⟩ : ∃ right, right = c.len % 8 := ⟨_, rfl⟩
    obtain ⟨data, first, size, upper⟩ := @Holds.or _ _ _ (8 - right)
      (Bits.ofNat (8 - right) (b.toNat >>> right)) grown
      (b >>> right &&& BitVec.ofNat 8 (2 ^ (8 - right) - 1)) (Bits.length_ofNat _ _) (by omega)
      (by omega) (fun j small => by rw [len, ← rest]; exact getLsbD_shiftRight_keep b (by omega) small)
    rw [len] at first upper
    have next : (c.len + (8 - right)) / 8 = c.len / 8 + 1 := by omega
    have boundary : (c.len + (8 - right)) % 8 = 0 := by omega
    obtain ⟨data', second, -, whole⟩ := @Holds.or _ _ _ right (Bits.ofNat right b.toNat) upper
      ((b &&& BitVec.ofNat 8 (2 ^ right - 1)) <<< (8 - right)) (Bits.length_ofNat _ _)
      (by simp only; omega) (by simp only; omega) (fun j small => by
        simp only [boundary, Nat.zero_le, decide_true, Bool.true_and, Nat.sub_zero]
        exact getLsbD_keep_shiftLeft b (by omega) small)
    simp only [next] at second whole
    rw [List.append_assoc, ← Bits.ofNat_add, Nat.sub_add_cancel (by omega), Nat.add_assoc,
      Nat.sub_add_cancel (by omega)] at whole
    refine ⟨_, ?_, whole⟩
    rw [← rest]
    simp [show right ≠ 0 by omega, keepLast_of_le (show 8 - right ≤ 64 by omega),
      keepLast_of_le (show right ≤ 64 by omega), first, second, bind, Except.bind, pure, Except.pure]

theorem Holds.pushU8Slice (held : Holds room c bits) (bytes : Bytes) :
    ∃ c', c.pushU8Slice bytes = .ok c' ∧ Holds room c' (bits ++ Bits.ofBytes bytes) := by
  have pushes : ∀ (bytes : Bytes) (c : CompactQR) (bits : List Bool), Holds room c bits →
      ∃ c', bytes.foldlM CompactQR.pushU8 c = .ok c' ∧ Holds room c' (bits ++ Bits.ofBytes bytes) := by
    intro bytes
    induction bytes with
    | nil =>
        intro c bits held
        exact ⟨c, rfl, by rwa [Bits.ofBytes_nil, List.append_nil]⟩
    | cons b bytes ih =>
        intro c bits held
        obtain ⟨next, pushed, holds⟩ := held.pushU8 b
        obtain ⟨c', rest, result⟩ := ih next _ holds
        refine ⟨c', ?_, ?_⟩
        · rw [List.foldlM_cons, pushed]
          exact rest
        · rwa [Bits.ofBytes_cons, ← List.append_assoc]
  exact pushes bytes _ bits (held.increaseLen _).1

theorem Holds.pushWhole (held : Holds room c bits) (n i : Nat) :
    ∃ c', c.pushWhole n i = .ok c' ∧
      Holds room c' (bits ++ Bits.ofNat (8 * (i / 8)) (n >>> (i % 8))) := by
  fun_induction CompactQR.pushWhole c n i generalizing bits with
  | case1 c i large ih =>
      obtain ⟨next, pushed, holds⟩ := held.pushU8 (BitVec.ofNat 8 (n >>> (i - 8)))
      obtain ⟨c', rest, result⟩ := ih next holds
      refine ⟨c', ?_, ?_⟩
      · rw [pushed]
        exact rest
      · have count : 8 * (i / 8) = 8 + 8 * ((i - 8) / 8) := by omega
        have position : i % 8 + 8 * ((i - 8) / 8) = i - 8 := by omega
        have bottom : (i - 8) % 8 = i % 8 := by omega
        rw [BitVec.toNat_ofNat, Bits.ofNat_mod, bottom, List.append_assoc] at result
        rwa [count, Bits.ofNat_add, ← Nat.shiftRight_add, position]
  | case2 c i small =>
      refine ⟨c, rfl, ?_⟩
      rw [Nat.div_eq_of_lt (by omega), Nat.mul_zero, Bits.ofNat, List.append_nil]
      exact held

theorem Holds.weaken {smaller : Nat} (held : Holds room c bits) (le : smaller ≤ room) :
    Holds smaller c bits := ⟨held.len, held.bit, held.inside, le.trans held.room⟩

theorem Holds.increased (held : Holds room c bits) (dataLength : Nat) :
    Holds (max room (dataLength / 8 + 1)) (c.increaseLen dataLength) bits := by
  obtain ⟨grown, space, -⟩ := held.increaseLen dataLength
  exact ⟨grown.len, grown.bit, grown.inside, max_le grown.room space⟩

theorem getLsbD_field {n width right j : Nat} (inside : right + width ≤ 8) (small : j < 8)
    (fits : n < 2 ^ width) :
    (BitVec.ofNat 8 (n <<< (8 - right - width))).getLsbD (7 - j) =
      (decide (right ≤ j) && (Bits.ofNat width n)[j - right]?.getD false) := by
  rw [BitVec.getLsbD_ofNat, Nat.testBit_shiftLeft, Bits.getElem?_ofNat,
    decide_eq_true (show 7 - j < 8 by omega), Bool.true_and]
  by_cases high : right ≤ j
  · by_cases within : j - right < width
    · have position : 7 - j - (8 - right - width) = width - 1 - (j - right) := by omega
      rw [if_pos within, position, decide_eq_true high, decide_eq_true (by omega)]
      simp
    · rw [if_neg within, decide_eq_false (by omega)]
      simp
  · have beyond : width ≤ 7 - j - (8 - right - width) := by omega
    have zero := Nat.testBit_lt_two_pow (fits.trans_le (Nat.pow_le_pow_right Nat.two_pos beyond))
    rw [zero, decide_eq_false high]
    simp

theorem keep_eq_mod (n width : Nat) : n &&& (2 ^ width - 1) = n % 2 ^ width :=
  Nat.and_two_pow_sub_one_eq_mod n width

theorem Holds.finishByte {space : Nat} (held : Holds room c bits) (n : Nat)
    (left : space = (8 - c.len % 8) % 8) (available : c.len / 8 < c.data.length) :
    ∃ c', c.finishByte n space = .ok c' ∧ c'.len % 8 = 0 ∧ Holds room c' (bits ++ Bits.ofNat space n) := by
  by_cases aligned : space = 0
  · refine ⟨c, if_pos aligned, by omega, ?_⟩
    rwa [aligned, Bits.ofNat, List.append_nil]
  · obtain ⟨data, written, -, result⟩ := held.or (BitVec.ofNat 8 (n &&& (2 ^ space - 1)))
      (Bits.length_ofNat space n) available (by omega) (fun j small => by
        have bits := @getLsbD_field (n % 2 ^ space) space (c.len % 8) j (by omega) small
          (Nat.mod_lt n (by positivity))
        rw [Bits.ofNat_mod, show 8 - c.len % 8 - space = 0 by omega, Nat.shiftLeft_zero] at bits
        rw [keep_eq_mod, bits])
    refine ⟨_, ?_, by simp only; omega, result⟩
    rw [CompactQR.finishByte, if_neg aligned, keepLast_of_le (by omega)]
    simp only [bind, Except.bind, written]
    rfl

theorem Holds.startByte {width : Nat} (held : Holds room c bits) (n : Nat) (aligned : c.len % 8 = 0)
    (short : width < 8) (available : width ≠ 0 → c.len / 8 < c.data.length) :
    ∃ c', c.startByte n width = .ok c' ∧ Holds room c' (bits ++ Bits.ofNat width n) := by
  by_cases empty : width = 0
  · refine ⟨c, if_pos empty, ?_⟩
    rwa [empty, Bits.ofNat, List.append_nil]
  · have shifted : BitVec.ofNat 8 (n &&& (2 ^ width - 1)) <<< (8 - width) =
        BitVec.ofNat 8 ((n % 2 ^ width) <<< (8 - width)) := by
      rw [keep_eq_mod, ← BitVec.shiftLeft_eq, BitVec.shiftLeft]
      apply BitVec.eq_of_toNat_eq
      simp only [BitVec.toNat_ofNat, Nat.shiftLeft_eq, Nat.mod_mul_mod]
    obtain ⟨data, written, -, result⟩ := @Holds.place _ _ _ width (Bits.ofNat width n)
      (fun b => b + BitVec.ofNat 8 (n &&& (2 ^ width - 1)) <<< (8 - width))
      (BitVec.ofNat 8 (n &&& (2 ^ width - 1)) <<< (8 - width)) held (Bits.length_ofNat width n)
      (available empty) (by omega) (by rw [held.next_byte aligned]; simp) (fun j small => by
        have bits := @getLsbD_field (n % 2 ^ width) width 0 j (by omega) small
          (Nat.mod_lt n (by positivity))
        rw [Bits.ofNat_mod, Nat.sub_zero] at bits
        rw [shifted, bits, aligned])
    refine ⟨_, ?_, result⟩
    rw [CompactQR.startByte, if_neg empty, keepLast_of_le (by omega)]
    simp only [bind, Except.bind, written]
    rfl

theorem Holds.pushBits (held : Holds room c bits) (n : Nat) {len : Nat} (width : len ≤ 64) :
    ∃ c', c.pushBits n len = .ok c' ∧ Holds room c' (bits ++ Bits.ofNat len n) := by
  obtain ⟨d, which⟩ : ∃ d, d = c.increaseLen (c.len + len) := ⟨_, rfl⟩
  obtain ⟨-, space, same⟩ := held.increaseLen (c.len + len)
  have grown := held.increased (c.len + len)
  rw [← which] at space same grown
  obtain ⟨m, masked⟩ : ∃ m, m = n % 2 ^ len := ⟨_, rfl⟩
  have fits : m < 2 ^ len := by
    rw [masked]
    exact Nat.mod_lt n (by positivity)
  obtain ⟨left, remSpace⟩ : ∃ left, left = (8 - c.len % 8) % 8 := ⟨_, rfl⟩
  rw [← Bits.ofNat_mod len n, ← masked]
  unfold CompactQR.pushBits
  simp only [keepLast_of_le width, ← which, same, bind, Except.bind, keep_eq_mod, ← masked, ← remSpace]
  by_cases short : len < left
  · obtain ⟨data, written, -, result⟩ := grown.or (BitVec.ofNat 8 (m <<< (left - len)))
      (Bits.length_ofNat len m) (by omega) (by omega) (fun j small => by
        rw [same, ← getLsbD_field (by omega) small fits]
        congr 4
        omega)
    rw [same] at written result
    refine ⟨_, ?_, result.weaken (le_max_left _ _)⟩
    simp [short, written, pure, Except.pure]
  · obtain ⟨c₁, first, aligned, upper⟩ := @Holds.finishByte _ _ _ left grown (m >>> (len - left))
      (by rw [same]; exact remSpace) (by omega)
    obtain ⟨c₂, second, middle⟩ := upper.pushWhole m (len - left)
    have position : c₂.len = c.len + left + 8 * ((len - left) / 8) := by
      rw [middle.len]
      simp only [List.length_append, Bits.length_ofNat]
      rw [← held.len]
    obtain ⟨c₃, third, lower⟩ := @Holds.startByte _ _ _ ((len - left) % 8) middle m (by omega)
      (by omega) (fun _ => by have := middle.room; omega)
    refine ⟨c₃, ?_, ?_⟩
    · rw [if_neg short, first]
      simp only [second]
      exact third
    · have whole : Bits.ofNat len m = Bits.ofNat left (m >>> (len - left)) ++
          (Bits.ofNat (8 * ((len - left) / 8)) (m >>> ((len - left) % 8)) ++
            Bits.ofNat ((len - left) % 8) m) := by
        rw [← Bits.ofNat_add, Nat.div_add_mod, ← Bits.ofNat_add, Nat.add_sub_cancel' (by omega)]
      rw [List.append_assoc, List.append_assoc] at lower
      rw [whole]
      exact lower.weaken (le_max_left _ _)

theorem Holds.fill (held : Holds room c bits) :
    ∃ c' more, c.fill = .ok c' ∧ Holds room c' (bits ++ more) ∧ room ≤ (bits ++ more).length := by
  have pushes : ∀ k, ∃ c' more, (List.range k).foldlM
      (fun c i => do c.pushU8 (← index CompactQR.padBytes (i % 2))) c = .ok c' ∧
      Holds room c' (bits ++ more) ∧ more.length = 8 * k := by
    intro k
    induction k with
    | zero => exact ⟨c, [], rfl, by rwa [List.append_nil], rfl⟩
    | succ k ih =>
        obtain ⟨next, more, pushed, holds, count⟩ := ih
        obtain ⟨pad, chosen⟩ : ∃ pad, index CompactQR.padBytes (k % 2) = .ok pad :=
          exists_index (Nat.mod_lt k (by simp))
        obtain ⟨c', last, result⟩ := holds.pushU8 pad
        refine ⟨c', more ++ Bits.ofNat 8 pad.toNat, ?_, by rwa [← List.append_assoc], ?_⟩
        · rw [List.range_succ, List.foldlM_append, pushed]
          simp only [bind, Except.bind, List.foldlM_cons, chosen, last]
          rfl
        · rw [List.length_append, count, Bits.length_ofNat, Nat.mul_succ]
  obtain ⟨c', more, pushed, holds, count⟩ := pushes (ceilDiv (c.data.length - c.len) 8)
  refine ⟨c', more, pushed, holds, ?_⟩
  have enough := @le_ceilDiv_mul (c.data.length - c.len) 8 (by simp)
  have large := held.room
  have len := held.len
  rw [List.length_append, count]
  omega

theorem Holds.ofBytes_take (held : Holds room c bits) {n : Nat} (inside : 8 * n ≤ bits.length) :
    Bits.ofBytes (c.data.take n) = bits.take (8 * n) := by
  have space := held.inside
  apply List.ext_getElem?
  intro i
  rw [Bits.getElem?_ofBytes, List.getElem?_take, List.getElem?_take]
  by_cases within : i < 8 * n
  · have bit := held.bit i
    rw [bitAt, List.getElem?_eq_getElem (show i / 8 < c.data.length by omega),
      List.getElem?_eq_getElem (show i < bits.length by omega), Option.getD_some, Option.getD_some] at bit
    rw [if_pos within, if_pos (by omega), List.getElem?_eq_getElem (show i / 8 < c.data.length by omega),
      List.getElem?_eq_getElem (show i < bits.length by omega), Option.map_some, bit]
  · rw [if_neg within, if_neg (by omega), Option.map_none]

end

end AirFerry.Proof.Qr
