import AirFerry.RaptorqCore.Config

/-!
# Object metadata and its gate

`ObjectMeta.validate` stands between a descriptor read off an arbitrary screen and the upstream
crate. `ObjectMeta.Valid` says what it lets through.
-/

namespace AirFerry.RaptorqCore

def maxSourceBlocks : Nat := 256
def maxObjectBytes : Nat := 32 * 1024 * 1024
def maxOriginalBytes : Nat := 256 * 1024 * 1024
def maxTotalSourceSymbols : Nat := 524288

structure SourceBlockMeta where
  sbn : U32
  numSourceSymbols : U32
  blockLength : U64
deriving DecidableEq, Repr

structure ObjectMeta where
  transferLength : U64
  symbolSize : U32
  otiBytes : Octets 12
  blocks : List SourceBlockMeta
deriving DecidableEq

namespace ObjectMeta

def fromEncoder (R : Raptorq) (dataLen : U64) (config : Config) (oti : Oti)
    (blocks : List SourceBlockEncoder) : ObjectMeta where
  transferLength := dataLen
  symbolSize := config.symbolSize
  otiBytes := R.serialize oti
  blocks := blocks.mapIdx fun i enc =>
    let k := BitVec.ofNat 32 enc.sourcePackets.length
    { sbn := BitVec.ofNat 32 i, numSourceSymbols := k,
      blockLength := k.setWidth 64 * config.symbolSize.setWidth 64 }

def oti (R : Raptorq) (m : ObjectMeta) : Oti := R.deserialize m.otiBytes

def reservedByte (m : ObjectMeta) : U8 := m.otiBytes.1.get ⟨5, by rw [m.otiBytes.2]; decide⟩

def totalSymbols (m : ObjectMeta) : Nat := (m.blocks.map fun b => b.numSourceSymbols.toNat).sum

def totalBlockLength (m : ObjectMeta) : Nat := (m.blocks.map fun b => b.blockLength.toNat).sum

def validateBlocks (symbolSize : Nat) :
    Nat → List SourceBlockMeta → Nat → Nat → Except String (Nat × Nat)
  | _, [], totalBlockLen, totalK => .ok (totalBlockLen, totalK)
  | position, b :: rest, totalBlockLen, totalK =>
      if b.sbn ≠ BitVec.ofNat 32 position then
        .error "block sbn must equal its canonical index"
      else if b.numSourceSymbols.toNat = 0 ∨
          maxSourceSymbolsPerBlock < b.numSourceSymbols.toNat then
        .error "block K out of range"
      else
        match checkedMul b.numSourceSymbols.toNat symbolSize with
        | none => .error "block_length overflow"
        | some expect =>
            if b.blockLength.toNat ≠ expect then
              .error "block_length inconsistent with K*symbol_size"
            else
              match checkedAdd totalBlockLen b.blockLength.toNat with
              | none => .error "total block length overflow"
              | some totalBlockLen =>
                  match checkedAdd totalK b.numSourceSymbols.toNat with
                  | none => .error "total source symbol count overflow"
                  | some totalK =>
                      validateBlocks symbolSize (position + 1) rest totalBlockLen totalK

def validateTotals (m : ObjectMeta) (totalBlockLen totalK : Nat) : Except String Unit :=
  if maxTotalSourceSymbols < totalK then
    .error "total source symbol count exceeds local receiver budget"
  else
    match checkedMul m.symbolSize.toNat m.blocks.length with
    | none => .error "padding budget overflow"
    | some paddingBudget =>
        match checkedAdd maxObjectBytes paddingBudget with
        | none => .error "decoder byte budget overflow"
        | some budget =>
            if budget < totalBlockLen then .error "decoder bytes exceed local receiver budget"
            else if totalBlockLen < m.transferLength.toNat then
              .error "transfer_length exceeds total block bytes"
            else .ok ()

def validate (R : Raptorq) (m : ObjectMeta) : Except String Unit :=
  let oti := m.oti R
  if ¬ LegalSymbolSize m.symbolSize then .error "symbol_size out of range"
  else if oti.symbolSize.toNat = 0 ∨ oti.symbolSize.toNat ≠ m.symbolSize.toNat then
    .error "OTI symbol_size invalid or mismatched"
  else if oti.transferLength ≠ m.transferLength then .error "OTI transfer_length mismatched"
  else if oti.subBlocks.toNat = 0 ∨ oti.symbolAlignment.toNat = 0 then
    .error "OTI sub-block/alignment must be non-zero"
  else if oti.symbolSize.toNat % oti.symbolAlignment.toNat ≠ 0 then
    .error "OTI symbol_size is not alignment-divisible"
  else if oti.symbolSize.toNat / oti.symbolAlignment.toNat < oti.subBlocks.toNat then
    .error "OTI sub-block count exceeds aligned symbol units"
  else if m.reservedByte ≠ 0 then .error "OTI reserved byte must be zero"
  else if m.transferLength.toNat = 0 ∨ maxObjectBytes < m.transferLength.toNat then
    .error "transfer_length exceeds local receiver budget"
  else if m.blocks = [] ∨ maxSourceBlocks < m.blocks.length ∨ 255 < m.blocks.length then
    .error "source block count out of range"
  else if oti.sourceBlocks.toNat ≠ m.blocks.length then .error "OTI source block count mismatched"
  else
    match validateBlocks m.symbolSize.toNat 0 m.blocks 0 0 with
    | .error reason => .error reason
    | .ok (totalBlockLen, totalK) => m.validateTotals totalBlockLen totalK

structure ValidBlock (symbolSize position : Nat) (b : SourceBlockMeta) : Prop where
  sbn : b.sbn = BitVec.ofNat 32 position
  symbols_pos : 1 ≤ b.numSourceSymbols.toNat
  symbols_le : b.numSourceSymbols.toNat ≤ maxSourceSymbolsPerBlock
  length_eq : b.blockLength.toNat = b.numSourceSymbols.toNat * symbolSize

structure Valid (R : Raptorq) (m : ObjectMeta) : Prop where
  symbolSize : LegalSymbolSize m.symbolSize
  oti_symbolSize : (m.oti R).symbolSize.toNat = m.symbolSize.toNat
  oti_transferLength : (m.oti R).transferLength = m.transferLength
  subBlocks_pos : 1 ≤ (m.oti R).subBlocks.toNat
  alignment_pos : 0 < (m.oti R).symbolAlignment.toNat
  alignment_dvd : (m.oti R).symbolSize.toNat % (m.oti R).symbolAlignment.toNat = 0
  subBlocks_le : (m.oti R).subBlocks.toNat ≤
    (m.oti R).symbolSize.toNat / (m.oti R).symbolAlignment.toNat
  reserved : m.reservedByte = 0
  transferLength_pos : 1 ≤ m.transferLength.toNat
  transferLength_le : m.transferLength.toNat ≤ maxObjectBytes
  blocks_pos : 1 ≤ m.blocks.length
  blocks_le : m.blocks.length ≤ 255
  sourceBlocks : (m.oti R).sourceBlocks.toNat = m.blocks.length
  block : ∀ i b, m.blocks[i]? = some b → ValidBlock m.symbolSize.toNat i b
  symbols_le : m.totalSymbols ≤ maxTotalSourceSymbols
  bytes_le : m.totalBlockLength ≤ maxObjectBytes + m.symbolSize.toNat * m.blocks.length
  covered : m.transferLength.toNat ≤ m.totalBlockLength

theorem validateBlocks_ok {symbolSize position totalBlockLen totalK : Nat}
    {blocks : List SourceBlockMeta} {totals : Nat × Nat}
    (h : validateBlocks symbolSize position blocks totalBlockLen totalK = .ok totals) :
    (∀ i b, blocks[i]? = some b → ValidBlock symbolSize (position + i) b) ∧
      totals = (totalBlockLen + (blocks.map fun b => b.blockLength.toNat).sum,
        totalK + (blocks.map fun b => b.numSourceSymbols.toNat).sum) := by
  induction blocks generalizing position totalBlockLen totalK with
  | nil =>
      simp only [validateBlocks, Except.ok.injEq] at h
      exact ⟨by simp, by simp [h]⟩
  | cons b rest ih =>
      rw [validateBlocks] at h
      obtain ⟨sbn, h⟩ := guard_ok h
      obtain ⟨symbols, h⟩ := guard_ok h
      split at h
      · cases h
      · rename_i expect product
        simp only [checkedMul, Option.ite_none_right_eq_some, Option.some.injEq] at product
        obtain ⟨-, rfl⟩ := product
        obtain ⟨length, h⟩ := guard_ok h
        split at h
        · cases h
        · rename_i newLen lengthSum
          simp only [checkedAdd, Option.ite_none_right_eq_some, Option.some.injEq] at lengthSum
          obtain ⟨-, rfl⟩ := lengthSum
          split at h
          · cases h
          · rename_i newK symbolSum
            simp only [checkedAdd, Option.ite_none_right_eq_some, Option.some.injEq] at symbolSum
            obtain ⟨-, rfl⟩ := symbolSum
            obtain ⟨later, totals⟩ := ih h
            constructor
            · intro i c found
              cases i with
              | zero =>
                  obtain rfl : b = c := by simpa using found
                  exact ⟨not_not.mp sbn, by omega, by omega, not_not.mp length⟩
              | succ i =>
                  have next := later i c (by simpa using found)
                  rwa [Nat.add_assoc, Nat.add_comm 1 i] at next
            · rw [totals]
              simp [Nat.add_assoc]

theorem validateBlocks_of_valid {symbolSize position totalBlockLen totalK : Nat}
    {blocks : List SourceBlockMeta}
    (valid : ∀ i b, blocks[i]? = some b → ValidBlock symbolSize (position + i) b)
    (lengths : totalBlockLen + (blocks.map fun b => b.blockLength.toNat).sum < 2 ^ 64)
    (symbols : totalK + (blocks.map fun b => b.numSourceSymbols.toNat).sum < 2 ^ 64) :
    validateBlocks symbolSize position blocks totalBlockLen totalK =
      .ok (totalBlockLen + (blocks.map fun b => b.blockLength.toNat).sum,
        totalK + (blocks.map fun b => b.numSourceSymbols.toNat).sum) := by
  induction blocks generalizing position totalBlockLen totalK with
  | nil => simp [validateBlocks]
  | cons b rest ih =>
      have head : ValidBlock symbolSize position b := valid 0 b rfl
      have tail : ∀ i c, rest[i]? = some c → ValidBlock symbolSize (position + 1 + i) c := by
        intro i c found
        have next := valid (i+1) c (by simpa using found)
        rwa [Nat.add_comm i 1, ← Nat.add_assoc] at next
      simp only [List.map_cons, List.sum_cons] at lengths symbols ⊢
      have inRange : ¬ (b.numSourceSymbols.toNat = 0 ∨
          maxSourceSymbolsPerBlock < b.numSourceSymbols.toNat) := by
        have := head.symbols_pos
        have := head.symbols_le
        omega
      have product : b.numSourceSymbols.toNat * symbolSize < 2 ^ 64 := by
        rw [← head.length_eq]
        exact b.blockLength.isLt
      simp only [validateBlocks, head.sbn, ne_eq, not_true_eq_false, if_false, inRange,
        checkedMul_of_lt product, head.length_eq]
      rw [← head.length_eq, checkedAdd_of_lt (by omega)]
      simp only []
      rw [checkedAdd_of_lt (by omega)]
      simp only []
      rw [ih tail (by omega) (by omega)]
      simp only [Nat.add_assoc]

theorem validateTotals_ok {m : ObjectMeta} {totalBlockLen totalK : Nat}
    (h : m.validateTotals totalBlockLen totalK = .ok ()) :
    totalK ≤ maxTotalSourceSymbols ∧
      totalBlockLen ≤ maxObjectBytes + m.symbolSize.toNat * m.blocks.length ∧
      m.transferLength.toNat ≤ totalBlockLen := by
  unfold validateTotals at h
  obtain ⟨tooMany, h⟩ := guard_ok h
  split at h
  · cases h
  · rename_i padding product
    simp only [checkedMul, Option.ite_none_right_eq_some, Option.some.injEq] at product
    obtain ⟨-, rfl⟩ := product
    split at h
    · cases h
    · rename_i budget sum
      simp only [checkedAdd, Option.ite_none_right_eq_some, Option.some.injEq] at sum
      obtain ⟨-, rfl⟩ := sum
      obtain ⟨overBudget, h⟩ := guard_ok h
      obtain ⟨uncovered, -⟩ := guard_ok h
      exact ⟨not_lt.mp tooMany, not_lt.mp overBudget, not_lt.mp uncovered⟩

theorem padding_le {m : ObjectMeta} (symbolSize : m.symbolSize.toNat ≤ maxSymbolSize)
    (blocks : m.blocks.length ≤ 255) : m.symbolSize.toNat * m.blocks.length ≤ 65528 * 255 :=
  Nat.mul_le_mul symbolSize blocks

theorem validateTotals_of_le {m : ObjectMeta} {totalBlockLen totalK : Nat}
    (symbolSize : m.symbolSize.toNat ≤ maxSymbolSize) (blocks : m.blocks.length ≤ 255)
    (few : totalK ≤ maxTotalSourceSymbols)
    (budget : totalBlockLen ≤ maxObjectBytes + m.symbolSize.toNat * m.blocks.length)
    (covered : m.transferLength.toNat ≤ totalBlockLen) :
    m.validateTotals totalBlockLen totalK = .ok () := by
  have padding := padding_le symbolSize blocks
  unfold validateTotals
  rw [if_neg (not_lt.mpr few), checkedMul_of_lt (by omega)]
  simp only
  rw [checkedAdd_of_lt (by simp only [maxObjectBytes]; omega)]
  simp only
  rw [if_neg (not_lt.mpr budget), if_neg (not_lt.mpr covered)]

theorem validate_ok_iff {R : Raptorq} {m : ObjectMeta} : m.validate R = .ok () ↔ m.Valid R := by
  constructor
  · intro h
    unfold validate at h
    simp only at h
    obtain ⟨legal, h⟩ := guard_ok h
    obtain ⟨size, h⟩ := guard_ok h
    obtain ⟨length, h⟩ := guard_ok h
    obtain ⟨unit, h⟩ := guard_ok h
    obtain ⟨divisible, h⟩ := guard_ok h
    obtain ⟨subBlocks, h⟩ := guard_ok h
    obtain ⟨reserved, h⟩ := guard_ok h
    obtain ⟨transfer, h⟩ := guard_ok h
    obtain ⟨count, h⟩ := guard_ok h
    obtain ⟨source, h⟩ := guard_ok h
    split at h
    · cases h
    · rename_i totalBlockLen totalK loop
      obtain ⟨block, totals⟩ := validateBlocks_ok loop
      simp only [Nat.zero_add, Prod.mk.injEq] at totals
      obtain ⟨few, budget, covered⟩ := validateTotals_ok h
      obtain ⟨rfl, rfl⟩ := totals
      have nonempty : m.blocks.length ≠ 0 := fun zero =>
        count (Or.inl (List.length_eq_zero_iff.mp zero))
      push Not at size length unit divisible reserved count source
      exact {
        symbolSize := not_not.mp legal
        oti_symbolSize := size.2
        oti_transferLength := length
        subBlocks_pos := by omega
        alignment_pos := by omega
        alignment_dvd := divisible
        subBlocks_le := by omega
        reserved := reserved
        transferLength_pos := by omega
        transferLength_le := by omega
        blocks_pos := by omega
        blocks_le := count.2.2
        sourceBlocks := source
        block := fun i b found => by simpa using block i b found
        symbols_le := few
        bytes_le := budget
        covered := covered }
  · intro v
    have blocks := v.blocks_le
    have symbols := v.symbols_le
    have bytes := v.bytes_le
    have padding := padding_le v.symbolSize.upper blocks
    have loop : validateBlocks m.symbolSize.toNat 0 m.blocks 0 0 =
        .ok (m.totalBlockLength, m.totalSymbols) := by
      have whole := @validateBlocks_of_valid m.symbolSize.toNat 0 0 0 m.blocks
        (fun i b found => by simpa using v.block i b found)
        (by change 0 + m.totalBlockLength < _; simp only [maxObjectBytes] at bytes; omega)
        (by change 0 + m.totalSymbols < _; simp only [maxTotalSourceSymbols] at symbols; omega)
      rw [Nat.zero_add, Nat.zero_add] at whole
      exact whole
    have size := v.oti_symbolSize
    have lower := v.symbolSize.lower
    simp only [minSymbolSize] at lower
    have nonempty : m.blocks ≠ [] := List.length_pos_iff.mp v.blocks_pos
    have sub := v.subBlocks_pos
    have align := v.alignment_pos
    have subLe := v.subBlocks_le
    have transferPos := v.transferLength_pos
    have transferLe := v.transferLength_le
    unfold validate
    simp only
    rw [if_neg (not_not.mpr v.symbolSize), if_neg (by omega),
      if_neg (not_not.mpr v.oti_transferLength), if_neg (by omega),
      if_neg (not_not.mpr v.alignment_dvd), if_neg (by omega), if_neg (not_not.mpr v.reserved),
      if_neg (by omega), if_neg (by simp only [nonempty, maxSourceBlocks, false_or]; omega),
      if_neg (not_not.mpr v.sourceBlocks), loop]
    exact validateTotals_of_le v.symbolSize.upper blocks symbols bytes v.covered

end ObjectMeta

end AirFerry.RaptorqCore
