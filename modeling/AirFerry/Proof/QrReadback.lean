import AirFerry.Proof.QrBlocks
import AirFerry.Proof.QrPlacement
import AirFerry.Proof.QrSegments

/-!
# Reading the symbols of the code back

The layout of the standard is the layout of the tables, so a reader gets from a finished matrix the
blocks that were written, and every block is a code word.
-/

namespace AirFerry.Proof.Qr
open Library FastQr QrStandard

theorem totalCodewords_eq (v : Version) : totalCodewords (number v) = v.maxBytes := by
  revert v
  decide +kernel

theorem errorCodewords_eq (v : Version) : errorCodewords (number v) = errorLength v := by
  revert v
  decide +kernel

theorem blockSizes_eq (v : Version) : blockSizes (number v) = (blockRanges v).map Prod.snd := by
  revert v
  decide +kernel

theorem blockCount_eq (v : Version) : blockCount (number v) = (blockRanges v).length := by
  revert v
  decide +kernel

theorem rounds_eq (v : Version) : (blockSizes (number v)).foldr max 0 = rounds v := by
  revert v
  decide +kernel

section
variable {v : Version} {data : Bytes}

theorem sum_blockSizes (v : Version) : (blockSizes (number v)).sum = Hardcode.dataCodewords v := by
  rw [blockSizes_eq, (blockLayout v).1]

theorem errorBlocks_lengths (v : Version) (data : Bytes) :
    (errorBlocks v data).map List.length = List.replicate (blockCount (number v)) (errorCodewords (number v)) := by
  rw [blockCount_eq, errorCodewords_eq, List.eq_replicate_iff]
  constructor
  · simp [errorBlocks, dataBlocks, blocksOf]
  · intro n member
    obtain ⟨block, listed, rfl⟩ := List.mem_map.mp member
    exact errorBlocks_length v data block listed

theorem dealBlocks_interleave (enough : Hardcode.dataCodewords v ≤ data.length) :
    dealBlocks (number v) (Interleave.interleave (rounds v) (dataBlocks v data) ++
        Interleave.interleave (errorLength v) (errorBlocks v data)) =
      List.zip (dataBlocks v data) (errorBlocks v data) := by
  have first : Interleave.deal (rounds v) (blockSizes (number v))
      (Interleave.interleave (rounds v) (dataBlocks v data) ++
        Interleave.interleave (errorLength v) (errorBlocks v data)) = dataBlocks v data := by
    rw [blockSizes_eq, ← length_dataBlocks enough]
    exact Interleave.deal_interleave (dataBlocks_short v data) _
  have second : Interleave.deal (errorLength v)
      (List.replicate (blockCount (number v)) (errorCodewords (number v)))
      (Interleave.interleave (errorLength v) (errorBlocks v data)) = errorBlocks v data := by
    rw [← errorBlocks_lengths v data, ← List.append_nil (Interleave.interleave _ _)]
    exact Interleave.deal_interleave (fun block member => (errorBlocks_length v data block member).le) _
  simp only [dealBlocks, rounds_eq, sum_blockSizes, errorCodewords_eq] at second ⊢
  rw [first, List.drop_left' (length_interleave_dataBlocks enough), second]

theorem isBlock_errorBlock {block : Bytes} :
    IsBlock (number v) (block ++ errorBlock (Hardcode.getPolynomial v).tail block) := by
  obtain ⟨g, shape, size, roots⟩ := getPolynomial_eq v
  have count : (powers g).length = errorLength v := by rw [powers, List.length_map, size]
  have word := @ReedSolomon.isCodeword_encode Gf256 _ (Gf256.exp 1) (powers g) (letters block)
    (by rwa [count, ← size])
  have same : (block ++ errorBlock (Hardcode.getPolynomial v).tail block).map Gf256.mk =
      ReedSolomon.encode (powers g) (letters block) := by
    have minus : ∀ x : Gf256, -x = x := fun x => by rw [← zero_sub, Gf256.sub_eq, zero_add]
    rw [shape, List.tail_cons, errorBlock, ReedSolomon.encode, List.map_append, List.map_map,
      show (Neg.neg : Gf256 → Gf256) = id from funext minus, List.map_id, letters, List.length_map]
    exact congrArg _ (List.map_id'' (fun _ => rfl) _)
  rw [IsBlock, same, errorCodewords_eq, ← count]
  exact word

theorem groupRanges_flatten {first count size : Nat} (inside : first + count * size ≤ data.length) :
    (blocksOf (groupRanges first count size) data).flatten = (data.drop first).take (count * size) := by
  induction count with
  | zero => simp [groupRanges, blocksOf]
  | succ count ih =>
      rw [Nat.succ_mul] at inside
      have earlier := ih (by omega)
      rw [groupRanges, List.range_succ, List.map_append, blocksOf_append, List.flatten_append, ← groupRanges,
        earlier, Nat.succ_mul, List.take_add]
      simp [blocksOf]

theorem dataBlocks_flatten (enough : Hardcode.dataCodewords v ≤ data.length) :
    (dataBlocks v data).flatten = data.take (Hardcode.dataCodewords v) := by
  have sizes := groups_sum v
  have commuted := Nat.mul_comm (Hardcode.eccToGroups v).1.1 (Hardcode.eccToGroups v).1.2
  rw [dataBlocks, blockRanges, blocksOf_append, List.flatten_append, groupRanges_flatten (by omega),
    groupRanges_flatten (by omega), List.drop_zero, commuted, ← sizes, List.take_add]

end

def grid (qr : QRCode) : Grid :=
  { size := qr.size, modules := (qr.data.take (qr.size * qr.size)).map Module.value }

section
variable {n : Nat} {v : Version} {qr : QRCode} {table : Position → FastQr.Module} {bytes : Bytes}

theorem grid_length (drawn : Draws n qr table) : (grid qr).modules.length = (grid qr).size * (grid qr).size := by
  have inside : n * n ≤ qrMaxModules := Nat.mul_le_mul drawn.fits drawn.fits
  simp only [grid, List.length_map, List.length_take, drawn.length, drawn.size]
  exact min_eq_left inside

theorem grid_colour (drawn : Draws n qr table) {p : Position} (inside : InSquare n p) :
    (grid qr).colour p = (table p).value := by
  have row : (p.1 + 1) * n ≤ n * n := Nat.mul_le_mul_right n inside.1
  have place := (position_lt inside drawn.fits).2
  simp only [Grid.colour, grid, drawn.size]
  rw [List.getD_eq_getElem?_getD, List.getElem?_map, List.getElem?_take, if_pos (by omega), drawn.shows p inside]
  rfl

theorem dataBits_grid (drawn : Draws v.size qr table) (finished : Finished v bytes table) :
    dataBits (number v) 0 (grid qr) = (List.range (dataPositions (number v)).length).map (bitAt bytes) := by
  apply List.ext_getElem?
  intro j
  rw [dataBits, List.getElem?_map, List.getElem?_map]
  by_cases inside : j < (dataPositions (number v)).length
  · obtain ⟨p, listed⟩ : ∃ p, (dataPositions (number v))[j]? = some p := ⟨_, List.getElem?_eq_getElem inside⟩
    have square := dataPositions_inside (List.mem_of_getElem? listed)
    rw [← size_eq] at square
    rw [List.getElem?_range inside, listed, Option.map_some, Option.map_some, grid_colour drawn square,
      finished.bit j p listed, Bool.xor_assoc, Bool.xor_self, Bool.xor_false]
  · rw [List.getElem?_eq_none (by simpa using inside), List.getElem?_eq_none (by simpa using inside)]
    rfl

theorem codewords_grid (drawn : Draws v.size qr table) (finished : Finished v bytes table)
    (enough : v.maxBytes ≤ bytes.length) :
    Bits.toBytes (totalCodewords (number v)) (dataBits (number v) 0 (grid qr)) = bytes.take v.maxBytes := by
  have room := length_dataPositions v
  rw [totalCodewords_eq] at room ⊢
  have front : (dataBits (number v) 0 (grid qr)).take (8 * v.maxBytes) =
      Bits.ofBytes (bytes.take v.maxBytes) := by
    rw [dataBits_grid drawn finished, ← List.map_take, List.take_range, Nat.min_eq_left room]
    apply List.ext_getElem?
    intro i
    rw [Bits.getElem?_ofBytes, List.getElem?_map, List.getElem?_take]
    by_cases inside : i < 8 * v.maxBytes
    · rw [List.getElem?_range inside, if_pos (by omega), List.getElem?_eq_getElem (by omega)]
      simp only [Option.map_some, bitAt, List.getElem?_eq_getElem (show i / 8 < bytes.length by omega),
        Option.getD_some]
    · rw [if_neg (by omega), List.getElem?_eq_none (by simpa using inside)]
      rfl
  have count : (bytes.take v.maxBytes).length = v.maxBytes := List.length_take_of_le enough
  have whole := Bits.toBytes_ofBytes (bytes.take v.maxBytes)
  rw [count] at whole
  rw [← Bits.toBytes_take, front, whole]

theorem readVersion_grid (drawn : Draws v.size qr table) : readVersion (grid qr) = some (number v) := by
  have square := grid_length drawn
  have size : (grid qr).size = side (number v) := drawn.size.trans (size_eq v)
  have found : ((List.range' 1 40).find? fun version => side version = side (number v)) = some (number v) := by
    rw [List.find?_eq_some_iff_getElem]
    refine ⟨by simp, v.val, by simp, ?_, ?_⟩
    · simp [number, Nat.add_comm]
    · intro j small
      simp only [List.getElem_range', side, number, Bool.not_eq_true', decide_eq_false_iff_not]
      omega
  rw [readVersion, if_pos square, size, found]

theorem format_colour {b : Nat} (small : b < 15) {p : Position} (stands : IsFormat v.size b p) :
    InSquare v.size p ∧ functionColour (number v) 0 p = some ((formatWord 0).testBit b) := by
  have large := (size_bounds v).1
  obtain ⟨same, area⟩ := formatBit_spec large small stands
  have inside := inSquare_format large p area
  refine ⟨inside, ?_⟩
  rw [functionColour_blank inside, if_pos area, same]

theorem readMask_grid (drawn : Draws v.size qr table) (finished : Finished v bytes table) :
    readMask (grid qr) = some 0 := by
  have size : (grid qr).size = v.size := drawn.size
  have copy : ∀ b < 15, ∀ p, IsFormat v.size b p → (grid qr).colour p = (formatWord 0).testBit b := by
    intro b small p stands
    obtain ⟨inside, colour⟩ := format_colour small stands
    rw [grid_colour drawn inside]
    exact finished.function p _ inside colour
  have all : ((List.range 15).all fun b =>
      (grid qr).colour (formatPositions (grid qr).size b).1 == (formatWord 0).testBit b &&
        (grid qr).colour (formatPositions (grid qr).size b).2 == (formatWord 0).testBit b) = true := by
    rw [List.all_eq_true]
    intro b listed
    have small := List.mem_range.mp listed
    rw [size, copy b small _ (.inl rfl), copy b small _ (.inr rfl)]
    simp
  have masks : List.range 8 = 0 :: List.range' 1 7 := rfl
  rw [readMask, masks]
  exact List.find?_cons_of_pos all

end

structure IsSymbol (v : Version) (data : Bytes) (grid : Grid) : Prop where
  version : readVersion grid = some (number v)
  mask : readMask grid = some 0
  function : ∀ p colour, InSquare grid.size p → functionColour (number v) 0 p = some colour →
    grid.colour p = colour
  blocks : readBlocks (number v) 0 grid = List.zip (dataBlocks v data) (errorBlocks v data)

theorem zip_errorBlocks {v : Version} {data : Bytes} {pair : Bytes × Bytes}
    (listed : pair ∈ List.zip (dataBlocks v data) (errorBlocks v data)) :
    pair.2 = errorBlock (Hardcode.getPolynomial v).tail pair.1 := by
  have pairs : List.zip ((dataBlocks v data).map id) (errorBlocks v data) = _ := List.zip_map'
  rw [List.map_id] at pairs
  rw [pairs] at listed
  obtain ⟨block, -, rfl⟩ := List.mem_map.mp listed
  rfl

theorem IsSymbol.read {v : Version} {data input : Bytes} {grid : Grid} (symbol : IsSymbol v data grid)
    (enough : Hardcode.dataCodewords v ≤ data.length)
    (reads : readData (number v) (Bits.ofBytes (data.take (Hardcode.dataCodewords v))) = some input) :
    QrStandard.read grid = some input := by
  have words : ∀ block ∈ List.zip (dataBlocks v data) (errorBlocks v data),
      IsBlock (number v) (block.1 ++ block.2) := by
    intro block listed
    rw [zip_errorBlocks listed]
    exact isBlock_errorBlock
  have firsts : (List.zip (dataBlocks v data) (errorBlocks v data)).flatMap Prod.fst =
      data.take (Hardcode.dataCodewords v) := by
    rw [← dataBlocks_flatten enough, List.flatMap, List.map_fst_zip]
    simp [errorBlocks]
  simp only [QrStandard.read, symbol.version, symbol.mask, Option.bind_eq_bind, Option.bind_some, symbol.blocks]
  rw [if_pos words, firsts, reads]

end AirFerry.Proof.Qr
