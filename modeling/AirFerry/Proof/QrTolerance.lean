import AirFerry.Proof.QrRoundTrip

/-!
# Damaged symbols

The blocks of two symbols of one version are code words, so a damaged symbol is close to one of
them at most: what is read from it is what was shown.
-/

namespace AirFerry.Proof.Qr
open Library FastQr QrStandard QrProtocol

/-- A symbol and a photo differ in at most half of the error correction codewords, in each block. -/
def Near (version : Nat) (symbol photo : Grid) : Prop :=
  ∀ (i : Nat) (block damaged : Bytes × Bytes), (readBlocks version 0 symbol)[i]? = some block →
    (readBlocks version 0 photo)[i]? = some damaged →
    2 * ReedSolomon.distance (block.1 ++ block.2) (damaged.1 ++ damaged.2) ≤ errorCodewords version

section
variable {v : Version}

theorem getElem?_of_lengths {blocks : List Bytes} {lens : List Nat} (lengths : blocks.map List.length = lens)
    {i len : Nat} (listed : lens[i]? = some len) : ∃ block, blocks[i]? = some block ∧ block.length = len := by
  rw [← lengths, List.getElem?_map] at listed
  exact Option.map_eq_some_iff.mp listed

theorem readBlocks_sizes {photo : Grid} {i : Nat} {range : Nat × Nat} (listed : (blockRanges v)[i]? = some range) :
    ∃ damaged, (readBlocks (number v) 0 photo)[i]? = some damaged ∧ damaged.1.length = range.2 ∧
      damaged.2.length = errorLength v := by
  obtain ⟨codewords, named⟩ : ∃ codewords, codewords = Bits.toBytes (totalCodewords (number v))
      (dataBits (number v) 0 photo) := ⟨_, rfl⟩
  have whole : codewords.length = v.maxBytes := by rw [named, Bits.length_toBytes, totalCodewords_eq]
  obtain ⟨sizes, total, -⟩ := blockLayout v
  have inside : i < (blockRanges v).length := (List.getElem?_eq_some_iff.mp listed).1
  have short : ∀ len ∈ blockSizes (number v), len ≤ rounds v := by
    rw [blockSizes_eq]
    intro len member
    obtain ⟨block, listed, rfl⟩ := List.mem_map.mp member
    exact (blockRanges_inside v block listed).2.2
  have datas := @Interleave.length_deal _ (rounds v) _ codewords short (by rw [sum_blockSizes]; omega)
  have errors := @Interleave.length_deal _ (errorLength v)
    (List.replicate (blockCount (number v)) (errorLength v)) (codewords.drop (blockSizes (number v)).sum)
    (fun len member => (List.eq_of_mem_replicate member).le) (by
      rw [List.sum_replicate, smul_eq_mul, blockCount_eq, List.length_drop, sum_blockSizes, Nat.mul_comm]
      omega)
  obtain ⟨first, there, size⟩ := @getElem?_of_lengths _ _ datas i range.2 (by
    rw [blockSizes_eq, List.getElem?_map, listed]
    rfl)
  obtain ⟨second, here, size'⟩ := @getElem?_of_lengths _ _ errors i (errorLength v) (by
    rw [List.getElem?_replicate, if_pos (by rwa [blockCount_eq])])
  refine ⟨(first, second), ?_, size, size'⟩
  rw [readBlocks, ← named]
  simp only [dealBlocks, rounds_eq, errorCodewords_eq]
  exact List.getElem?_zip_eq_some.mpr ⟨there, here⟩

def codeBlock (v : Version) (data : Bytes) (range : Nat × Nat) : Bytes × Bytes :=
  ((data.drop range.1).take range.2,
    errorBlock (Hardcode.getPolynomial v).tail ((data.drop range.1).take range.2))

theorem IsSymbol.block {data : Bytes} {symbol : Grid} (is : IsSymbol v data symbol) {i : Nat}
    {range : Nat × Nat} (listed : (blockRanges v)[i]? = some range) :
    (readBlocks (number v) 0 symbol)[i]? = some (codeBlock v data range) := by
  rw [is.blocks]
  apply List.getElem?_zip_eq_some.mpr
  simp only [errorBlocks, dataBlocks, blocksOf, List.getElem?_map, listed]
  exact ⟨rfl, rfl⟩

theorem codeBlock_unique {data₁ data₂ : Bytes} {range : Nat × Nat} {damaged : Bytes × Bytes}
    (listed : range ∈ blockRanges v) (enough₁ : Hardcode.dataCodewords v ≤ data₁.length)
    (enough₂ : Hardcode.dataCodewords v ≤ data₂.length)
    (size : damaged.1.length = range.2) (errors : damaged.2.length = errorLength v)
    (near₁ : 2 * ReedSolomon.distance ((codeBlock v data₁ range).1 ++ (codeBlock v data₁ range).2)
      (damaged.1 ++ damaged.2) ≤ errorLength v)
    (near₂ : 2 * ReedSolomon.distance ((codeBlock v data₂ range).1 ++ (codeBlock v data₂ range).2)
      (damaged.1 ++ damaged.2) ≤ errorLength v) :
    (codeBlock v data₁ range).1 = (codeBlock v data₂ range).1 := by
  obtain ⟨inside, small, -⟩ := blockRanges_inside v range listed
  have lengths : ∀ data : Bytes, Hardcode.dataCodewords v ≤ data.length →
      (codeBlock v data range).1.length = range.2 ∧ (codeBlock v data range).2.length = errorLength v := by
    intro data enough
    refine ⟨?_, by rw [codeBlock, length_errorBlock, length_tail_getPolynomial]⟩
    rw [codeBlock, List.length_take, List.length_drop]
    omega
  obtain ⟨first₁, second₁⟩ := lengths data₁ enough₁
  obtain ⟨first₂, second₂⟩ := lengths data₂ enough₂
  have letters : Function.Injective Gf256.mk := fun a b same => congrArg Gf256.bits same
  have word : ∀ data, IsBlock (number v) ((codeBlock v data range).1 ++ (codeBlock v data range).2) :=
    fun data => isBlock_errorBlock
  have whole : ((damaged.1 ++ damaged.2).map Gf256.mk).length = range.2 + errorLength v := by
    rw [List.length_map, List.length_append, size, errors]
  have powers : Set.InjOn (Gf256.exp 1 ^ ·)
      (Set.Iio ((damaged.1 ++ damaged.2).map Gf256.mk).length) := by
    simp only [← Gf256.exp_eq_pow]
    refine Gf256.exp_injOn.mono (Set.Iio_subset_Iio ?_)
    omega
  have same := ReedSolomon.unique_decoding (t := errorLength v / 2)
    (by rw [whole, List.length_map, List.length_append, first₁, second₁])
    (by rw [whole, List.length_map, List.length_append, first₂, second₂]) powers (word data₁) (word data₂)
    (by rw [errorCodewords_eq]; exact Nat.mul_div_le _ 2)
    (by rw [ReedSolomon.distance_map letters]; omega) (by rw [ReedSolomon.distance_map letters]; omega)
  exact (List.append_inj (List.map_injective_iff.mpr letters same) (first₁.trans first₂.symm)).1

theorem dataBlocks_unique {data₁ data₂ : Bytes} {symbol₁ symbol₂ photo : Grid}
    (is₁ : IsSymbol v data₁ symbol₁) (is₂ : IsSymbol v data₂ symbol₂)
    (enough₁ : Hardcode.dataCodewords v ≤ data₁.length) (enough₂ : Hardcode.dataCodewords v ≤ data₂.length)
    (near₁ : Near (number v) symbol₁ photo) (near₂ : Near (number v) symbol₂ photo) :
    dataBlocks v data₁ = dataBlocks v data₂ := by
  apply List.map_congr_left
  intro range listed
  obtain ⟨i, there⟩ := List.mem_iff_getElem?.mp listed
  obtain ⟨damaged, here, size, errors⟩ := @readBlocks_sizes v photo i range there
  have close₁ := near₁ i _ damaged (is₁.block there) here
  have close₂ := near₂ i _ damaged (is₂.block there) here
  rw [errorCodewords_eq] at close₁ close₂
  exact codeBlock_unique listed enough₁ enough₂ size errors close₁ close₂

end

theorem version_of_size {v : Version} {version : Nat} (size : v.size = side version) : version = number v := by
  rw [size_eq] at size
  unfold side at size
  omega

/-- A photo is near the symbol of at most one payload: whoever corrects it finds what was shown. -/
theorem near_unique {data₁ data₂ : Bytes} {m₁ m₂ : QrRender.QrMatrix} {version : Nat} {photo : Grid}
    (first : QrRender.encode data₁ = .ok (.ok m₁)) (second : QrRender.encode data₂ = .ok (.ok m₂))
    (size₁ : m₁.size = side version) (size₂ : m₂.size = side version)
    (near₁ : Near version (seen m₁) photo) (near₂ : Near version (seen m₂) photo) : data₁ = data₂ := by
  have fits : ∀ {data : Bytes} {m : QrRender.QrMatrix}, QrRender.encode data = .ok (.ok m) →
      data.length ≤ 2953 := by
    intro data m encoded
    by_contra long
    rw [encode_long (not_le.mp long)] at encoded
    cases encoded
  obtain ⟨m, v, codewords₁, encoded, size, -, is₁, enough₁, reads₁, -⟩ := encode_symbol (fits first)
  cases encoded.symm.trans first
  obtain ⟨m, u, codewords₂, encoded, size', -, is₂, enough₂, reads₂, -⟩ := encode_symbol (fits second)
  cases encoded.symm.trans second
  cases version_of_size (size.symm.trans size₁)
  have same : v = u := Fin.ext (Nat.succ.inj (version_of_size (size'.symm.trans size₂)))
  subst same
  have blocks := congrArg List.flatten (dataBlocks_unique is₁ is₂ enough₁ enough₂ near₁ near₂)
  rw [dataBlocks_flatten enough₁, dataBlocks_flatten enough₂] at blocks
  rw [blocks, reads₂] at reads₁
  exact (Option.some.inj reads₁).symm

theorem distance_toBytes_le {bits bits' : List Bool} (same : bits.length = bits'.length) (n : Nat) :
    ReedSolomon.distance (Bits.toBytes n bits) (Bits.toBytes n bits') ≤
      ReedSolomon.distance bits bits' := by
  refine ReedSolomon.distance_le_of_cover (· / 8) fun j small differ => ?_
  by_contra equal
  push Not at equal
  apply differ
  have bytes : (bits.drop (8 * j)).take 8 = (bits'.drop (8 * j)).take 8 := by
    apply List.ext_getElem?
    intro i
    rw [List.getElem?_take, List.getElem?_take, List.getElem?_drop, List.getElem?_drop]
    by_cases inside : i < 8
    · rw [if_pos inside, if_pos inside]
      by_contra unequal
      have place : 8 * j + i < bits.length := by
        by_contra beyond
        rw [List.getElem?_eq_none (by omega), List.getElem?_eq_none (by omega)] at unequal
        exact unequal rfl
      exact equal (8 * j + i) place unequal (by omega)
    · rw [if_neg inside, if_neg inside]
  rw [Bits.getElem?_toBytes, Bits.getElem?_toBytes, bytes]

theorem distance_dataBits_le {version : Nat} {symbol photo : Grid} (size : symbol.size = side version)
    (size' : photo.size = side version)
    (whole : symbol.modules.length = side version * side version) :
    ReedSolomon.distance (dataBits version 0 symbol) (dataBits version 0 photo) ≤
      ReedSolomon.distance symbol.modules photo.modules := by
  have distinct : ((dataPositions version).map fun p => p.1 * side version + p.2).Nodup := by
    refine List.Nodup.map_on (fun p first q second same => ?_) (nodup_dataPositions version)
    exact position_injective (dataPositions_inside first) (dataPositions_inside second) same
  refine ReedSolomon.distance_le_of_cover
    (((dataPositions version).map fun p => p.1 * side version + p.2).idxOf ·) fun j small differ => ?_
  rw [dataBits, List.length_map] at small
  have inside := dataPositions_inside (List.getElem_mem small)
  refine ⟨(dataPositions version)[j].1 * side version + (dataPositions version)[j].2, ?_,
    fun same => differ ?_, ?_⟩
  · rw [whole]
    calc (dataPositions version)[j].1 * side version + (dataPositions version)[j].2
        < ((dataPositions version)[j].1 + 1) * side version := by
          rw [Nat.succ_mul]
          exact Nat.add_lt_add_left inside.2 _
      _ ≤ side version * side version := Nat.mul_le_mul_right _ inside.1
  · simp only [dataBits, List.getElem?_map, List.getElem?_eq_getElem small, Option.map_some, Grid.colour,
      size, size', List.getD_eq_getElem?_getD, same]
  · have listed : j < ((dataPositions version).map fun p => p.1 * side version + p.2).length := by
      rwa [List.length_map]
    have found := distinct.idxOf_getElem j listed
    rwa [List.getElem_map] at found

theorem readBlocks_first (grid : Grid) : readBlocks 1 0 grid =
    [((Bits.toBytes 26 (dataBits 1 0 grid)).take 19, (Bits.toBytes 26 (dataBits 1 0 grid)).drop 19)] := by
  have codewords : totalCodewords 1 = 26 := by decide
  have sizes : blockSizes 1 = [19] := by decide
  have last : ((Bits.toBytes 26 (dataBits 1 0 grid)).drop 19).take 7 =
      (Bits.toBytes 26 (dataBits 1 0 grid)).drop 19 :=
    List.take_of_length_le (by rw [List.length_drop, Bits.length_toBytes])
  rw [readBlocks, codewords, dealBlocks, sizes]
  change List.zip (Interleave.deal 19 [19] _) (Interleave.deal 7 [7] _) = _
  rw [Interleave.deal_single, Interleave.deal_single]
  change [(_, ((Bits.toBytes 26 (dataBits 1 0 grid)).drop 19).take 7)] = _
  rw [last]

theorem near_of_modules {symbol photo : Grid} (size : symbol.size = side 1) (size' : photo.size = side 1)
    (whole : symbol.modules.length = side 1 * side 1)
    (few : ReedSolomon.distance symbol.modules photo.modules ≤ 3) : Near 1 symbol photo := by
  have bytes := @distance_toBytes_le (dataBits 1 0 symbol) (dataBits 1 0 photo)
    (by rw [dataBits, dataBits, List.length_map, List.length_map]) 26
  have modules := distance_dataBits_le size size' whole
  have errors : errorCodewords 1 = 7 := rfl
  intro i block damaged here there
  rw [readBlocks_first] at here there
  obtain rfl : i = 0 := by
    have inside := (List.getElem?_eq_some_iff.mp here).1
    simpa using inside
  cases here
  cases there
  rw [List.take_append_drop, List.take_append_drop, errors]
  omega

def scratched (symbol : Grid) : Grid :=
  { symbol with modules := ((symbol.modules.modify 440 not).modify 356 not).modify 272 not }

theorem scratched_near {symbol : Grid} (size : symbol.size = side 1)
    (whole : symbol.modules.length = side 1 * side 1) : Near 1 symbol (scratched symbol) := by
  refine near_of_modules size size whole ?_
  have first := ReedSolomon.distance_modify_le symbol.modules 440 not
  have second := ReedSolomon.distance_modify_le (symbol.modules.modify 440 not) 356 not
  have third := ReedSolomon.distance_modify_le ((symbol.modules.modify 440 not).modify 356 not) 272 not
  have both := @ReedSolomon.distance_triangle _ _ symbol.modules
    ((symbol.modules.modify 440 not).modify 356 not) (symbol.modules.modify 440 not) (by simp)
  have all := @ReedSolomon.distance_triangle _ _ symbol.modules
    (((symbol.modules.modify 440 not).modify 356 not).modify 272 not)
    ((symbol.modules.modify 440 not).modify 356 not) (by simp)
  unfold scratched
  dsimp only
  omega

theorem scratched_colour {symbol : Grid} (size : symbol.size = side 1)
    (whole : symbol.modules.length = side 1 * side 1) {y : Nat} (hit : y ∈ [20, 16, 12]) :
    (scratched symbol).colour (y, 20) = !symbol.colour (y, 20) := by
  have place : symbol.size = 21 := size
  have count : symbol.modules.length = 441 := whole
  simp only [List.mem_cons, List.not_mem_nil, or_false] at hit
  unfold scratched Grid.colour
  simp only [place, List.getD_eq_getElem?_getD, List.getElem?_modify]
  rcases hit with rfl | rfl | rfl <;> simp [count]

theorem near_unique_scratched : ∃ m, QrRender.encode [65] = .ok (.ok m) ∧ m.size = side 1 ∧
    (∀ i ∈ [0, 8, 16], (dataBits 1 0 (scratched (seen m)))[i]? ≠ (dataBits 1 0 (seen m))[i]?) ∧
    Near 1 (seen m) (scratched (seen m)) ∧
    ∀ data m', QrRender.encode data = .ok (.ok m') → m'.size = side 1 →
      Near 1 (seen m') (scratched (seen m)) → data = [65] := by
  obtain ⟨m, v, codewords, encoded, size, whole, -, -, -, -, minimal⟩ := @encode_symbol [65] (by simp)
  obtain rfl : v = 0 := by
    by_contra later
    exact absurd (minimal 0 (Fin.pos_of_ne_zero later)) (by decide)
  have size : m.size = side 1 := size
  rw [size] at whole
  have near : Near 1 (seen m) (scratched (seen m)) := scratched_near size whole
  refine ⟨m, encoded, size, ?_, near, fun data m' other same close => ?_⟩
  · have places : (dataPositions 1)[0]? = some (20, 20) ∧ (dataPositions 1)[8]? = some (16, 20) ∧
        (dataPositions 1)[16]? = some (12, 20) := by decide +kernel
    have differs : ∀ y ∈ [20, 16, 12],
        xor ((scratched (seen m)).colour (y, 20)) (masked 0 (y, 20)) ≠
          xor ((seen m).colour (y, 20)) (masked 0 (y, 20)) := by
      intro y hit
      rw [scratched_colour size whole hit]
      simp
    intro i listed
    simp only [List.mem_cons, List.not_mem_nil, or_false] at listed
    simp only [dataBits, List.getElem?_map]
    rcases listed with rfl | rfl | rfl
    · simpa only [places.1, Option.map_some, ne_eq, Option.some.injEq] using differs 20 (by simp)
    · simpa only [places.2.1, Option.map_some, ne_eq, Option.some.injEq] using differs 16 (by simp)
    · simpa only [places.2.2, Option.map_some, ne_eq, Option.some.injEq] using differs 12 (by simp)
  · exact near_unique other encoded same size close near

end AirFerry.Proof.Qr
