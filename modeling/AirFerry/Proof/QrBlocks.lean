import AirFerry.Proof.QrCodewords

namespace AirFerry.Proof.Qr
open Library FastQr FastQr.Polynomials

theorem column_eq {total j j' c c' : Nat} (small : c < total) (small' : c' < total)
    (same : j * total + c = j' * total + c') : j = j' ∧ c = c' := by
  have quotient (j c : Nat) (small : c < total) : (j * total + c) / total = j := by
    rw [Nat.add_comm, Nat.add_mul_div_right _ _ (by omega), Nat.div_eq_of_lt small, Nat.zero_add]
  have first : j = j' := by rw [← quotient j c small, same, quotient j' c' small']
  refine ⟨first, ?_⟩
  rw [first] at same
  omega

def errorBlock (g block : Bytes) : Bytes :=
  (ReedSolomon.remainder (powers g) block.length
    (letters block ++ List.replicate (powers g).length 0)).map Gf256.bits

theorem length_errorBlock (g block : Bytes) : (errorBlock g block).length = g.length := by
  rw [errorBlock, List.length_map, ReedSolomon.length_remainder]
  simp [letters, powers]

theorem division_index {g message : Bytes} (small : message.length + g.length + 1 ≤ 256) :
    ∃ out, division message (0 :: g) = .ok out ∧
      ∀ j < g.length, ∃ b, (errorBlock g message)[j]? = some b ∧ index out (255 - g.length + j) = .ok b := by
  obtain ⟨out, divided, shape⟩ := division_spec small
  refine ⟨out, divided, fun j inside => ?_⟩
  obtain ⟨b, present⟩ : ∃ b, (errorBlock g message)[j]? = some b :=
    ⟨_, List.getElem?_eq_getElem (by rwa [length_errorBlock])⟩
  refine ⟨b, present, index_of_getElem? ?_⟩
  have place := congrArg (fun word => word[255 - g.length + j]?) shape
  simp only [letters, List.getElem?_map] at place
  rw [List.getElem?_append_right (by simp), List.length_replicate, Nat.add_sub_cancel_left] at place
  rw [errorBlock, List.getElem?_map, letters, ← place, Option.map_map] at present
  rw [← present]
  exact Option.map_id'.symm

section
variable {data g out : Bytes} {start total : Nat}

theorem writeBlock_spec {first size column : Nat} (inside : first + size ≤ data.length)
    (small : size + g.length + 1 ≤ 256) (within : column < total)
    (room : start + g.length * total ≤ out.length) :
    ∃ out', writeBlock data (0 :: g) start total first size column out = .ok out' ∧
      out'.length = out.length ∧
      (∀ j < g.length, out'[start + j * total + column]? =
        (errorBlock g ((data.drop first).take size))[j]?) ∧
      ∀ p, (∀ j < g.length, p ≠ start + j * total + column) → out'[p]? = out[p]? := by
  have length : ((data.drop first).take size).length = size := by
    rw [List.length_take, List.length_drop]
    omega
  obtain ⟨quotient, divided, values⟩ := @division_index g ((data.drop first).take size)
    (by rw [length]; exact small)
  have loop : ∀ n ≤ g.length, ∃ out', (List.range n).foldlM (fun out j => do
        let b ← index quotient (256 - (0 :: g).length + j)
        updateAt out (start + j * total + column) fun _ => b) out = .ok out' ∧
      out'.length = out.length ∧
      (∀ j < n, out'[start + j * total + column]? =
        (errorBlock g ((data.drop first).take size))[j]?) ∧
      ∀ p, (∀ j < n, p ≠ start + j * total + column) → out'[p]? = out[p]? := by
    intro n
    induction n with
    | zero => exact fun _ => ⟨out, rfl, rfl, fun j none => absurd none (Nat.not_lt_zero j), fun _ _ => rfl⟩
    | succ n ih =>
        intro part
        obtain ⟨before, loop, size, written, kept⟩ := ih (by omega)
        obtain ⟨b, found, value⟩ := values n part
        have position : start + n * total + column < before.length := by
          have bound : n * total + total ≤ g.length * total := by
            rw [← Nat.succ_mul]
            exact Nat.mul_le_mul_right total part
          omega
        refine ⟨before.modify (start + n * total + column) fun _ => b, ?_,
          by rw [List.length_modify, size], fun j small => ?_, fun p other => ?_⟩
        · rw [List.range_succ, List.foldlM_append, loop]
          have offset : 256 - (0 :: g).length + n = 255 - g.length + n := by
            rw [List.length_cons]
            omega
          simp only [bind, Except.bind, List.foldlM_cons, offset, value]
          rw [updateAt, if_pos position]
          rfl
        · rw [List.getElem?_modify]
          by_cases last : j = n
          · rw [last, found, List.getElem?_eq_getElem position]
            simp
          · have apart : start + n * total + column ≠ start + j * total + column := by
              intro same
              exact last (column_eq within within (by omega)).1.symm
            simp only [if_neg apart, id_map']
            exact written j (by omega)
        · rw [List.getElem?_modify]
          simp only [if_neg (other n (by omega)).symm, id_map']
          exact kept p fun j small => other j (by omega)
  obtain ⟨out', written, result⟩ := loop g.length le_rfl
  refine ⟨out', ?_, result⟩
  rw [writeBlock, slice_of_le inside]
  simp only [bind, Except.bind, divided]
  exact written

theorem writeBlocks_spec {blocks : List (Nat × Nat)} {column : Nat}
    (inside : ∀ block ∈ blocks, block.1 + block.2 ≤ data.length ∧ block.2 + g.length + 1 ≤ 256)
    (within : column + blocks.length ≤ total) (room : start + g.length * total ≤ out.length) :
    ∃ out', (blocks.zipIdx column).foldlM (fun out block =>
        writeBlock data (0 :: g) start total block.1.1 block.1.2 block.2 out) out = .ok out' ∧
      out'.length = out.length ∧
      (∀ i block, blocks[i]? = some block → ∀ j < g.length,
        out'[start + j * total + (column + i)]? =
          (errorBlock g ((data.drop block.1).take block.2))[j]?) ∧
      ∀ p, (∀ i < blocks.length, ∀ j < g.length, p ≠ start + j * total + (column + i)) →
        out'[p]? = out[p]? := by
  induction blocks generalizing column out with
  | nil =>
      refine ⟨out, rfl, rfl, fun i block none => ?_, fun _ _ => rfl⟩
      rw [List.getElem?_nil] at none
      cases none
  | cons block blocks ih =>
      simp only [List.forall_mem_cons, List.length_cons] at inside within
      obtain ⟨next, step, size, written, kept⟩ := @writeBlock_spec data g out start total block.1
        block.2 column inside.1.1 inside.1.2 (by omega) room
      obtain ⟨out', run, length, others, rest⟩ := @ih next (column + 1) inside.2 (by omega)
        (by rw [size]; exact room)
      refine ⟨out', ?_, length.trans size, fun i b listed j small => ?_, fun p other => ?_⟩
      · rw [List.zipIdx_cons, List.foldlM_cons]
        simp only [step]
        exact run
      · cases i with
        | zero =>
            cases listed
            rw [Nat.add_zero, rest _ fun i inside j' small' same => ?_, written j small]
            have apart := column_eq (show column < total by omega) (show column + 1 + i < total by omega)
              (show j * total + column = j' * total + (column + 1 + i) by omega)
            omega
        | succ i =>
            rw [← others i b (by rwa [List.getElem?_cons_succ] at listed) j small, Nat.add_assoc column,
              Nat.add_comm 1 i]
      · rw [rest p fun i inside j small => ?_, kept p fun j small => ?_]
        · exact other 0 (by simp) j small
        · have apart := other (i + 1) (by rw [List.length_cons]; omega) j small
          rwa [Nat.add_comm i 1, ← Nat.add_assoc column] at apart

theorem writeData_spec {order : List Nat} {next : Nat} (inside : ∀ i ∈ order, i < data.length)
    (room : next + order.length ≤ out.length) :
    ∃ out', (order.zipIdx next).foldlM (pushData data) out = .ok out' ∧
      out'.length = out.length ∧
      (∀ k i, order[k]? = some i → out'[next + k]? = data[i]?) ∧
      ∀ p, (p < next ∨ next + order.length ≤ p) → out'[p]? = out[p]? := by
  induction order generalizing next out with
  | nil =>
      refine ⟨out, rfl, rfl, fun k i none => ?_, fun _ _ => rfl⟩
      rw [List.getElem?_nil] at none
      cases none
  | cons i order ih =>
      simp only [List.forall_mem_cons, List.length_cons] at inside room
      have position : next < out.length := by omega
      obtain ⟨out', run, length, values, kept⟩ := @ih (out.modify next fun _ => data.get ⟨i, inside.1⟩)
        (next + 1) inside.2 (by rw [List.length_modify]; omega)
      refine ⟨out', ?_, by rw [length, List.length_modify], fun k j listed => ?_, fun p other => ?_⟩
      · rw [List.zipIdx_cons, List.foldlM_cons, pushData, index_of_lt inside.1]
        simp only [bind, Except.bind]
        rw [updateAt, if_pos position]
        exact run
      · cases k with
        | zero =>
            cases listed
            rw [Nat.add_zero, kept next (.inl (by omega)), List.getElem?_modify,
              List.getElem?_eq_getElem position, List.getElem?_eq_getElem inside.1]
            simp
        | succ k =>
            rw [← values k j (by rwa [List.getElem?_cons_succ] at listed), Nat.add_assoc,
              Nat.add_comm 1 k]
      · rw [List.length_cons] at other
        rw [kept p (by omega), List.getElem?_modify]
        simp only [if_neg (show next ≠ p by omega), id_map']

end

def groupRanges (first count size : Nat) : List (Nat × Nat) :=
  (List.range count).map fun i => (first + i * size, size)

def blockRanges (v : Version) : List (Nat × Nat) :=
  groupRanges 0 (Hardcode.eccToGroups v).1.1 (Hardcode.eccToGroups v).1.2 ++
    groupRanges ((Hardcode.eccToGroups v).1.2 * (Hardcode.eccToGroups v).1.1)
      (Hardcode.eccToGroups v).2.1 (Hardcode.eccToGroups v).2.2

def rounds (v : Version) : Nat := max (Hardcode.eccToGroups v).1.2 (Hardcode.eccToGroups v).2.2

def blocksOf (ranges : List (Nat × Nat)) (data : Bytes) : List Bytes :=
  ranges.map fun block => (data.drop block.1).take block.2

def dataBlocks (v : Version) (data : Bytes) : List Bytes := blocksOf (blockRanges v) data

def errorBlocks (v : Version) (data : Bytes) : List Bytes :=
  (dataBlocks v data).map (errorBlock (Hardcode.getPolynomial v).tail)

theorem blockRanges_inside (v : Version) : ∀ block ∈ blockRanges v,
    block.1 + block.2 ≤ Hardcode.dataCodewords v ∧ block.2 + errorLength v + 1 ≤ 256 ∧
      block.2 ≤ rounds v := by
  revert v
  decide +kernel

theorem blockLayout (v : Version) :
    ((blockRanges v).map Prod.snd).sum = Hardcode.dataCodewords v ∧
      Hardcode.dataCodewords v + errorLength v * (blockRanges v).length = v.maxBytes ∧
      v.maxBytes ≤ 3706 ∧ 0 < (blockRanges v).length ∧ 0 < errorLength v := by
  revert v
  decide +kernel

theorem length_blockRanges (v : Version) : (blockRanges v).length =
    (Hardcode.eccToGroups v).1.1 + (Hardcode.eccToGroups v).2.1 := by
  simp [blockRanges, groupRanges]

theorem groups_sum (v : Version) : (Hardcode.eccToGroups v).1.2 * (Hardcode.eccToGroups v).1.1 +
    (Hardcode.eccToGroups v).2.1 * (Hardcode.eccToGroups v).2.2 = Hardcode.dataCodewords v := by
  revert v
  decide

theorem blocksOf_append (front back : List (Nat × Nat)) (data : Bytes) :
    blocksOf (front ++ back) data = blocksOf front data ++ blocksOf back data := List.map_append

section
variable {data : Bytes}

theorem map_some_filterMap {α β : Type} {f : α → Option β} {xs : List α}
    (present : ∀ x ∈ xs, ∃ y, f x = some y) : (xs.filterMap f).map some = xs.map f := by
  induction xs with
  | nil => rfl
  | cons x xs ih =>
      simp only [List.forall_mem_cons] at present
      obtain ⟨⟨y, value⟩, others⟩ := present
      rw [List.filterMap_cons_some value, List.map_cons, ih others, List.map_cons, value]

theorem groupRanges_round {first count size : Nat} (inside : first + count * size ≤ data.length)
    (i : Nat) :
    ((blocksOf (groupRanges first count size) data).filterMap (·[i]?)).map some =
      (if i < size then (List.range count).map fun j => first + j * size + i else []).map (data[·]?) := by
  have letter (j : Nat) : ((data.drop (first + j * size)).take size)[i]? =
      if i < size then data[first + j * size + i]? else none := by
    rw [List.getElem?_take, List.getElem?_drop]
  unfold blocksOf groupRanges
  rw [List.map_map, List.filterMap_map]
  by_cases within : i < size
  · rw [if_pos within, List.map_map, map_some_filterMap]
    · apply List.map_congr_left
      intro j _
      exact (letter j).trans (if_pos within)
    · intro j member
      have bound : j * size + size ≤ count * size := by
        rw [← Nat.succ_mul]
        exact Nat.mul_le_mul_right size (List.mem_range.mp member)
      exact ⟨_, ((letter j).trans (if_pos within)).trans (List.getElem?_eq_getElem (by omega))⟩
  · rw [if_neg within, List.map_nil, List.map_eq_nil_iff]
    apply List.filterMap_eq_nil_iff.mpr
    intro j _
    exact (letter j).trans (if_neg within)

theorem dataOrder_interleave {v : Version} (enough : Hardcode.dataCodewords v ≤ data.length) :
    (dataOrder (Hardcode.eccToGroups v).1.1 (Hardcode.eccToGroups v).1.2
        (Hardcode.eccToGroups v).2.1 (Hardcode.eccToGroups v).2.2).map (data[·]?) =
      (Interleave.interleave (rounds v) (dataBlocks v data)).map some := by
  have sizes := groups_sum v
  rw [Interleave.interleave_eq_flatMap, dataOrder, rounds, List.map_flatMap, List.map_flatMap]
  congr 1
  funext i
  rw [dataBlocks, blockRanges, blocksOf_append, List.filterMap_append, List.map_append,
    List.map_append, groupRanges_round (by rw [Nat.mul_comm]; omega), groupRanges_round (by omega)]
  congr 1
  · simp only [Nat.zero_add]
  · by_cases within : i < (Hardcode.eccToGroups v).2.2
    · rw [if_pos within, if_pos within]
      congr 2
      funext j
      omega
    · rw [if_neg within, if_neg within]

theorem length_dataBlocks {v : Version} (enough : Hardcode.dataCodewords v ≤ data.length) :
    (dataBlocks v data).map List.length = (blockRanges v).map Prod.snd := by
  rw [dataBlocks, blocksOf, List.map_map]
  apply List.map_congr_left
  intro block member
  have inside := (blockRanges_inside v block member).1
  simp only [Function.comp, List.length_take, List.length_drop]
  omega

theorem dataBlocks_short (v : Version) (data : Bytes) :
    ∀ block ∈ dataBlocks v data, block.length ≤ rounds v := by
  intro block member
  obtain ⟨range, listed, rfl⟩ := List.mem_map.mp member
  exact (List.length_take_le _ _).trans (blockRanges_inside v range listed).2.2

theorem length_interleave_dataBlocks {v : Version} (enough : Hardcode.dataCodewords v ≤ data.length) :
    (Interleave.interleave (rounds v) (dataBlocks v data)).length = Hardcode.dataCodewords v := by
  rw [Interleave.length_interleave (dataBlocks_short v data), length_dataBlocks enough, (blockLayout v).1]

theorem length_tail_getPolynomial (v : Version) :
    (Hardcode.getPolynomial v).tail.length = errorLength v := List.length_tail

theorem errorBlocks_length (v : Version) (data : Bytes) :
    ∀ block ∈ errorBlocks v data, block.length = errorLength v := by
  intro block member
  obtain ⟨message, -, rfl⟩ := List.mem_map.mp member
  rw [length_errorBlock, length_tail_getPolynomial]

theorem length_interleave_errorBlocks (v : Version) (data : Bytes) :
    (Interleave.interleave (errorLength v) (errorBlocks v data)).length =
      errorLength v * (blockRanges v).length := by
  have constant : (errorBlocks v data).map List.length =
      List.replicate (blockRanges v).length (errorLength v) := by
    rw [List.eq_replicate_iff]
    constructor
    · simp [errorBlocks, dataBlocks, blocksOf]
    · intro n member
      obtain ⟨block, listed, rfl⟩ := List.mem_map.mp member
      exact errorBlocks_length v data block listed
  rw [Interleave.length_interleave fun block member => (errorBlocks_length v data block member).le,
    constant, List.sum_replicate, smul_eq_mul, Nat.mul_comm]

theorem getElem?_interleave_errorBlocks {v : Version} {data : Bytes} {i j : Nat} {range : Nat × Nat}
    (listed : (blockRanges v)[i]? = some range) (small : j < errorLength v) :
    (Interleave.interleave (errorLength v) (errorBlocks v data))[j * (blockRanges v).length + i]? =
      (errorBlock (Hardcode.getPolynomial v).tail ((data.drop range.1).take range.2))[j]? := by
  have within : i < (blockRanges v).length := (List.getElem?_eq_some_iff.mp listed).1
  have present (k : Nat) (small : k < errorLength v) : ∀ block ∈ errorBlocks v data,
      ∃ b, block[k]? = some b := by
    intro block member
    exact ⟨_, List.getElem?_eq_getElem (by rwa [errorBlocks_length v data block member])⟩
  have width : ∀ k < errorLength v,
      ((errorBlocks v data).filterMap (·[k]?)).length = (blockRanges v).length := by
    intro k small
    rw [← @List.length_map _ _ _ some, map_some_filterMap (present k small)]
    simp [errorBlocks, dataBlocks, blocksOf]
  rw [Interleave.interleave_eq_flatMap, Interleave.getElem?_flatMap_range width small within]
  apply Option.map_injective (Option.some_injective U8)
  rw [← List.getElem?_map, map_some_filterMap (present j small), errorBlocks, dataBlocks, blocksOf,
    List.getElem?_map, List.getElem?_map, List.getElem?_map, listed]
  simp only [Option.map_some]
  rw [List.getElem?_eq_getElem (by rw [length_errorBlock, length_tail_getPolynomial]; exact small)]
  rfl

theorem zipIdx_map_range {α : Type} (f : Nat → α) (count first : Nat) :
    ((List.range count).map f).zipIdx first = (List.range count).map fun i => (f i, i + first) := by
  apply List.ext_getElem?
  intro k
  rw [List.getElem?_zipIdx, List.getElem?_map, List.getElem?_map, Option.map_map]
  by_cases inside : k < count
  · rw [List.getElem?_range inside]
    simp [Nat.add_comm]
  · rw [List.getElem?_eq_none (by simpa using inside)]
    rfl

theorem structured_spec {v : Version} (enough : Hardcode.dataCodewords v ≤ data.length) :
    ∃ out, structured data v = .ok out ∧ out.length = 5430 ∧
      out.take v.maxBytes = Interleave.interleave (rounds v) (dataBlocks v data) ++
        Interleave.interleave (errorLength v) (errorBlocks v data) := by
  obtain ⟨g, shape, size, -⟩ := getPolynomial_eq v
  obtain ⟨-, whole, fits, positive, -⟩ := blockLayout v
  have columns := length_blockRanges v
  obtain ⟨checked, errors, length₁, written, untouched⟩ := @writeBlocks_spec data g
    (List.replicate 5430 0) (Hardcode.dataCodewords v) (blockRanges v).length (blockRanges v) 0
    (fun block member => by
      obtain ⟨inside, small, -⟩ := blockRanges_inside v block member
      rw [size]
      exact ⟨inside.trans enough, small⟩)
    (by rw [Nat.zero_add]) (by rw [size, List.length_replicate]; omega)
  obtain ⟨order, ordered⟩ : ∃ order, order = dataOrder (Hardcode.eccToGroups v).1.1
      (Hardcode.eccToGroups v).1.2 (Hardcode.eccToGroups v).2.1 (Hardcode.eccToGroups v).2.2 := ⟨_, rfl⟩
  have data_order := dataOrder_interleave enough
  rw [← ordered] at data_order
  have count : order.length = Hardcode.dataCodewords v := by
    rw [← length_interleave_dataBlocks enough, ← @List.length_map _ _ order (data[·]?), data_order,
      List.length_map]
  have inside : ∀ i ∈ order, i < data.length := by
    intro i member
    have value : data[i]? ∈ order.map (data[·]?) := List.mem_map_of_mem member
    rw [data_order] at value
    obtain ⟨b, -, same⟩ := List.mem_map.mp value
    exact (List.getElem?_eq_some_iff.mp same.symm).1
  rw [List.length_replicate] at length₁
  obtain ⟨out, copied, length₂, values, kept⟩ := @writeData_spec data checked order 0 inside
    (by rw [length₁, count]; omega)
  refine ⟨out, ?_, length₂.trans length₁, ?_⟩
  · rw [columns, blockRanges, List.zipIdx_append, List.foldlM_append] at errors
    unfold groupRanges at errors
    rw [zipIdx_map_range, List.length_map, List.length_range, Nat.zero_add, zipIdx_map_range,
      List.foldlM_map] at errors
    simp only [List.foldlM_map, Nat.zero_add, Nat.add_zero] at errors
    simp only [structured, shape, ← ordered]
    rw [← bind_assoc, errors]
    exact copied
  · apply List.ext_getElem?
    intro p
    rw [List.getElem?_take]
    by_cases first : p < Hardcode.dataCodewords v
    · rw [if_pos (by omega), List.getElem?_append_left (by rwa [length_interleave_dataBlocks enough])]
      obtain ⟨i, listed⟩ : ∃ i, order[p]? = some i := ⟨_, List.getElem?_eq_getElem (by rwa [count])⟩
      have value := congrArg (fun letters => letters[p]?) data_order
      simp only [List.getElem?_map, listed, Option.map_some] at value
      have here := values p i listed
      rw [Nat.zero_add] at here
      rw [here]
      cases found : (Interleave.interleave (rounds v) (dataBlocks v data))[p]? with
      | none =>
          rw [found] at value
          cases value
      | some b =>
          rw [found, Option.map_some] at value
          exact Option.some.inj value
    · rw [List.getElem?_append_right (by rw [length_interleave_dataBlocks enough]; omega),
        length_interleave_dataBlocks enough]
      by_cases second : p < v.maxBytes
      · obtain ⟨offset, from_start⟩ : ∃ offset, offset = p - Hardcode.dataCodewords v := ⟨_, rfl⟩
        have row : offset / (blockRanges v).length < errorLength v := by
          rw [Nat.div_lt_iff_lt_mul positive]
          omega
        have column := Nat.mod_lt offset positive
        have split := Nat.div_add_mod' offset (blockRanges v).length
        obtain ⟨range, listed⟩ : ∃ range,
            (blockRanges v)[offset % (blockRanges v).length]? = some range :=
          ⟨_, List.getElem?_eq_getElem column⟩
        have value := written _ range listed (offset / (blockRanges v).length) (by rwa [size])
        have place : Hardcode.dataCodewords v + offset / (blockRanges v).length * (blockRanges v).length +
            (0 + offset % (blockRanges v).length) = p := by omega
        rw [place] at value
        have there := @getElem?_interleave_errorBlocks v data _ _ _ listed row
        rw [split, shape, List.tail_cons] at there
        rw [if_pos second, kept p (.inr (by omega)), value, ← from_start, there]
      · rw [if_neg second, List.getElem?_eq_none (by rw [length_interleave_errorBlocks]; omega)]

end

end AirFerry.Proof.Qr
