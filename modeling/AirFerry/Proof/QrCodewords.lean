import AirFerry.FastQr.Polynomials
import AirFerry.Library.Gf256
import AirFerry.Library.Interleave
import AirFerry.Library.ReedSolomon

/-!
# The codewords of a symbol

The division of the encoder is long division over the field with 256 elements, so every block is a
Reed–Solomon code word; the symbol interleaves the blocks.
-/

namespace AirFerry.Proof.Qr
open Library FastQr FastQr.Polynomials

def letters (bytes : Bytes) : List Gf256 := bytes.map Gf256.mk

theorem letters_append (front back : Bytes) : letters (front ++ back) = letters front ++ letters back :=
  List.map_append

theorem logTable_spec {k : Nat} (small : k < 255) : logTable[k]? = some (Gf256.exp k).bits := by
  have chain : ∀ k < 254, logTable[k + 1]? = logTable[k]?.map Gf256.doubleBits := by decide +kernel
  induction k with
  | zero => rfl
  | succ k ih => rw [chain k (by omega), ih (by omega), Gf256.exp_succ, Gf256.bits_double, Option.map_some]

theorem log_mod (k : Nat) : index logTable (k % 255) = .ok (Gf256.exp k).bits := by
  rw [index_of_getElem? (logTable_spec (Nat.mod_lt k (by norm_num))), Gf256.exp_mod]

theorem antilogTable_spec {x : U8} (nonzero : x ≠ 0) :
    ∃ power, index antilogTable x.toNat = .ok power ∧ Gf256.exp power.toNat = ⟨x⟩ := by
  have table : ∀ n < 256, n ≠ 0 → (antilogTable[n]?.bind fun power => logTable[power.toNat % 255]?) =
      some (BitVec.ofNat 8 n) := by decide +kernel
  have entry := table x.toNat x.isLt fun zero => nonzero (BitVec.eq_of_toNat_eq zero)
  rw [BitVec.ofNat_toNat, BitVec.setWidth_eq] at entry
  obtain ⟨power, found, back⟩ := Option.bind_eq_some_iff.mp entry
  refine ⟨power, index_of_getElem? found, ?_⟩
  rw [logTable_spec (Nat.mod_lt _ (by norm_num)), Gf256.exp_mod] at back
  ext1
  exact Option.some.inj back

def powers (exponents : Bytes) : List Gf256 := exponents.map fun e => Gf256.exp e.toNat

theorem getElem?_letters_modify (bytes : Bytes) (k : Nat) (power : Gf256) (m : Nat) :
    (letters (bytes.modify k fun b => b ^^^ power.bits))[m]? =
      if m = k then (letters bytes)[m]?.map fun a => a - power else (letters bytes)[m]? := by
  unfold letters
  rw [List.getElem?_map, List.getElem?_modify, List.getElem?_map]
  by_cases here : m = k
  · rw [if_pos here]
    simp only [if_pos here.symm, Option.map_eq_map, Option.map_map]
    rfl
  · rw [if_neg here]
    simp only [if_neg (Ne.symm here), id_map']

theorem eliminate_loop {divisor dividend : Bytes} {i : Nat} (alpha : U8)
    (inside : i + divisor.length ≤ dividend.length) {n : Nat} (part : n ≤ divisor.length) :
    ∃ out, (List.range n).foldlM (fun dividend j => do
        let coefficient ← index divisor j
        let power ← index logTable ((coefficient.toNat + alpha.toNat) % 255)
        updateAt dividend (i + j) fun b => b ^^^ power) dividend = .ok out ∧
      out.length = dividend.length ∧
      ∀ m, (letters out)[m]? = if i ≤ m ∧ m < i + n then
          (letters dividend)[m]?.map fun a =>
            a - Gf256.exp alpha.toNat * (powers divisor)[m - i]?.getD 0
        else (letters dividend)[m]? := by
  induction n with
  | zero => exact ⟨dividend, rfl, rfl, fun m => by rw [if_neg (by omega)]⟩
  | succ n ih =>
      obtain ⟨before, loop, size, places⟩ := ih (by omega)
      obtain ⟨coefficient, which⟩ : ∃ coefficient, divisor[n]? = some coefficient :=
        ⟨_, List.getElem?_eq_getElem (by omega)⟩
      obtain ⟨power, value⟩ : ∃ power, power = Gf256.exp (coefficient.toNat + alpha.toNat) := ⟨_, rfl⟩
      refine ⟨before.modify (i + n) fun b => b ^^^ power.bits, ?_, by rw [List.length_modify, size],
        fun m => ?_⟩
      · rw [List.range_succ, List.foldlM_append, loop]
        simp only [bind, Except.bind, List.foldlM_cons, index_of_getElem? which, log_mod, ← value]
        rw [updateAt, if_pos (by omega)]
        rfl
      · rw [getElem?_letters_modify, places]
        have factor : (powers divisor)[n]?.getD 0 = Gf256.exp coefficient.toNat := by
          rw [powers, List.getElem?_map, which]
          rfl
        by_cases here : m = i + n
        · rw [if_pos here, if_neg (by omega), if_pos (by omega), here, Nat.add_sub_cancel_left, factor,
            Gf256.exp_mul_exp, Nat.add_comm alpha.toNat, ← value]
        · rw [if_neg here]
          by_cases earlier : i ≤ m ∧ m < i + n
          · rw [if_pos earlier, if_pos (by omega)]
          · rw [if_neg earlier, if_neg (by omega)]

theorem eliminate_spec {g dividend : Bytes} {i : Nat} {a : Gf256} {word : List Gf256}
    (shorter : g.length ≤ word.length)
    (shape : letters dividend = List.replicate i 0 ++ a :: word) :
    ∃ out, eliminate (0 :: g) dividend i = .ok out ∧
      letters out = List.replicate (i + 1) 0 ++ ReedSolomon.subtract a (powers g) word := by
  have lead : dividend[i]? = some a.bits := by
    have here := congrArg (fun word => word[i]?) shape
    simp only [letters, List.getElem?_map] at here
    rw [List.getElem?_append_right (by simp), List.length_replicate, Nat.sub_self,
      List.getElem?_cons_zero] at here
    obtain ⟨b, found, same⟩ := Option.map_eq_some_iff.mp here
    rw [found, ← same]
  have size : dividend.length = i + 1 + word.length := by
    have lengths := congrArg List.length shape
    simp only [letters, List.length_map, List.length_append, List.length_replicate,
      List.length_cons] at lengths
    omega
  have short : (powers g).length ≤ word.length := by rwa [powers, List.length_map]
  unfold eliminate
  simp only [index_of_getElem? lead, bind, Except.bind]
  by_cases zero : a.bits = 0
  · refine ⟨dividend, if_pos zero, ?_⟩
    have none : a = 0 := Gf256.ext zero
    rw [shape, none, List.replicate_succ', List.append_assoc, List.singleton_append]
    congr 2
    apply List.ext_getElem?
    intro m
    rw [ReedSolomon.getElem?_subtract 0 short]
    simp
  · obtain ⟨alpha, found, exponent⟩ := antilogTable_spec zero
    obtain ⟨out, loop, -, places⟩ := @eliminate_loop (0 :: g) dividend i alpha
      (by rw [List.length_cons]; omega) _ le_rfl
    refine ⟨out, ?_, ?_⟩
    · rw [if_neg zero]
      simp only [found]
      exact loop
    · apply List.ext_getElem?
      intro m
      have factor : Gf256.exp alpha.toNat = a := exponent
      rw [places, shape, factor]
      rcases Nat.lt_trichotomy m i with before | here | after
      · rw [if_neg (by omega), List.getElem?_append_left (by rwa [List.length_replicate]),
          List.getElem?_append_left (by rw [List.length_replicate]; omega),
          List.getElem?_replicate_of_lt before, List.getElem?_replicate_of_lt (by omega)]
      · rw [here, if_pos (by rw [List.length_cons]; omega),
          List.getElem?_append_right (by simp), List.getElem?_append_left (by simp),
          List.getElem?_replicate_of_lt (by omega), List.length_replicate]
        simp [powers, Gf256.exp]
      · obtain ⟨k, rfl⟩ : ∃ k, m = i + (k + 1) := ⟨m - i - 1, by omega⟩
        have offset : i + (k + 1) - (i + 1) = k := by omega
        rw [List.getElem?_append_right (by simp), List.getElem?_append_right (by simp),
          List.length_replicate, List.length_replicate, offset, Nat.add_sub_cancel_left,
          ReedSolomon.getElem?_subtract a short, List.getElem?_cons_succ]
        by_cases within : k < g.length
        · rw [if_pos (by rw [List.length_cons]; omega)]
          rfl
        · rw [if_neg (by rw [List.length_cons]; omega)]
          have none : (powers g)[k]? = none := List.getElem?_eq_none (by rw [powers, List.length_map]; omega)
          rw [none, Option.getD_none, mul_zero]
          simp

theorem eliminate_run {g : Bytes} {n i : Nat} {dividend : Bytes} {word : List Gf256}
    (enough : n + g.length ≤ word.length) (shape : letters dividend = List.replicate i 0 ++ word) :
    ∃ out, (List.range' i n).foldlM (eliminate (0 :: g)) dividend = .ok out ∧
      letters out = List.replicate (i + n) 0 ++ ReedSolomon.remainder (powers g) n word := by
  induction n generalizing i dividend word with
  | zero => exact ⟨dividend, rfl, shape⟩
  | succ n ih =>
      cases word with
      | nil => simp at enough
      | cons a word =>
          rw [List.length_cons] at enough
          obtain ⟨next, step, left⟩ := @eliminate_spec g dividend i a word (by omega) shape
          obtain ⟨out, run, result⟩ := ih
            (by rw [ReedSolomon.length_subtract]; omega) left
          refine ⟨out, ?_, ?_⟩
          · rw [List.range'_succ, List.foldlM_cons, step]
            exact run
          · rw [result, ReedSolomon.remainder, Nat.add_assoc, Nat.add_comm 1 n]

theorem letters_replicate_zero (n : Nat) : letters (List.replicate n 0) = List.replicate n 0 :=
  List.map_replicate

theorem division_spec {g message : Bytes} (small : message.length + g.length + 1 ≤ 256) :
    ∃ out, division message (0 :: g) = .ok out ∧
      letters out = List.replicate (255 - g.length) 0 ++
        ReedSolomon.remainder (powers g) message.length
          (letters message ++ List.replicate (powers g).length 0) := by
  obtain ⟨out, run, result⟩ := @eliminate_run g message.length
    (256 - message.length - (0 :: g).length)
    (List.replicate (256 - message.length - (0 :: g).length) 0 ++ message ++
      List.replicate ((0 :: g).length - 1) 0)
    (letters message ++ List.replicate (powers g).length 0) (by simp [letters, powers])
    (by simp only [letters_append, letters_replicate_zero, powers, List.length_map,
      List.length_cons, Nat.add_sub_cancel, List.append_assoc])
  refine ⟨out, ?_, ?_⟩
  · rw [division, if_neg (by rw [List.length_cons]; omega), if_neg (by simp)]
    exact run
  · rw [result]
    congr 2
    rw [List.length_cons]
    omega

def evalTable (k : Nat) : Bytes → U8
  | [] => 0
  | e :: exponents =>
      logTable[(e.toNat + k * exponents.length) % 255]?.getD 0 ^^^ evalTable k exponents

theorem eval_powers (k : Nat) (exponents : Bytes) :
    (ReedSolomon.eval (Gf256.exp 1 ^ k) (powers exponents)).bits = evalTable k exponents := by
  induction exponents with
  | nil => rfl
  | cons e exponents ih =>
      have term : Gf256.exp e.toNat * (Gf256.exp 1 ^ k) ^ (powers exponents).length =
          Gf256.exp ((e.toNat + k * exponents.length) % 255) := by
        rw [← pow_mul, ← Gf256.exp_eq_pow, Gf256.exp_mul_exp, Gf256.exp_mod, powers, List.length_map]
      rw [powers, List.map_cons, ReedSolomon.eval, Gf256.bits_add, ← powers, ih, term, evalTable,
        logTable_spec (Nat.mod_lt _ (by norm_num)), Option.getD_some]

def generators : List Bytes :=
  [Hardcode.generator7, Hardcode.generator10, Hardcode.generator15, Hardcode.generator18,
    Hardcode.generator20, Hardcode.generator22, Hardcode.generator24, Hardcode.generator26,
    Hardcode.generator28, Hardcode.generator30]

theorem getPolynomial_mem (v : Version) : Hardcode.getPolynomial v ∈ generators := by
  revert v
  decide

theorem generators_roots : ∀ generator ∈ generators, generator.head? = some 0 ∧
    ∀ k < generator.length - 1, evalTable k generator = 0 := by
  decide +kernel

def errorLength (v : Version) : Nat := (Hardcode.getPolynomial v).length - 1

theorem getPolynomial_eq (v : Version) :
    ∃ g, Hardcode.getPolynomial v = 0 :: g ∧ g.length = errorLength v ∧
      ∀ k < g.length, ReedSolomon.eval (Gf256.exp 1 ^ k) (1 :: powers g) = 0 := by
  obtain ⟨first, roots⟩ := generators_roots _ (getPolynomial_mem v)
  obtain ⟨g, shape⟩ := List.head?_eq_some_iff.mp first
  refine ⟨g, shape, by rw [errorLength, shape, List.length_cons, Nat.add_sub_cancel], fun k small => ?_⟩
  have zero := roots k (by rw [shape, List.length_cons, Nat.add_sub_cancel]; exact small)
  rw [← eval_powers, shape] at zero
  exact Gf256.ext zero

end AirFerry.Proof.Qr
