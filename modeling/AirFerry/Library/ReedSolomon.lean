import Mathlib.LinearAlgebra.Vandermonde
import Mathlib.Tactic

/-!
# Reed–Solomon codes

Words over a commutative ring, as polynomials with the leading coefficient first. A code word
vanishes at consecutive powers of one element. Systematic encoding appends the negated remainder
of a long division; over a domain, two code words differ in more letters than they have roots.
-/

namespace AirFerry.Library.ReedSolomon

section
variable {α : Type*} [DecidableEq α]

def distance (u v : List α) : Nat := ((Finset.range u.length).filter fun i => u[i]? ≠ v[i]?).card

theorem distance_triangle {u v w : List α} (same : u.length = w.length) :
    distance u v ≤ distance u w + distance w v := by
  unfold distance
  rw [same, ← Finset.card_union_add_card_inter]
  refine le_trans (Finset.card_le_card ?_) (Nat.le_add_right _ _)
  intro i member
  simp only [Finset.mem_union, Finset.mem_filter] at member ⊢
  by_cases first : u[i]? = w[i]?
  · exact .inr ⟨member.1, first ▸ member.2⟩
  · exact .inl ⟨member.1, first⟩

theorem distance_comm {u v : List α} (same : u.length = v.length) : distance u v = distance v u := by
  unfold distance
  rw [same]
  congr 1
  apply Finset.filter_congr
  intro i _
  exact ne_comm

theorem distance_le_of_cover {β : Type*} [DecidableEq β] {u v : List α} {u' v' : List β} (g : Nat → Nat)
    (cover : ∀ j < u'.length, u'[j]? ≠ v'[j]? → ∃ i < u.length, u[i]? ≠ v[i]? ∧ g i = j) :
    distance u' v' ≤ distance u v := by
  refine (Finset.card_le_card fun j member => ?_).trans (@Finset.card_image_le _ _ _ g _)
  obtain ⟨inside, differ⟩ := Finset.mem_filter.mp member
  obtain ⟨i, small, unequal, rfl⟩ := cover j (Finset.mem_range.mp inside) differ
  exact Finset.mem_image_of_mem g (Finset.mem_filter.mpr ⟨Finset.mem_range.mpr small, unequal⟩)

theorem distance_modify_le (u : List α) (k : Nat) (f : α → α) : distance u (u.modify k f) ≤ 1 := by
  rw [← Finset.card_singleton k]
  refine Finset.card_le_card fun i member => ?_
  by_contra other
  apply (Finset.mem_filter.mp member).2
  have apart : k ≠ i := fun same => other (Finset.mem_singleton.mpr same.symm)
  simp only [List.getElem?_modify, if_neg apart]
  exact (id_map _).symm

theorem distance_map {β : Type*} [DecidableEq β] {f : α → β} (injective : Function.Injective f)
    (u v : List α) : distance (u.map f) (v.map f) = distance u v := by
  unfold distance
  rw [List.length_map]
  congr 1
  apply Finset.filter_congr
  intro i _
  rw [List.getElem?_map, List.getElem?_map, (Option.map_injective injective).ne_iff]

end

variable {R : Type*} [CommRing R]

def eval (x : R) : List R → R
  | [] => 0
  | a :: word => a * x ^ word.length + eval x word

def subtract (q : R) : List R → List R → List R
  | [], word => word
  | _ :: _, [] => []
  | g :: gs, a :: word => (a - q * g) :: subtract q gs word

/-- Long division by `x^d + g`, for `n` steps. Each step removes the leading letter. -/
def remainder (g : List R) : Nat → List R → List R
  | 0, word => word
  | _+1, [] => []
  | n+1, a :: word => remainder g n (subtract a g word)

def IsCodeword (a : R) (d : Nat) (word : List R) : Prop := ∀ k < d, eval (a ^ k) word = 0

def encode (g message : List R) : List R :=
  message ++ (remainder g message.length (message ++ List.replicate g.length 0)).map Neg.neg

theorem eval_append (x : R) (front back : List R) :
    eval x (front ++ back) = eval x front * x ^ back.length + eval x back := by
  induction front with
  | nil => simp [eval]
  | cons a front ih =>
      rw [List.cons_append, eval, eval, ih, List.length_append, pow_add]
      ring

theorem eval_replicate_zero (x : R) (n : Nat) : eval x (List.replicate n 0) = 0 := by
  induction n with
  | zero => rfl
  | succ n ih => rw [List.replicate_succ, eval, ih, zero_mul, zero_add]

theorem eval_map_neg (x : R) (word : List R) : eval x (word.map Neg.neg) = -eval x word := by
  induction word with
  | nil => simp [eval]
  | cons a word ih =>
      rw [List.map_cons, eval, eval, ih, List.length_map]
      ring

theorem eval_eq_sum (x : R) (word : List R) :
    eval x word = ∑ i ∈ Finset.range word.length, word[i]?.getD 0 * x ^ (word.length - 1 - i) := by
  induction word with
  | nil => rfl
  | cons a word ih =>
      rw [eval, ih, List.length_cons, Finset.sum_range_succ', add_comm]
      congr 1
      apply Finset.sum_congr rfl
      intro i _
      rw [List.getElem?_cons_succ, Nat.add_sub_cancel, Nat.sub_sub, Nat.add_comm 1 i]

@[simp] theorem length_subtract (q : R) (g word : List R) :
    (subtract q g word).length = word.length := by
  fun_induction subtract q g word with
  | case1 => rfl
  | case2 => rfl
  | case3 g gs a word ih => rw [List.length_cons, ih, List.length_cons]

theorem getElem?_subtract (q : R) {g word : List R} (shorter : g.length ≤ word.length) (i : Nat) :
    (subtract q g word)[i]? = word[i]?.map fun a => a - q * g[i]?.getD 0 := by
  fun_induction subtract q g word generalizing i with
  | case1 word => simp
  | case2 => simp at shorter
  | case3 g gs a word ih =>
      simp only [List.length_cons, Nat.add_le_add_iff_right] at shorter
      cases i with
      | zero => simp
      | succ i => simp only [List.getElem?_cons_succ, ih shorter i]

theorem eval_subtract (x q : R) {g word : List R} (shorter : g.length ≤ word.length) :
    eval x (subtract q g word) = eval x word - q * eval x g * x ^ (word.length - g.length) := by
  fun_induction subtract q g word with
  | case1 word => simp [eval]
  | case2 => simp at shorter
  | case3 g gs a word ih =>
      simp only [List.length_cons, Nat.add_le_add_iff_right] at shorter
      have split : x ^ word.length = x ^ gs.length * x ^ (word.length - gs.length) := by
        rw [← pow_add, Nat.add_sub_cancel' shorter]
      rw [eval, eval, eval, ih shorter, length_subtract, List.length_cons, List.length_cons,
        Nat.add_sub_add_right, split]
      ring

theorem length_remainder (g : List R) (n : Nat) (word : List R) :
    (remainder g n word).length = word.length - n := by
  fun_induction remainder g n word with
  | case1 => rfl
  | case2 => simp
  | case3 n a word ih =>
      rw [ih, length_subtract, List.length_cons]
      omega

theorem eval_remainder {x : R} {g : List R} (root : eval x (1 :: g) = 0) {n : Nat} {word : List R}
    (enough : n + g.length ≤ word.length) : eval x (remainder g n word) = eval x word := by
  fun_induction remainder g n word with
  | case1 => rfl
  | case2 => simp at enough
  | case3 n a word ih =>
      rw [List.length_cons] at enough
      have split : x ^ word.length = x ^ g.length * x ^ (word.length - g.length) := by
        rw [← pow_add, Nat.add_sub_cancel' (by omega)]
      have tail : eval x g = -x ^ g.length := by
        rw [eval, one_mul, add_comm] at root
        exact eq_neg_of_add_eq_zero_left root
      rw [ih (by rw [length_subtract]; omega), eval_subtract x a (by omega), eval, split, tail]
      ring

theorem isCodeword_encode {a : R} {g message : List R}
    (roots : ∀ k < g.length, eval (a ^ k) (1 :: g) = 0) :
    IsCodeword a g.length (encode g message) := by
  intro k small
  have size : (remainder g message.length (message ++ List.replicate g.length 0)).length =
      g.length := by
    rw [length_remainder, List.length_append, List.length_replicate, Nat.add_sub_cancel_left]
  rw [encode, eval_append, eval_map_neg, List.length_map, size,
    eval_remainder (roots k small) (by simp), eval_append, eval_replicate_zero,
    List.length_replicate]
  ring

section
variable [DecidableEq R]

theorem lt_distance [IsDomain R] {a : R} {d : Nat} {u v : List R} (same : u.length = v.length)
    (powers : Set.InjOn (a ^ ·) (Set.Iio u.length)) (codeU : IsCodeword a d u)
    (codeV : IsCodeword a d v) (differ : u ≠ v) : d < distance u v := by
  by_contra few
  let places := (Finset.range u.length).filter fun i => u[i]? ≠ v[i]?
  let place := places.equivFin.symm
  let difference (i : Nat) : R := u[i]?.getD 0 - v[i]?.getD 0
  have outside : ∀ i ∈ Finset.range u.length, i ∉ places → difference i = 0 := by
    intro i inside other
    have equal : u[i]? = v[i]? := by
      by_contra unequal
      exact other (Finset.mem_filter.mpr ⟨inside, unequal⟩)
    rw [sub_eq_zero, equal]
  have sums : ∀ k : Fin places.card,
      ∑ j, difference (place j) * (a ^ (u.length - 1 - (place j).1)) ^ k.val = 0 := by
    intro k
    have small : k.val < d := lt_of_lt_of_le k.isLt (not_lt.mp few)
    have zero : ∑ i ∈ Finset.range u.length, difference i * (a ^ k.val) ^ (u.length - 1 - i) = 0 := by
      have evalU := codeU k small
      have evalV := codeV k small
      rw [eval_eq_sum] at evalU evalV
      rw [← same] at evalV
      simp only [difference, sub_mul, Finset.sum_sub_distrib, evalU, evalV, sub_zero]
    calc ∑ j, difference (place j) * (a ^ (u.length - 1 - (place j).1)) ^ k.val
        = ∑ i : places, difference i * (a ^ (u.length - 1 - i.1)) ^ k.val :=
          place.sum_comp fun i => difference i * (a ^ (u.length - 1 - i.1)) ^ k.val
      _ = ∑ i ∈ places, difference i * (a ^ (u.length - 1 - i)) ^ k.val :=
          Finset.sum_coe_sort places fun i => difference i * (a ^ (u.length - 1 - i)) ^ k.val
      _ = ∑ i ∈ Finset.range u.length, difference i * (a ^ (u.length - 1 - i)) ^ k.val := by
          apply Finset.sum_subset (Finset.filter_subset _ _)
          intro i inside other
          rw [outside i inside other, zero_mul]
      _ = 0 := by simpa only [← pow_mul, Nat.mul_comm] using zero
  have injective : Function.Injective fun j => a ^ (u.length - 1 - (place j).1) := by
    intro i j equal
    have insideI := Finset.mem_range.mp (Finset.mem_filter.mp (place i).2).1
    have insideJ := Finset.mem_range.mp (Finset.mem_filter.mp (place j).2).1
    have exponents := powers (Set.mem_Iio.mpr (by omega)) (Set.mem_Iio.mpr (by omega)) equal
    apply place.injective
    apply Subtype.ext
    omega
  have zero := Matrix.eq_zero_of_forall_pow_sum_mul_pow_eq_zero injective sums
  apply differ
  apply List.ext_getElem?
  intro i
  by_contra unequal
  have inside : i < u.length := by
    by_contra beyond
    rw [List.getElem?_eq_none (by omega), List.getElem?_eq_none (by omega)] at unequal
    exact unequal rfl
  have member : i ∈ places := Finset.mem_filter.mpr ⟨Finset.mem_range.mpr inside, unequal⟩
  have value := congrFun zero (places.equivFin ⟨i, member⟩)
  simp only [place, Equiv.symm_apply_apply, difference, Pi.zero_apply, sub_eq_zero] at value
  rw [List.getElem?_eq_getElem inside, List.getElem?_eq_getElem (by omega)] at value unequal
  exact unequal (congrArg some value)

theorem unique_decoding [IsDomain R] {a : R} {d t : Nat} {u v w : List R} (lengthU : u.length = w.length)
    (lengthV : v.length = w.length) (powers : Set.InjOn (a ^ ·) (Set.Iio w.length))
    (codeU : IsCodeword a d u) (codeV : IsCodeword a d v) (errors : 2 * t ≤ d)
    (nearU : distance u w ≤ t) (nearV : distance v w ≤ t) : u = v := by
  by_contra differ
  have far := lt_distance (lengthU.trans lengthV.symm) (by rwa [lengthU]) codeU codeV differ
  have near := @distance_triangle _ _ u v w lengthU
  rw [← distance_comm lengthV] at near
  omega

end

end AirFerry.Library.ReedSolomon
