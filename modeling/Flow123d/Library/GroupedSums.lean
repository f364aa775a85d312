import Mathlib.Algebra.BigOperators.Field
import Mathlib.Algebra.BigOperators.Fin
import Mathlib.Algebra.BigOperators.Group.Finset.Sigma
import Mathlib.Algebra.Order.BigOperators.Ring.Finset
import Mathlib.Algebra.Order.Field.Basic
import Mathlib.Tactic.Abel
import Flow123d.Library.Numerals

/-!
# Sums of grouped items

Items that are summed group by group, or position by position, give the sum of all.
-/

set_option autoImplicit false

namespace Flow123d.Library

variable {α β κ M : Type} [AddCommMonoid M]

theorem sum_map_flatMap (items : List α) (parts : α → List β) (value : β → M) :
    ((items.flatMap parts).map value).sum =
      (items.map fun item => ((parts item).map value).sum).sum := by
  induction items with
  | nil => rfl
  | cons item items ih =>
      rw [List.flatMap_cons, List.map_append, List.sum_append, ih, List.map_cons,
        List.sum_cons]

theorem sum_map_sub {G : Type} [AddCommGroup G] (items : List α) (gain loss : α → G) :
    (items.map fun item => gain item - loss item).sum =
      (items.map gain).sum - (items.map loss).sum := by
  induction items with
  | nil => simp
  | cons item items ih =>
      rw [List.map_cons, List.map_cons, List.map_cons, List.sum_cons, List.sum_cons,
        List.sum_cons, ih]
      abel

theorem sum_map_neg {G : Type} [AddCommGroup G] (items : List α) (value : α → G) :
    (items.map fun item => -value item).sum = -(items.map value).sum := by
  simpa using sum_map_sub items (fun _ => 0) value

/-- Every item belongs to one group of the list. -/
theorem sum_listed_groups [DecidableEq κ] {keys : List κ} (distinct : keys.Nodup)
    (items : List α) (key : α → κ) (value : α → M) (listed : ∀ item ∈ items, key item ∈ keys) :
    (keys.map fun k => ((items.filter fun item => key item = k).map value).sum).sum =
      (items.map value).sum := by
  induction items with
  | nil => simp
  | cons item items ih =>
      have rest := ih fun other member => listed other (List.mem_cons_of_mem _ member)
      have split : ∀ k, (((item :: items).filter fun item => key item = k).map value).sum =
          (if key item = k then value item else 0) +
            ((items.filter fun item => key item = k).map value).sum := by
        intro k
        by_cases here : key item = k <;> simp [here]
      have first : (keys.map fun k => if key item = k then value item else 0).sum =
          value item := by
        rw [List.sum_map_eq_nsmul_single (key item) _ fun k other _ => if_neg other.symm,
          List.count_eq_one_of_mem distinct (listed item List.mem_cons_self), one_nsmul,
          if_pos rfl]
      simp only [split, List.sum_map_add, rest, first, List.map_cons, List.sum_cons]

section Groups

variable [Fintype κ]

theorem sum_sum_map (items : List α) (value : κ → α → M) :
    ∑ k, (items.map (value k)).sum = (items.map fun item => ∑ k, value k item).sum := by
  induction items with
  | nil => simp
  | cons item items ih => simp [Finset.sum_add_distrib, ih]

variable [DecidableEq κ]

theorem sum_groups (items : List α) (key : α → κ) (value : α → M) :
    ∑ k, ((items.filter fun item => key item = k).map value).sum =
      (items.map value).sum := by
  have single : ∀ k, ((items.filter fun item => key item = k).map value).sum =
      (items.map fun item => if key item = k then value item else 0).sum := by
    intro k
    induction items with
    | nil => rfl
    | cons item items ih =>
        by_cases here : key item = k
        · simp [here, ih]
        · simp [here, ih]
  rw [Finset.sum_congr rfl fun k _ => single k, sum_sum_map]
  congr 2
  funext item
  simp

end Groups

/-- The rows of a block summed first, at every point. -/
theorem sum_block_rows {R : Type} [CommRing R] [Fintype α] [Fintype β] (points : Finset κ)
    (value : κ → α → β → R) (x : β → R) :
    ∑ i, ∑ j, (∑ k ∈ points, value k i j) * x j =
      ∑ k ∈ points, ∑ j, (∑ i, value k i j) * x j := by
  calc ∑ i, ∑ j, (∑ k ∈ points, value k i j) * x j
      = ∑ i, ∑ k ∈ points, ∑ j, value k i j * x j := by
        refine Finset.sum_congr rfl fun i _ => ?_
        simp only [Finset.sum_mul]
        exact Finset.sum_comm
    _ = ∑ k ∈ points, ∑ j, ∑ i, value k i j * x j := by
        rw [Finset.sum_comm]
        exact Finset.sum_congr rfl fun k _ => Finset.sum_comm
    _ = _ := by simp only [Finset.sum_mul]

theorem sum_finRange {n : ℕ} (value : Fin n → M) :
    ((List.finRange n).map value).sum = ∑ i, value i :=
  (Fin.sum_univ_def value).symm

end Flow123d.Library

/-!
## Pairs of positions of a list
-/

namespace Flow123d.Library

variable {α : Type}

/-- The pairs of two nested loops, the second of which starts after the first. -/
def pairs : List α → List (α × α)
  | [] => []
  | item :: items => (items.map fun other => (item, other)) ++ pairs items

end Flow123d.Library

/-!
## Means by distance

The weights of items fall with their distances and sum to one.
-/

namespace Flow123d.Library

section Means

variable {ι K : Type} [Fintype ι] [Field K]

/-- The weight of an item that is visited a number of times. -/
def distanceWeight (visits : ι → ℕ) (dist : ι → K) (i : ι) : K :=
  visits i * ((1 - dist i / ∑ j, visits j * dist j) / ((∑ j, visits j : ℕ) - 1))

variable [LinearOrder K] [IsStrictOrderedRing K] {visits : ι → ℕ} {dist : ι → K}

private theorem visits_sub_one_pos (several : 2 ≤ ∑ j, visits j) :
    (0 : K) < (∑ j, visits j : ℕ) - 1 := by
  have two : (2 : K) ≤ (∑ j, visits j : ℕ) := by exact_mod_cast several
  exact sub_pos.mpr (lt_of_lt_of_le one_lt_two two)

theorem distanceWeight_nonneg (nonneg : ∀ i, 0 ≤ dist i) (several : 2 ≤ ∑ j, visits j) (i : ι) :
    0 ≤ distanceWeight visits dist i := by
  cases count : visits i with
  | zero => simp [distanceWeight, count]
  | succ n =>
      have positive : (1 : K) ≤ visits i := by
        rw [count]
        exact_mod_cast Nat.le_add_left 1 n
      have total : dist i ≤ ∑ j, visits j * dist j := by
        calc dist i ≤ visits i * dist i := le_mul_of_one_le_left (nonneg i) positive
          _ ≤ ∑ j, visits j * dist j :=
            Finset.single_le_sum (f := fun j => (visits j : K) * dist j)
              (fun j _ => mul_nonneg (Nat.cast_nonneg _) (nonneg j)) (Finset.mem_univ i)
      have part : dist i / ∑ j, visits j * dist j ≤ 1 :=
        div_le_one_of_le₀ total ((nonneg i).trans total)
      exact mul_nonneg (Nat.cast_nonneg _)
        (div_nonneg (sub_nonneg.mpr part) (visits_sub_one_pos several).le)

theorem sum_distanceWeight (several : 2 ≤ ∑ j, visits j)
    (apart : 0 < ∑ j, visits j * dist j) : ∑ i, distanceWeight visits dist i = 1 := by
  have rest := visits_sub_one_pos (K := K) several
  calc ∑ i, distanceWeight visits dist i
      = (∑ i, ((visits i : K) - visits i * dist i / ∑ j, visits j * dist j)) /
          ((∑ j, visits j : ℕ) - 1) := by
        rw [Finset.sum_div]
        refine Finset.sum_congr rfl fun i _ => ?_
        unfold distanceWeight
        ring
    _ = 1 := by
        rw [Finset.sum_sub_distrib, ← Finset.sum_div, div_self apart.ne', ← Nat.cast_sum,
          div_self rest.ne']

end Means

end Flow123d.Library
