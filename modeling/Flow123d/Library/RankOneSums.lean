import Flow123d.Library.Assembly
import Mathlib.Algebra.Order.Field.Basic
import Mathlib.Tactic.Ring

/-!
# Sums of symmetric matrices of rank one

Such a sum is symmetric, its quadratic form is a weighted sum of squares, and it annihilates what
is orthogonal to each of its vectors.
-/

set_option autoImplicit false

namespace Flow123d.Library

open Matrix

section Assembled

variable {ρ R : Type} [DecidableEq ρ] [CommRing R]

/-- The vector with the given values at the given places. -/
def scattered {m : ℕ} (rows : Fin m → ρ) (values : Fin m → R) : ρ → R :=
  placeSum (partEntries rows values)

theorem scattered_apply {m : ℕ} (rows : Fin m → ρ) (values : Fin m → R) (place : ρ) :
    scattered rows values place = ∑ i, if rows i = place then values i else 0 := by
  unfold scattered placeSum partEntries
  rw [List.map_map, ← sum_finRange]
  rfl

theorem scattered_dotProduct [Fintype ρ] {m : ℕ} (rows : Fin m → ρ) (values : Fin m → R)
    (u : ρ → R) : scattered rows values ⬝ᵥ u = ∑ i, values i * u (rows i) := by
  have sum := sum_weight_addValues u (partEntries rows values)
  rw [weightedPlaces_partEntries] at sum
  calc scattered rows values ⬝ᵥ u
      = ∑ row, u row * addValues 0 (partEntries rows values) row := by
        refine Finset.sum_congr rfl fun row _ => ?_
        rw [addValues_apply, Pi.zero_apply, zero_add, mul_comm]
        rfl
    _ = ∑ i, values i * u (rows i) := by
        rw [sum]
        exact Finset.sum_congr rfl fun i _ => mul_comm _ _

theorem scattered_mul_left {m : ℕ} (rows : Fin m → ρ) (factor : R) (values : Fin m → R)
    (place : ρ) :
    scattered rows (fun i => factor * values i) place = factor * scattered rows values place := by
  rw [scattered_apply, scattered_apply, Finset.mul_sum]
  refine Finset.sum_congr rfl fun i _ => ?_
  rw [mul_ite, mul_zero]

theorem scattered_of_forall_ne {m : ℕ} {rows : Fin m → ρ} {place : ρ} (values : Fin m → R)
    (elsewhere : ∀ i, rows i ≠ place) : scattered rows values place = 0 := by
  rw [scattered_apply]
  exact Finset.sum_eq_zero fun i _ => if_neg (elsewhere i)

theorem entrySum_blockEntries {m n : ℕ} (rows : Fin m → ρ) (cols : Fin n → ρ)
    (values : Fin m → Fin n → R) (row col : ρ) :
    entrySum (blockEntries rows cols values) row col =
      ∑ i, ∑ j, if rows i = row ∧ cols j = col then values i j else 0 := by
  unfold blockEntries
  rw [entrySum_flatMap, sum_finRange]
  refine Finset.sum_congr rfl fun i _ => ?_
  unfold entrySum
  rw [List.map_map, ← sum_finRange]
  rfl

theorem entrySum_blockEntries_add {m n : ℕ} (rows : Fin m → ρ) (cols : Fin n → ρ)
    (first second : Fin m → Fin n → R) (row col : ρ) :
    entrySum (blockEntries rows cols fun i j => first i j + second i j) row col =
      entrySum (blockEntries rows cols first) row col +
        entrySum (blockEntries rows cols second) row col := by
  rw [entrySum_blockEntries, entrySum_blockEntries, entrySum_blockEntries,
    ← Finset.sum_add_distrib]
  refine Finset.sum_congr rfl fun i _ => ?_
  rw [← Finset.sum_add_distrib]
  refine Finset.sum_congr rfl fun j _ => ?_
  split
  · rfl
  · exact (add_zero 0).symm

/-- A block that is an outer product is added as an outer product. -/
theorem entrySum_outer {m n : ℕ} (rows : Fin m → ρ) (cols : Fin n → ρ) (left : Fin m → R)
    (right : Fin n → R) (row col : ρ) :
    entrySum (blockEntries rows cols fun i j => left i * right j) row col =
      scattered rows left row * scattered cols right col := by
  rw [entrySum_blockEntries, scattered_apply, scattered_apply, Finset.sum_mul_sum]
  refine Finset.sum_congr rfl fun i _ => Finset.sum_congr rfl fun j _ => ?_
  by_cases here : rows i = row <;> by_cases there : cols j = col <;> simp [here, there]

end Assembled

section Sums

variable {ρ K : Type} [Field K]

/-- The sum of the given multiples of the products of vectors with themselves. -/
def rankOneSum (terms : List (K × (ρ → K))) : Matrix ρ ρ K :=
  of fun row col => (terms.map fun term => term.1 * (term.2 row * term.2 col)).sum

theorem rankOneSum_transpose (terms : List (K × (ρ → K))) :
    (rankOneSum terms)ᵀ = rankOneSum terms := by
  ext row col
  simp only [rankOneSum, transpose_apply, of_apply, mul_comm]

variable [Fintype ρ]

theorem rankOneSum_mulVec (terms : List (K × (ρ → K))) (u : ρ → K) (row : ρ) :
    (rankOneSum terms *ᵥ u) row =
      (terms.map fun term => term.1 * term.2 row * (term.2 ⬝ᵥ u)).sum := by
  induction terms with
  | nil => simp [rankOneSum, mulVec, dotProduct]
  | cons term terms ih =>
      rw [List.map_cons, List.sum_cons, ← ih]
      simp only [mulVec, dotProduct, rankOneSum, of_apply, List.map_cons, List.sum_cons, add_mul,
        Finset.sum_add_distrib, Finset.mul_sum]
      congr 1
      refine Finset.sum_congr rfl fun col _ => ?_
      ring

theorem rankOneSum_form (terms : List (K × (ρ → K))) (u : ρ → K) :
    u ⬝ᵥ (rankOneSum terms *ᵥ u) =
      (terms.map fun term => term.1 * (term.2 ⬝ᵥ u) ^ 2).sum := by
  induction terms with
  | nil => simp [dotProduct, rankOneSum_mulVec]
  | cons term terms ih =>
      have first : ∑ row, u row * (term.1 * term.2 row * (term.2 ⬝ᵥ u)) =
          term.1 * (term.2 ⬝ᵥ u) ^ 2 := by
        calc ∑ row, u row * (term.1 * term.2 row * (term.2 ⬝ᵥ u))
            = ∑ row, term.1 * (term.2 ⬝ᵥ u) * (term.2 row * u row) :=
              Finset.sum_congr rfl fun row _ => by ring
          _ = term.1 * (term.2 ⬝ᵥ u) * (term.2 ⬝ᵥ u) := (Finset.mul_sum _ _ _).symm
          _ = term.1 * (term.2 ⬝ᵥ u) ^ 2 := by ring
      calc u ⬝ᵥ (rankOneSum (term :: terms) *ᵥ u)
          = ∑ row, (u row * (term.1 * term.2 row * (term.2 ⬝ᵥ u)) +
              u row * (rankOneSum terms *ᵥ u) row) := by
            refine Finset.sum_congr rfl fun row _ => ?_
            rw [rankOneSum_mulVec, rankOneSum_mulVec, List.map_cons, List.sum_cons, mul_add]
        _ = term.1 * (term.2 ⬝ᵥ u) ^ 2 + u ⬝ᵥ (rankOneSum terms *ᵥ u) := by
            rw [Finset.sum_add_distrib, first]
            rfl
        _ = ((term :: terms).map fun term => term.1 * (term.2 ⬝ᵥ u) ^ 2).sum := by
            rw [ih, List.map_cons, List.sum_cons]

theorem rankOneSum_annihilates {terms : List (K × (ρ → K))} {u : ρ → K}
    (orthogonal : ∀ term ∈ terms, term.2 ⬝ᵥ u = 0) : rankOneSum terms *ᵥ u = 0 := by
  funext row
  rw [rankOneSum_mulVec]
  refine List.sum_eq_zero fun value member => ?_
  obtain ⟨term, isTerm, rfl⟩ := List.mem_map.mp member
  rw [orthogonal term isTerm, mul_zero]

/-- A symmetric matrix is determined by its quadratic form. -/
theorem eq_zero_of_form [DecidableEq ρ] [CharZero K] {matrix : Matrix ρ ρ K}
    (symmetric : matrixᵀ = matrix) (zero : ∀ u, u ⬝ᵥ (matrix *ᵥ u) = 0) : matrix = 0 := by
  ext row col
  have entry (i j : ρ) : Pi.single i 1 ⬝ᵥ (matrix *ᵥ Pi.single j 1) = matrix i j := by
    rw [mulVec_single_one, single_one_dotProduct, col_apply]
  have both := zero (Pi.single row 1 + Pi.single col 1)
  have mirrored : matrix col row = matrix row col := congrFun (congrFun symmetric row) col
  rw [mulVec_add, dotProduct_add, add_dotProduct, add_dotProduct, zero, zero, entry, entry,
    mirrored, zero_add, add_zero, ← two_mul] at both
  exact (mul_eq_zero.mp both).resolve_left two_ne_zero

end Sums

end Flow123d.Library
