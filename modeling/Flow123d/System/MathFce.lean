import Mathlib.Algebra.Order.Ring.Abs
import Mathlib.LinearAlgebra.Matrix.Determinant.Basic
import Mathlib.LinearAlgebra.Matrix.NonsingularInverse
import Mathlib.Tactic.FieldSimp
import Mathlib.Tactic.FinCases
import Mathlib.Tactic.IntervalCases
import Mathlib.Tactic.LinearCombination
import Flow123d.Library.Numerals

/-!
# Small matrices

The inverses of `math_fce.cc`, in exact arithmetic. The loops over the columns of a row are
updates of the whole row, as each of them reads only its own column.
-/

set_option autoImplicit false

namespace Flow123d

open Matrix

variable {K : Type} [Field K]

/-! ## Inverses by sub-determinants -/

/-- `NUM_ZERO`. -/
def MathFce.numZero : K := 1 / 2 ^ 970

def subdet2 {n : ℕ} (a : Matrix (Fin n) (Fin n) K) (i j k l : Fin n) : K :=
  a i k * a j l - a i l * a j k

def det2 (a : Matrix (Fin 2) (Fin 2) K) : K := subdet2 a 0 1 0 1

def det3 (a : Matrix (Fin 3) (Fin 3) K) : K :=
  a 0 0 * subdet2 a 1 2 1 2 - a 0 1 * subdet2 a 1 2 0 2 + a 0 2 * subdet2 a 1 2 0 1

/-- What an inverse returns, and what it leaves in its second argument. -/
structure Inverted (n : ℕ) (K : Type) where
  det : K
  b : Matrix (Fin n) (Fin n) K

section Inverses

variable [LinearOrder K]

def inverse2 (a b : Matrix (Fin 2) (Fin 2) K) : Inverted 2 K :=
  let det := subdet2 a 0 1 0 1
  if |det| < MathFce.numZero then ⟨det, b⟩
  else ⟨det, !![a 1 1 / det, -a 0 1 / det; -a 1 0 / det, a 0 0 / det]⟩

def inverse3 (a b : Matrix (Fin 3) (Fin 3) K) : Inverted 3 K :=
  let b00 := subdet2 a 1 2 1 2
  let b10 := -subdet2 a 1 2 0 2
  let b20 := subdet2 a 1 2 0 1
  let det := a 0 0 * b00 + a 0 1 * b10 + a 0 2 * b20
  if |det| < MathFce.numZero then
    ⟨det, !![b00, b 0 1, b 0 2; b10, b 1 1, b 1 2; b20, b 2 1, b 2 2]⟩
  else
    ⟨det, !![b00 / det, -subdet2 a 0 2 1 2 / det, subdet2 a 0 1 1 2 / det;
      b10 / det, subdet2 a 0 2 0 2 / det, -subdet2 a 0 1 0 2 / det;
      b20 / det, -subdet2 a 0 2 0 1 / det, subdet2 a 0 1 0 1 / det]⟩

def inverse4 (a b : Matrix (Fin 4) (Fin 4) K) : Inverted 4 K :=
  let u0 := subdet2 a 0 1 0 1
  let u1 := subdet2 a 0 1 0 2
  let u2 := subdet2 a 0 1 0 3
  let u3 := subdet2 a 0 1 1 2
  let u4 := subdet2 a 0 1 1 3
  let u5 := subdet2 a 0 1 2 3
  let l0 := subdet2 a 2 3 0 1
  let l1 := subdet2 a 2 3 0 2
  let l2 := subdet2 a 2 3 0 3
  let l3 := subdet2 a 2 3 1 2
  let l4 := subdet2 a 2 3 1 3
  let l5 := subdet2 a 2 3 2 3
  let b00 := a 1 1 * l5 - a 1 2 * l4 + a 1 3 * l3
  let b10 := -a 1 0 * l5 + a 1 2 * l2 - a 1 3 * l1
  let b20 := a 1 0 * l4 - a 1 1 * l2 + a 1 3 * l0
  let b30 := -a 1 0 * l3 + a 1 1 * l1 - a 1 2 * l0
  let det := a 0 0 * b00 + a 0 1 * b10 + a 0 2 * b20 + a 0 3 * b30
  if |det| < MathFce.numZero then
    ⟨det, !![b00, b 0 1, b 0 2, b 0 3; b10, b 1 1, b 1 2, b 1 3;
      b20, b 2 1, b 2 2, b 2 3; b30, b 3 1, b 3 2, b 3 3]⟩
  else
    ⟨det, !![b00 / det, (-a 0 1 * l5 + a 0 2 * l4 - a 0 3 * l3) / det,
        (a 3 1 * u5 - a 3 2 * u4 + a 3 3 * u3) / det,
        (-a 2 1 * u5 + a 2 2 * u4 - a 2 3 * u3) / det;
      b10 / det, (a 0 0 * l5 - a 0 2 * l2 + a 0 3 * l1) / det,
        (-a 3 0 * u5 + a 3 2 * u2 - a 3 3 * u1) / det,
        (a 2 0 * u5 - a 2 2 * u2 + a 2 3 * u1) / det;
      b20 / det, (-a 0 0 * l4 + a 0 1 * l2 - a 0 3 * l0) / det,
        (a 3 0 * u4 - a 3 1 * u2 + a 3 3 * u0) / det,
        (-a 2 0 * u4 + a 2 1 * u2 - a 2 3 * u0) / det;
      b30 / det, (a 0 0 * l3 - a 0 1 * l1 + a 0 2 * l0) / det,
        (-a 3 0 * u3 + a 3 1 * u1 - a 3 2 * u0) / det,
        (a 2 0 * u3 - a 2 1 * u1 + a 2 2 * u0) / det]⟩

def matrixInverse : (size : ℕ) → (a b : Matrix (Fin size) (Fin size) K) → Inverted size K
  | 1, a, _ => ⟨a 0 0, of fun _ _ => 1 / a 0 0⟩
  | 2, a, b => inverse2 a b
  | 3, a, b => inverse3 a b
  | 4, a, b => inverse4 a b
  | _, _, b => ⟨0, b⟩

end Inverses

/-! ## Inverse in place -/

namespace MatInverse

variable {n : ℕ}

/-- Division of a row by its diagonal entry, in whose place the inverse grows. -/
def divideRow (a : Matrix (Fin (n + 1)) (Fin (n + 1)) K) (row : Fin (n + 1)) :
    Matrix (Fin (n + 1)) (Fin (n + 1)) K :=
  a.updateRow row fun col => Function.update (a row) row 1 col / a row row

/-- Elimination of the entry of `subrow` in the column `row`. -/
def eliminate (row : Fin (n + 1)) (a : Matrix (Fin (n + 1)) (Fin (n + 1)) K)
    (subrow : Fin (n + 1)) : Matrix (Fin (n + 1)) (Fin (n + 1)) K :=
  a.updateRow subrow fun col =>
    Function.update (a subrow) row 0 col - a row col * a subrow row

def forwardStep (a : Matrix (Fin (n + 1)) (Fin (n + 1)) K) (row : Fin (n + 1)) :
    Matrix (Fin (n + 1)) (Fin (n + 1)) K :=
  ((List.finRange (n + 1)).filter fun subrow => row < subrow).foldl (eliminate row)
    (divideRow a row)

def forwardRun (a : Matrix (Fin (n + 1)) (Fin (n + 1)) K) :
    Matrix (Fin (n + 1)) (Fin (n + 1)) K :=
  divideRow (((List.finRange n).map Fin.castSucc).foldl forwardStep a) (Fin.last n)

def backwardStep (a : Matrix (Fin (n + 1)) (Fin (n + 1)) K) (row : Fin (n + 1)) :
    Matrix (Fin (n + 1)) (Fin (n + 1)) K :=
  ((List.finRange (n + 1)).filter fun subrow => subrow < row).reverse.foldl (eliminate row) a

def backwardRun (a : Matrix (Fin (n + 1)) (Fin (n + 1)) K) :
    Matrix (Fin (n + 1)) (Fin (n + 1)) K :=
  ((List.finRange n).map Fin.succ).reverse.foldl backwardStep a

end MatInverse

/-- `MatInverse`, for a matrix with at least one row. -/
def matInverse {n : ℕ} (a : Matrix (Fin (n + 1)) (Fin (n + 1)) K) :
    Matrix (Fin (n + 1)) (Fin (n + 1)) K :=
  MatInverse.backwardRun (MatInverse.forwardRun a)

/-- The divisors of `MatInverse` are not zero. -/
def NonzeroPivots {n : ℕ} (a : Matrix (Fin (n + 1)) (Fin (n + 1)) K) : Prop :=
  ∀ row : Fin (n + 1),
    ((((List.finRange n).map Fin.castSucc).take row).foldl MatInverse.forwardStep a) row row ≠ 0

end Flow123d

/-!
## Inverses by sub-determinants

`MatrixInverse` returns the determinant, and it leaves the inverse unless the determinant is
below `NUM_ZERO`.
-/

namespace Flow123d

open Matrix

variable {K : Type} [Field K] [LinearOrder K]

theorem det_matrixInverse {size : ℕ} (positive : 1 ≤ size) (small : size ≤ 4)
    (a b : Matrix (Fin size) (Fin size) K) : (matrixInverse size a b).det = a.det := by
  interval_cases size
  · exact (det_fin_one a).symm
  · rw [det_fin_two]
    change (inverse2 a b).det = _
    rw [inverse2]
    split_ifs <;> rfl
  · rw [det_fin_three]
    change (inverse3 a b).det = _
    rw [inverse3]
    split_ifs <;> (simp only [subdet2]; ring)
  · rw [det_succ_row_zero, Fin.sum_univ_four]
    change (inverse4 a b).det = _
    simp only [inverse4, det_fin_three, submatrix_apply]
    split_ifs <;> (simp [subdet2, Fin.succAbove]; ring)

variable [IsStrictOrderedRing K]

theorem MathFce.numZero_pos : 0 < (MathFce.numZero : K) :=
  one_div_pos.mpr (pow_pos two_pos 970)

theorem ne_zero_of_not_small {det : K} (large : ¬ |det| < MathFce.numZero) : det ≠ 0 := by
  intro zero
  rw [zero, abs_zero] at large
  exact large MathFce.numZero_pos

theorem inverse2_inverts {a b : Matrix (Fin 2) (Fin 2) K}
    (large : ¬ |a.det| < MathFce.numZero) : a * (inverse2 a b).b = 1 := by
  have nonzero := ne_zero_of_not_small large
  have det : subdet2 a 0 1 0 1 = a.det := (det_fin_two a).symm
  have result : (inverse2 a b).b = a.det⁻¹ • !![a 1 1, -a 0 1; -a 1 0, a 0 0] := by
    rw [inverse2, det]
    simp only [if_neg large]
    ext i j
    fin_cases i <;> fin_cases j <;> simp [div_eq_inv_mul]
  rw [result, Matrix.mul_smul]
  refine (inv_smul_eq_iff₀ nonzero).mpr ?_
  ext i j
  rw [det_fin_two]
  fin_cases i <;> fin_cases j <;> simp [mul_apply, Fin.sum_univ_two] <;> ring

theorem inverse3_inverts {a b : Matrix (Fin 3) (Fin 3) K}
    (large : ¬ |a.det| < MathFce.numZero) : a * (inverse3 a b).b = 1 := by
  have nonzero := ne_zero_of_not_small large
  have det : a 0 0 * subdet2 a 1 2 1 2 + a 0 1 * -subdet2 a 1 2 0 2 + a 0 2 * subdet2 a 1 2 0 1 =
      a.det := by
    rw [det_fin_three]
    simp only [subdet2]
    ring
  have result : (inverse3 a b).b = a.det⁻¹ •
      !![subdet2 a 1 2 1 2, -subdet2 a 0 2 1 2, subdet2 a 0 1 1 2;
        -subdet2 a 1 2 0 2, subdet2 a 0 2 0 2, -subdet2 a 0 1 0 2;
        subdet2 a 1 2 0 1, -subdet2 a 0 2 0 1, subdet2 a 0 1 0 1] := by
    simp only [inverse3, det, if_neg large]
    ext i j
    fin_cases i <;> fin_cases j <;> simp [div_eq_inv_mul]
  rw [result, Matrix.mul_smul]
  refine (inv_smul_eq_iff₀ nonzero).mpr ?_
  ext i j
  rw [det_fin_three]
  fin_cases i <;> fin_cases j <;> simp [mul_apply, Fin.sum_univ_three, subdet2] <;> ring

/-- The matrix of the sub-determinants of `inverse4`, before the division. -/
def cofactors4 (a : Matrix (Fin 4) (Fin 4) K) : Matrix (Fin 4) (Fin 4) K :=
  let u := fun k l => subdet2 a 0 1 k l
  let l := fun k l => subdet2 a 2 3 k l
  !![a 1 1 * l 2 3 - a 1 2 * l 1 3 + a 1 3 * l 1 2,
      -a 0 1 * l 2 3 + a 0 2 * l 1 3 - a 0 3 * l 1 2,
      a 3 1 * u 2 3 - a 3 2 * u 1 3 + a 3 3 * u 1 2,
      -a 2 1 * u 2 3 + a 2 2 * u 1 3 - a 2 3 * u 1 2;
    -a 1 0 * l 2 3 + a 1 2 * l 0 3 - a 1 3 * l 0 2,
      a 0 0 * l 2 3 - a 0 2 * l 0 3 + a 0 3 * l 0 2,
      -a 3 0 * u 2 3 + a 3 2 * u 0 3 - a 3 3 * u 0 2,
      a 2 0 * u 2 3 - a 2 2 * u 0 3 + a 2 3 * u 0 2;
    a 1 0 * l 1 3 - a 1 1 * l 0 3 + a 1 3 * l 0 1,
      -a 0 0 * l 1 3 + a 0 1 * l 0 3 - a 0 3 * l 0 1,
      a 3 0 * u 1 3 - a 3 1 * u 0 3 + a 3 3 * u 0 1,
      -a 2 0 * u 1 3 + a 2 1 * u 0 3 - a 2 3 * u 0 1;
    -a 1 0 * l 1 2 + a 1 1 * l 0 2 - a 1 2 * l 0 1,
      a 0 0 * l 1 2 - a 0 1 * l 0 2 + a 0 2 * l 0 1,
      -a 3 0 * u 1 2 + a 3 1 * u 0 2 - a 3 2 * u 0 1,
      a 2 0 * u 1 2 - a 2 1 * u 0 2 + a 2 2 * u 0 1]

omit [LinearOrder K] [IsStrictOrderedRing K] in
theorem det_cofactors4 (a : Matrix (Fin 4) (Fin 4) K) :
    a 0 0 * cofactors4 a 0 0 + a 0 1 * cofactors4 a 1 0 + a 0 2 * cofactors4 a 2 0 +
      a 0 3 * cofactors4 a 3 0 = a.det := by
  rw [det_succ_row_zero, Fin.sum_univ_four]
  simp [cofactors4, det_fin_three, subdet2, Fin.succAbove]
  ring

omit [LinearOrder K] [IsStrictOrderedRing K] in
theorem mul_cofactors4 (a : Matrix (Fin 4) (Fin 4) K) : a * cofactors4 a = a.det • 1 := by
  ext i j
  rw [← det_cofactors4]
  fin_cases i <;> fin_cases j <;>
    simp [mul_apply, Fin.sum_univ_four, cofactors4, subdet2] <;> ring

theorem inverse4_inverts {a b : Matrix (Fin 4) (Fin 4) K}
    (large : ¬ |a.det| < MathFce.numZero) : a * (inverse4 a b).b = 1 := by
  have nonzero := ne_zero_of_not_small large
  have result : (inverse4 a b).b = a.det⁻¹ • cofactors4 a := by
    rw [← det_cofactors4] at large
    have divided : inverse4 a b = _ := if_neg large
    rw [divided]
    ext i j
    have entry := (congrArg (cofactors4 a i j / ·) (det_cofactors4 a)).trans (div_eq_inv_mul _ _)
    fin_cases i <;> fin_cases j <;> exact entry
  rw [result, Matrix.mul_smul, mul_cofactors4, smul_smul, inv_mul_cancel₀ nonzero, one_smul]

/-- What `MatrixInverse` leaves when it does not stop at the determinant. -/
theorem matrixInverse_inverts {size : ℕ} (positive : 1 ≤ size) (small : size ≤ 4)
    {a b : Matrix (Fin size) (Fin size) K} (large : ¬ |a.det| < MathFce.numZero) :
    a * (matrixInverse size a b).b = 1 ∧ (matrixInverse size a b).b * a = 1 := by
  have right : a * (matrixInverse size a b).b = 1 := by
    interval_cases size
    · have nonzero := ne_zero_of_not_small large
      rw [det_fin_one] at nonzero
      ext i j
      rw [Subsingleton.elim i 0, Subsingleton.elim j 0, mul_apply, Fin.sum_univ_one]
      exact mul_one_div_cancel nonzero
    · exact inverse2_inverts large
    · exact inverse3_inverts large
    · exact inverse4_inverts large
  exact ⟨right, mul_eq_one_comm.mp right⟩

end Flow123d
