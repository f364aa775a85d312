import Mathlib.Algebra.Order.Field.Rat
import Mathlib.Algebra.Order.Ring.Archimedean
import Mathlib.Algebra.Order.Ring.Cast
import Mathlib.Data.Rat.Cast.CharZero
import Mathlib.LinearAlgebra.Matrix.NonsingularInverse
import Mathlib.Tactic.FieldSimp
import Mathlib.Tactic.FinCases
import Mathlib.Tactic.IntervalCases
import Flow123d.Library.Numerals

/-!
# Discontinuous Lagrangean elements

The monomials of `PolynomialSpace`, the support points of `DofDistribution` and the shape
functions of `FE_P_disc`, for the orders that the transport equation offers. The inverse of a
matrix is exact.
-/

set_option autoImplicit false

namespace Flow123d

open Matrix

/-- `arma::inv`, for a regular matrix. -/
def Arma.inv {n : ℕ} {K : Type} [Field K] (matrix : Matrix (Fin n) (Fin n) K) :
    Matrix (Fin n) (Fin n) K :=
  matrix.det⁻¹ • matrix.adjugate

theorem Arma.mul_inv {n : ℕ} {K : Type} [Field K] {matrix : Matrix (Fin n) (Fin n) K}
    (regular : matrix.det ≠ 0) : matrix * Arma.inv matrix = 1 := by
  rw [Arma.inv, Matrix.mul_smul, mul_adjugate, smul_smul, inv_mul_cancel₀ regular, one_smul]

theorem Arma.inv_mul {n : ℕ} {K : Type} [Field K] {matrix : Matrix (Fin n) (Fin n) K}
    (regular : matrix.det ≠ 0) : Arma.inv matrix * matrix = 1 := by
  rw [Arma.inv, Matrix.smul_mul, adjugate_mul, smul_smul, inv_mul_cancel₀ regular, one_smul]

/-! ## Monomials -/

namespace PolynomialSpace

/-- The powers after the given ones, with the sum of both. -/
def incrementPows (degree : ℕ) : ℕ → List ℕ → Option (ℕ × List ℕ)
  | _, [] => none
  | degreeSum, pow :: pows =>
      if degreeSum < degree then some (degreeSum + 1, (pow + 1) :: pows)
      else (incrementPows degree (degreeSum - pow) pows).map fun next => (next.1, 0 :: next.2)

/-- The loop of the constructor. The fuel bounds the number of monomials. -/
def powersFrom (degree : ℕ) : ℕ → ℕ × List ℕ → List (List ℕ)
  | 0, _ => []
  | fuel + 1, current =>
      current.2 :: (incrementPows degree current.1 current.2).elim [] (powersFrom degree fuel)

/-- `PolynomialSpace::powers`. -/
def powers (degree dim : ℕ) : List (List ℕ) :=
  powersFrom degree ((degree + 1) ^ dim) (0, List.replicate dim 0)

example : powers 2 2 = [[0, 0], [1, 0], [2, 0], [0, 1], [1, 1], [0, 2]] := by decide

variable {K : Type} [Field K] (degree dim : ℕ) (i : ℕ) (p : ℕ → K)

def pow (j : ℕ) : ℕ := ((powers degree dim).getD i []).getD j 0

def basisValue : K := ∏ j ∈ Finset.range dim, p j ^ pow degree dim i j

def basisGrad (j : Fin dim) : K :=
  if pow degree dim i j = 0 then 0
  else pow degree dim i j * ∏ k ∈ Finset.range dim,
    p k ^ (if k = j then pow degree dim i k - 1 else pow degree dim i k)

end PolynomialSpace

/-! ## Support points -/

/-- `DofDistribution::unit_support_points`, for the order and the dimension. -/
def DofDistribution.unitSupportPoints : Fin 3 → ℕ → List (List ℚ)
  | 0, 1 => [[0]]
  | 1, 1 => [[0], [1]]
  | 2, 1 => [[0], [1], [1 / 2]]
  | 0, 2 => [[0, 0]]
  | 1, 2 => [[0, 0], [1, 0], [0, 1]]
  | 2, 2 => [[0, 0], [1, 0], [0, 1], [1 / 2, 0], [0, 1 / 2], [1 / 2, 1 / 2]]
  | 0, 3 => [[0, 0, 0]]
  | 1, 3 => [[0, 0, 0], [1, 0, 0], [0, 1, 0], [0, 0, 1]]
  | 2, 3 => [[0, 0, 0], [1, 0, 0], [0, 1, 0], [0, 0, 1], [1 / 2, 0, 0], [0, 1 / 2, 0],
      [0, 0, 1 / 2], [1 / 2, 1 / 2, 0], [1 / 2, 0, 1 / 2], [0, 1 / 2, 1 / 2]]
  | _, _ => []

namespace FEPDisc

variable (K : Type) [Field K] (order : Fin 3) (dim : ℕ)

/-- `n_dofs`: every support point belongs to one degree of freedom. -/
def nDofs : ℕ := (DofDistribution.unitSupportPoints order dim).length

def supportPoint (i : Fin (nDofs order dim)) (j : ℕ) : K :=
  (((DofDistribution.unitSupportPoints order dim).get i).getD j 0 : ℚ)

/-- The matrix that `compute_node_matrix` inverts. -/
def supportMatrix : Matrix (Fin (nDofs order dim)) (Fin (nDofs order dim)) K :=
  of fun j i => PolynomialSpace.basisValue order dim j (supportPoint K order dim i)

def nodeMatrix : Matrix (Fin (nDofs order dim)) (Fin (nDofs order dim)) K :=
  Arma.inv (supportMatrix K order dim)

variable {K} (p : ℕ → K)

/-- The values of the shape functions at a point of the reference element. -/
def shapeValue : Fin (nDofs order dim) → K :=
  nodeMatrix K order dim *ᵥ fun j => PolynomialSpace.basisValue order dim j p

/-- The gradients on the reference element. -/
def basisGrads : Matrix (Fin (nDofs order dim)) (Fin dim) K :=
  nodeMatrix K order dim * of fun (j : Fin (nDofs order dim)) c =>
    PolynomialSpace.basisGrad order dim j p c

/-- The gradients on an element with the inverse of its Jacobian. -/
def shapeGrad (inverseJacobian : Matrix (Fin dim) (Fin 3) K) :
    Fin (nDofs order dim) → Fin 3 → K :=
  basisGrads order dim p * inverseJacobian

end FEPDisc

end Flow123d

/-!
## Sums of shape functions

The first monomial is constant, so that the shape functions add up to one and their gradients
to zero. The table below shows that the support points determine the coefficients.
-/

namespace Flow123d.FEPDisc

open Matrix

/-- The coefficients of the shape functions. -/
def coefficients : Fin 3 → ℕ → List (List ℚ)
  | 0, _ => [[1]]
  | 1, 1 => [[1, -1], [0, 1]]
  | 2, 1 => [[1, -3, 2], [0, -1, 2], [0, 4, -4]]
  | 1, 2 => [[1, -1, -1], [0, 1, 0], [0, 0, 1]]
  | 2, 2 => [[1, -3, 2, -3, 4, 2], [0, -1, 2, 0, 0, 0], [0, 0, 0, -1, 0, 2],
      [0, 4, -4, 0, -4, 0], [0, 0, 0, 4, -4, -4], [0, 0, 0, 0, 4, 0]]
  | 1, 3 => [[1, -1, -1, -1], [0, 1, 0, 0], [0, 0, 1, 0], [0, 0, 0, 1]]
  | 2, 3 => [[1, -3, 2, -3, 4, 2, -3, 4, 4, 2], [0, -1, 2, 0, 0, 0, 0, 0, 0, 0],
      [0, 0, 0, -1, 0, 2, 0, 0, 0, 0], [0, 0, 0, 0, 0, 0, -1, 0, 0, 2],
      [0, 4, -4, 0, -4, 0, 0, -4, 0, 0], [0, 0, 0, 4, -4, -4, 0, 0, -4, 0],
      [0, 0, 0, 0, 0, 0, 4, -4, -4, -4], [0, 0, 0, 0, 4, 0, 0, 0, 0, 0],
      [0, 0, 0, 0, 0, 0, 0, 4, 0, 0], [0, 0, 0, 0, 0, 0, 0, 0, 4, 0]]
  | _, _ => []

def coefficientMatrix (order : Fin 3) (dim : ℕ) :
    Matrix (Fin (nDofs order dim)) (Fin (nDofs order dim)) ℚ :=
  of fun i j => ((coefficients order dim).getD i []).getD j 0

theorem supportMatrix_mul_coefficientMatrix (order : Fin 3) {dim : ℕ} (positive : 0 < dim)
    (small : dim ≤ 3) : supportMatrix ℚ order dim * coefficientMatrix order dim = 1 := by
  interval_cases dim <;> fin_cases order <;> decide +kernel

variable {K : Type} [Field K] [LinearOrder K] [IsStrictOrderedRing K] {order : Fin 3} {dim : ℕ}

theorem supportMatrix_eq_map (order : Fin 3) (dim : ℕ) :
    supportMatrix K order dim = (supportMatrix ℚ order dim).map (Rat.castHom K) := by
  ext j i
  simp [supportMatrix, supportPoint, PolynomialSpace.basisValue]

/-- The support points are unisolvent. -/
theorem det_supportMatrix_ne_zero (positive : 0 < dim) (small : dim ≤ 3) :
    (supportMatrix K order dim).det ≠ 0 := by
  have rational : (supportMatrix ℚ order dim).det ≠ 0 := by
    intro zero
    have product := congrArg Matrix.det
      (supportMatrix_mul_coefficientMatrix order positive small)
    rw [det_mul, zero, zero_mul, det_one] at product
    exact zero_ne_one product
  rw [supportMatrix_eq_map, ← RingHom.mapMatrix_apply, ← RingHom.map_det]
  simpa using rational

/-- The number of the constant monomial. -/
def constantDof (order : Fin 3) (positive : 0 < dim) (small : dim ≤ 3) : Fin (nDofs order dim) :=
  ⟨0, by interval_cases dim <;> fin_cases order <;> decide⟩

theorem pow_zero_dof (order : Fin 3) (positive : 0 < dim) (small : dim ≤ 3) {j : ℕ}
    (inside : j < dim) : PolynomialSpace.pow order dim 0 j = 0 := by
  interval_cases dim <;> fin_cases order <;> interval_cases j <;> decide

omit [LinearOrder K] [IsStrictOrderedRing K] in
theorem basisValue_zero_dof (positive : 0 < dim) (small : dim ≤ 3) (p : ℕ → K) :
    PolynomialSpace.basisValue order dim 0 p = 1 := by
  unfold PolynomialSpace.basisValue
  refine Finset.prod_eq_one fun c inside => ?_
  rw [pow_zero_dof order positive small (Finset.mem_range.mp inside), pow_zero]

theorem sum_nodeMatrix (positive : 0 < dim) (small : dim ≤ 3) (j : Fin (nDofs order dim)) :
    ∑ i, nodeMatrix K order dim i j = if j = constantDof order positive small then 1 else 0 := by
  have constant : supportMatrix K order dim (constantDof order positive small) = fun _ => 1 := by
    funext i
    exact basisValue_zero_dof positive small _
  calc ∑ i, nodeMatrix K order dim i j
      = ∑ i, supportMatrix K order dim (constantDof order positive small) i *
          nodeMatrix K order dim i j := by simp [constant]
    _ = (supportMatrix K order dim * nodeMatrix K order dim)
          (constantDof order positive small) j := rfl
    _ = _ := by
        rw [nodeMatrix, Arma.mul_inv (det_supportMatrix_ne_zero positive small), one_apply]
        simp only [eq_comm]

/-- The shape functions add up to what the constant monomial gives. -/
theorem sum_nodeMatrix_mul (positive : 0 < dim) (small : dim ≤ 3)
    (value : Fin (nDofs order dim) → K) :
    ∑ i, (nodeMatrix K order dim *ᵥ value) i = value (constantDof order positive small) := by
  calc ∑ i, (nodeMatrix K order dim *ᵥ value) i
      = ∑ j, (∑ i, nodeMatrix K order dim i j) * value j := by
        simp only [mulVec, dotProduct, Finset.sum_mul]
        exact Finset.sum_comm
    _ = value (constantDof order positive small) := by
        simp [sum_nodeMatrix positive small]

theorem sum_shapeValue (positive : 0 < dim) (small : dim ≤ 3) (p : ℕ → K) :
    ∑ i, shapeValue order dim p i = 1 := by
  unfold shapeValue
  rw [sum_nodeMatrix_mul positive small]
  exact basisValue_zero_dof positive small p

theorem sum_basisGrads (positive : 0 < dim) (small : dim ≤ 3) (p : ℕ → K) (c : Fin dim) :
    ∑ i, basisGrads order dim p i c = 0 := by
  have column : ∀ i, basisGrads order dim p i c = (nodeMatrix K order dim *ᵥ
      fun j => PolynomialSpace.basisGrad order dim j p c) i := fun _ => rfl
  simp only [column]
  rw [sum_nodeMatrix_mul positive small]
  exact if_pos (pow_zero_dof order positive small c.isLt)

theorem sum_shapeGrad (positive : 0 < dim) (small : dim ≤ 3) (p : ℕ → K)
    (inverseJacobian : Matrix (Fin dim) (Fin 3) K) (c : Fin 3) :
    ∑ i, shapeGrad order dim p inverseJacobian i c = 0 := by
  calc ∑ i, shapeGrad order dim p inverseJacobian i c
      = ∑ l, (∑ i, basisGrads order dim p i l) * inverseJacobian l c := by
        simp only [shapeGrad, mul_apply, Finset.sum_mul]
        exact Finset.sum_comm
    _ = 0 := by simp [sum_basisGrads positive small]

end Flow123d.FEPDisc
