import Flow123d.Flow.MHFEValues
import Flow123d.Library.SimplexIntegral
import Mathlib.Algebra.Order.Star.Real
import Mathlib.LinearAlgebra.Matrix.PosDef

/-!
# Raviart-Thomas elements of the lowest order

The basis functions of an element, their fluxes through the sides and their Gram matrix for a
weight. The integrals are those over the barycentric coordinates.
-/

set_option autoImplicit false

namespace Flow123d

open Flow123d.Library Matrix

namespace RaviartThomas

/-! ## Geometry -/

/-- The node that does not lie on a side. -/
def opposite : ℕ → ℕ → ℕ
  | 1, side => 1 - side
  | 2, side => (side + 2) % 3
  | _, side => side

def sideNodes (dim : ℕ) (node : ℕ → Fin 3 → ℝ) (side : ℕ) : ℕ → Fin 3 → ℝ :=
  fun k => node (RefElement.sideNode dim side k)

noncomputable def measure (dim : ℕ) (node : ℕ → Fin 3 → ℝ) : ℝ :=
  Element.measureOf Real.sqrt dim node

noncomputable def sideMeasure (dim : ℕ) (node : ℕ → Fin 3 → ℝ) (side : ℕ) : ℝ :=
  Side.measureOf Real.sqrt (dim - 1) (sideNodes dim node side)

def point {n : ℕ} (node : ℕ → Fin 3 → ℝ) (coordinates : Fin (n + 1) → ℝ) : Fin 3 → ℝ :=
  ∑ k, coordinates k • node k

/-- The integral over a simplex with a given measure. -/
noncomputable def integral (n : ℕ) (measure : ℝ) (node : ℕ → Fin 3 → ℝ)
    (f : (Fin 3 → ℝ) → ℝ) : ℝ :=
  n.factorial * measure * simplexIntegral n 1 fun coordinates => f (point node coordinates)

/-- The outer unit normal of a side within the element. -/
structure OuterNormal (dim : ℕ) (node : ℕ → Fin 3 → ℝ) (side : ℕ) (normal : Fin 3 → ℝ) : Prop where
  unit : normal ⬝ᵥ normal = 1
  tangent : normal ∈ Submodule.span ℝ (Set.range fun k : Fin dim => node (k + 1) - node 0)
  orthogonal : ∀ k < dim, ∀ l < dim,
    normal ⬝ᵥ (sideNodes dim node side k - sideNodes dim node side l) = 0
  outer : ∀ k < dim,
    normal ⬝ᵥ (node (opposite dim side) - sideNodes dim node side k) < 0

/-! ## Basis functions -/

/-- The basis function of a side. -/
noncomputable def basis (dim : ℕ) (node : ℕ → Fin 3 → ℝ) (side : ℕ) (x : Fin 3 → ℝ) : Fin 3 → ℝ :=
  (1 / (dim * measure dim node)) • (x - node (opposite dim side))

/-- The flux of a basis function through a side. -/
noncomputable def flux (dim : ℕ) (node : ℕ → Fin 3 → ℝ) (function side : ℕ)
    (normal : Fin 3 → ℝ) : ℝ :=
  integral (dim - 1) (sideMeasure dim node side) (sideNodes dim node side) fun x =>
    basis dim node function x ⬝ᵥ normal

noncomputable def gram (dim : ℕ) (node : ℕ → Fin 3 → ℝ) (weight : Matrix (Fin 3) (Fin 3) ℝ) :
    Matrix (Fin (dim + 1)) (Fin (dim + 1)) ℝ :=
  of fun i j => integral dim (measure dim node) node fun x =>
    basis dim node i x ⬝ᵥ (weight *ᵥ basis dim node j x)

variable {n : ℕ} {node : ℕ → Fin 3 → ℝ}

theorem point_sub {coordinates : Fin (n + 1) → ℝ} (sum : ∑ k, coordinates k = 1)
    (a : Fin 3 → ℝ) : point node coordinates - a = ∑ k, coordinates k • (node k - a) := by
  simp only [smul_sub, Finset.sum_sub_distrib, ← Finset.sum_smul, sum, one_smul]
  rfl

/-- The integral of a function with a constant value. -/
theorem integral_const {measure c : ℝ} {f : (Fin 3 → ℝ) → ℝ}
    (isConst : ∀ coordinates : Fin (n + 1) → ℝ, ∑ k, coordinates k = 1 →
      f (point node coordinates) = c) : integral n measure node f = measure * c := by
  rw [integral, simplexIntegral.congr isConst, simplexIntegral.const, one_pow]
  field_simp

/-- The integral of a bilinear form of the distances from two points. -/
theorem integral_bilinear (measure : ℝ) (weight : Matrix (Fin 3) (Fin 3) ℝ) (a b : Fin 3 → ℝ) :
    integral n measure node (fun x => (x - a) ⬝ᵥ (weight *ᵥ (x - b))) =
      measure / ((n + 1) * (n + 2)) *
        ((∑ k : Fin (n + 1), ∑ l : Fin (n + 1), (node k - a) ⬝ᵥ (weight *ᵥ (node l - b))) +
          ∑ k : Fin (n + 1), (node k - a) ⬝ᵥ (weight *ᵥ (node k - b))) := by
  have expand : ∀ coordinates : Fin (n + 1) → ℝ, ∑ k, coordinates k = 1 →
      (point node coordinates - a) ⬝ᵥ (weight *ᵥ (point node coordinates - b)) =
        ∑ k, ∑ l, coordinates k * coordinates l *
          ((node k - a) ⬝ᵥ (weight *ᵥ (node l - b))) := by
    intro coordinates sum
    rw [point_sub sum, point_sub sum, sum_dotProduct]
    refine Finset.sum_congr rfl fun k _ => ?_
    rw [mulVec_sum, dotProduct_sum]
    refine Finset.sum_congr rfl fun l _ => ?_
    rw [mulVec_smul, dotProduct_smul, smul_dotProduct, smul_eq_mul, smul_eq_mul]
    ring
  rw [integral, simplexIntegral.congr expand, simplexIntegral.quadratic, one_pow,
    Nat.factorial_succ, Nat.factorial_succ]
  push_cast
  field_simp
  ring

/-- The distances of a node from the nodes opposite to the sides, as columns. -/
def distances (n : ℕ) (node : ℕ → Fin 3 → ℝ) (k : Fin (n + 1)) :
    Matrix (Fin 3) (Fin (n + 1)) ℝ :=
  of fun c i => (node k - node (opposite n i)) c

noncomputable def gramScale (n : ℕ) (node : ℕ → Fin 3 → ℝ) : ℝ :=
  (1 / (n * measure n node)) ^ 2 * (measure n node / ((n + 1) * (n + 2)))

theorem integral_const_mul (measure c : ℝ) (f : (Fin 3 → ℝ) → ℝ) :
    integral n measure node (fun x => c * f x) = c * integral n measure node f := by
  rw [integral, simplexIntegral.const_mul, integral]
  ring

theorem gram_apply (weight : Matrix (Fin 3) (Fin 3) ℝ) (i j : Fin (n + 1)) :
    gram n node weight i j = gramScale n node *
      ((∑ k : Fin (n + 1), ∑ l : Fin (n + 1),
        (node k - node (opposite n i)) ⬝ᵥ (weight *ᵥ (node l - node (opposite n j)))) +
      ∑ k : Fin (n + 1),
        (node k - node (opposite n i)) ⬝ᵥ (weight *ᵥ (node k - node (opposite n j)))) := by
  have scaled : ∀ x, basis n node i x ⬝ᵥ (weight *ᵥ basis n node j x) =
      (1 / (n * measure n node)) ^ 2 *
        ((x - node (opposite n i)) ⬝ᵥ (weight *ᵥ (x - node (opposite n j)))) := by
    intro x
    rw [basis, basis, mulVec_smul, dotProduct_smul, smul_dotProduct, smul_eq_mul, smul_eq_mul]
    ring
  simp only [gram, of_apply, scaled]
  rw [integral_const_mul, integral_bilinear, gramScale]
  ring

theorem gram_transpose (weight : Matrix (Fin 3) (Fin 3) ℝ) :
    (gram n node weight)ᵀ = gram n node weightᵀ := by
  ext i j
  rw [transpose_apply, gram, gram, of_apply, of_apply]
  refine congrArg (integral n (measure n node) node) (funext fun x => ?_)
  rw [dotProduct_mulVec, ← mulVec_transpose, dotProduct_comm]

theorem gram_smul (c : ℝ) (weight : Matrix (Fin 3) (Fin 3) ℝ) :
    gram n node (c • weight) = c • gram n node weight := by
  ext i j
  rw [Matrix.smul_apply, smul_eq_mul, gram, gram, of_apply, of_apply, ← integral_const_mul]
  refine congrArg (integral n (measure n node) node) (funext fun x => ?_)
  rw [smul_mulVec, dotProduct_smul, smul_eq_mul]

/-- The Gram matrix as a sum of congruent matrices. -/
theorem gram_eq (weight : Matrix (Fin 3) (Fin 3) ℝ) : gram n node weight =
    gramScale n node • ((∑ k, distances n node k)ᵀ * weight * (∑ k, distances n node k) +
      ∑ k, (distances n node k)ᵀ * weight * distances n node k) := by
  have entry : ∀ (k l i j : Fin (n + 1)),
      ((distances n node k)ᵀ * weight * distances n node l) i j =
        (node k - node (opposite n i)) ⬝ᵥ (weight *ᵥ (node l - node (opposite n j))) := by
    intro k l i j
    rw [Matrix.mul_assoc]
    rfl
  ext i j
  rw [gram_apply, Matrix.smul_apply, Matrix.add_apply, smul_eq_mul, transpose_sum, Matrix.sum_mul,
    Matrix.sum_mul, Matrix.sum_apply, Matrix.sum_apply]
  simp only [entry, Matrix.mul_sum, Matrix.sum_apply]

/-- The edges from the first node are independent. -/
def IndependentEdges (dim : ℕ) (node : ℕ → Fin 3 → ℝ) : Prop :=
  ∀ y : Fin dim → ℝ, ∑ k, y k • (node (k + 1) - node 0) = 0 → y = 0

theorem distances_mulVec (k : Fin (n + 1)) (x : Fin (n + 1) → ℝ) :
    distances n node k *ᵥ x = ∑ i, x i • (node k - node (opposite n i)) := by
  ext c
  simp only [mulVec, dotProduct, distances, of_apply, Finset.sum_apply, Pi.smul_apply,
    smul_eq_mul, mul_comm]

/-- A field of the element that vanishes in all nodes is zero. -/
theorem eq_zero_of_distances (bounded : n = 1 ∨ n = 2 ∨ n = 3)
    (independent : IndependentEdges n node) {x : Fin (n + 1) → ℝ}
    (vanishes : ∀ k, distances n node k *ᵥ x = 0) : x = 0 := by
  simp only [distances_mulVec] at vanishes
  rcases bounded with rfl | rfl | rfl
  · have first := independent ![x 0] (by
      ext c
      have component := congrFun (vanishes 0) c
      simp [Fin.sum_univ_succ, opposite] at component ⊢
      grind)
    have second := independent ![x 1] (by
      ext c
      have component := congrFun (vanishes 1) c
      simp [Fin.sum_univ_succ, opposite] at component ⊢
      grind)
    ext i
    fin_cases i
    · exact congrFun first 0
    · exact congrFun second 0
  · have first := independent ![x 2, x 0] (by
      ext c
      have component := congrFun (vanishes 0) c
      simp [Fin.sum_univ_succ, opposite] at component ⊢
      linarith)
    have second := independent ![x 1 + x 0, -x 0] (by
      ext c
      have component := congrFun (vanishes 1) c
      simp [Fin.sum_univ_succ, opposite] at component ⊢
      linarith)
    have zero : x 0 = 0 := congrFun first 1
    have one : x 1 + x 0 = 0 := congrFun second 0
    ext i
    fin_cases i
    · exact zero
    · simpa [zero] using one
    · exact congrFun first 0
  · have first := independent ![x 1, x 2, x 3] (by
      ext c
      have component := congrFun (vanishes 0) c
      simp [Fin.sum_univ_succ, opposite] at component ⊢
      linarith)
    have second := independent ![x 0 + x 2 + x 3, -x 2, -x 3] (by
      ext c
      have component := congrFun (vanishes 1) c
      simp [Fin.sum_univ_succ, opposite] at component ⊢
      linarith)
    have two : x 2 = 0 := congrFun first 1
    have three : x 3 = 0 := congrFun first 2
    have zero : x 0 + x 2 + x 3 = 0 := congrFun second 0
    ext i
    fin_cases i
    · simpa [two, three] using zero
    · exact congrFun first 0
    · exact two
    · exact three

theorem gram_posDef (bounded : n = 1 ∨ n = 2 ∨ n = 3) (independent : IndependentEdges n node)
    (positive : 0 < measure n node) {weight : Matrix (Fin 3) (Fin 3) ℝ}
    (posDef : weight.PosDef) : (gram n node weight).PosDef := by
  have square : ∀ root : Matrix (Fin 3) (Fin (n + 1)) ℝ, (rootᵀ * weight * root).PosSemidef :=
    fun root => posDef.posSemidef.conjTranspose_mul_mul_same root
  have scale : 0 < gramScale n node := by
    have dim : 0 < (n : ℝ) := by
      rcases bounded with rfl | rfl | rfl <;> norm_num
    unfold gramScale
    positivity
  have semidefinite := (square (∑ k, distances n node k)).add
    (posSemidef_sum Finset.univ fun k _ => square (distances n node k))
  rw [gram_eq]
  refine PosDef.smul (PosDef.of_dotProduct_mulVec_pos semidefinite.isHermitian fun x nonzero => ?_)
    scale
  obtain ⟨k, moves⟩ : ∃ k, distances n node k *ᵥ x ≠ 0 := by
    by_contra never
    push Not at never
    exact nonzero (eq_zero_of_distances bounded independent never)
  have value : ∀ root : Matrix (Fin 3) (Fin (n + 1)) ℝ,
      star x ⬝ᵥ ((rootᵀ * weight * root) *ᵥ x) = (root *ᵥ x) ⬝ᵥ (weight *ᵥ (root *ᵥ x)) := by
    intro root
    rw [star_trivial, ← mulVec_mulVec, ← mulVec_mulVec, dotProduct_mulVec, vecMul_transpose]
  have terms : ∀ root : Matrix (Fin 3) (Fin (n + 1)) ℝ,
      0 ≤ (root *ᵥ x) ⬝ᵥ (weight *ᵥ (root *ᵥ x)) :=
    fun root => posDef.posSemidef.dotProduct_mulVec_nonneg _
  rw [add_mulVec, dotProduct_add, sum_mulVec, dotProduct_sum, value]
  simp only [value]
  refine add_pos_of_nonneg_of_pos (terms _) (Finset.sum_pos' (fun _ _ => terms _)
    ⟨k, Finset.mem_univ k, posDef.dotProduct_mulVec_pos moves⟩)

end RaviartThomas

end Flow123d
