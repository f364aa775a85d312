import Flow123d.Ngh.Vectors
import Mathlib.Algebra.BigOperators.Fin
import Mathlib.Algebra.Order.Field.Basic
import Mathlib.LinearAlgebra.Matrix.DotProduct
import Mathlib.Tactic.Module
import Mathlib.Tactic.Positivity

/-!
# Points inside of triangles and tetrahedra

`IsInner` compares for each side on which side of it the opposite vertex and the point lie.
-/

set_option autoImplicit false

namespace Flow123d.Ngh

variable {K : Type} [Field K] [LinearOrder K]

structure TTriangle (K : Type) where
  X1 : TPoint K
  X2 : TPoint K
  X3 : TPoint K

structure TTetrahedron (K : Type) where
  X1 : TPoint K
  X2 : TPoint K
  X3 : TPoint K
  X4 : TPoint K

def TTriangle.isInner (T : TTriangle K) (P : TPoint K) : Bool :=
  let U1 := vector T.X1 T.X2
  let U2 := vector T.X2 T.X3
  let U3 := vector T.X3 T.X1
  let Up1 := vector T.X1 P
  let Up2 := vector T.X2 P
  let Up3 := vector T.X3 P
  if dot (cross Up1 U1) (cross U1 U3) < 0 then false
  else if dot (cross Up2 U2) (cross U2 U1) < 0 then false
  else if dot (cross Up3 U3) (cross U3 U2) < 0 then false
  else true

def TTetrahedron.isInner (T : TTetrahedron K) (P : TPoint K) : Bool :=
  let U1 := vector T.X1 T.X2
  let U2 := vector T.X1 T.X3
  let U3 := vector T.X1 T.X4
  let U4 := vector T.X2 T.X3
  let U5 := vector T.X2 T.X4
  let U6 := vector T.X2 T.X1
  let Up1 := vector T.X1 P
  let Up2 := vector T.X2 P
  -- X4 is on the opposite side of the plane X1, X2, X3 than P
  if dot (cross U1 U2) U3 * dot (cross U1 U2) Up1 < 0 then false
  else if dot (cross U1 U3) U2 * dot (cross U1 U3) Up1 < 0 then false
  else if dot (cross U2 U3) U1 * dot (cross U2 U3) Up1 < 0 then false
  else if dot (cross U4 U5) U6 * dot (cross U4 U5) Up2 < 0 then false
  else true

/-! ## Convex combinations -/

def IsConvexCombination {n : ℕ} (X : Fin n → TPoint K) (P : TPoint K) : Prop :=
  ∃ weight : Fin n → K, (∀ i, 0 ≤ weight i) ∧ ∑ i, weight i = 1 ∧ ∑ i, weight i • X i = P

namespace TTriangle

def vertices (T : TTriangle K) : Fin 3 → TPoint K := ![T.X1, T.X2, T.X3]

/-- Normal to the plane of the triangle. -/
def normal (T : TTriangle K) : TVector K := cross (vector T.X1 T.X2) (vector T.X1 T.X3)

def NonDegenerate (T : TTriangle K) : Prop := T.normal ≠ 0

def InPlane (T : TTriangle K) (P : TPoint K) : Prop := dot (vector T.X1 P) T.normal = 0

end TTriangle

namespace TTetrahedron

def vertices (T : TTetrahedron K) : Fin 4 → TPoint K := ![T.X1, T.X2, T.X3, T.X4]

/-- Six times the oriented volume. -/
def orientedVolume (T : TTetrahedron K) : K :=
  dot (cross (vector T.X1 T.X2) (vector T.X1 T.X3)) (vector T.X1 T.X4)

def NonDegenerate (T : TTetrahedron K) : Prop := T.orientedVolume ≠ 0

end TTetrahedron

/-! ## Barycentric coordinates -/

namespace TTriangle

theorem exists_weights [IsStrictOrderedRing K] {T : TTriangle K} (proper : T.NonDegenerate)
    {P : TPoint K} (plane : T.InPlane P) :
    ∃ weight : Fin 3 → K, ∑ i, weight i = 1 ∧ ∑ i, weight i • T.vertices i = P := by
  have nonzero : dot T.normal T.normal ≠ 0 := by
    intro zero
    rw [dot_eq, dotProduct_self_eq_zero] at zero
    exact proper zero
  have cramer := dot_cross_smul_eq plane
  obtain ⟨s, t, along⟩ : ∃ s t : K,
      vector T.X1 P = s • vector T.X1 T.X2 + t • vector T.X1 T.X3 := by
    have scaled := (eq_inv_smul_iff₀ nonzero).mpr cramer
    rw [smul_add, ← mul_smul, ← mul_smul] at scaled
    exact ⟨_, _, scaled⟩
  simp only [vector_eq] at along
  refine ⟨![1 - s - t, s, t], ?_, ?_⟩
  · simp only [Fin.sum_univ_three, Matrix.cons_val]
    ring
  · have point : P = T.X1 + (P - T.X1) := (add_sub_cancel T.X1 P).symm
    rw [point, along, Fin.sum_univ_three]
    simp only [vertices, Matrix.cons_val]
    module

omit [LinearOrder K] in
/-- What `IsInner` compares for the point with the given weights. -/
theorem inner_products {T : TTriangle K} {P : TPoint K} {weight : Fin 3 → K}
    (sum : ∑ i, weight i = 1) (point : ∑ i, weight i • T.vertices i = P) :
    dot (cross (vector T.X1 P) (vector T.X1 T.X2)) (cross (vector T.X1 T.X2) (vector T.X3 T.X1)) =
        weight 2 * dot T.normal T.normal ∧
      dot (cross (vector T.X2 P) (vector T.X2 T.X3))
        (cross (vector T.X2 T.X3) (vector T.X1 T.X2)) = weight 0 * dot T.normal T.normal ∧
      dot (cross (vector T.X3 P) (vector T.X3 T.X1))
        (cross (vector T.X3 T.X1) (vector T.X2 T.X3)) = weight 1 * dot T.normal T.normal := by
  have first : weight 0 = 1 - weight 1 - weight 2 := by
    rw [Fin.sum_univ_three] at sum
    linear_combination sum
  subst point
  refine ⟨?_, ?_, ?_⟩ <;>
    simp only [Fin.sum_univ_three, first, normal, vertices, dot, cross, vector, Matrix.cons_val,
      Pi.add_apply, Pi.smul_apply, smul_eq_mul] <;> ring

end TTriangle

namespace TTetrahedron

omit [LinearOrder K] in
theorem exists_weights {T : TTetrahedron K} (proper : T.NonDegenerate) (P : TPoint K) :
    ∃ weight : Fin 4 → K, ∑ i, weight i = 1 ∧ ∑ i, weight i • T.vertices i = P := by
  have cramer := dot_smul_eq (vector T.X1 T.X2) (vector T.X1 T.X3) (vector T.X1 T.X4)
    (vector T.X1 P)
  obtain ⟨s, t, u, along⟩ : ∃ s t u : K, vector T.X1 P =
      s • vector T.X1 T.X2 + t • vector T.X1 T.X3 + u • vector T.X1 T.X4 := by
    have scaled := (eq_inv_smul_iff₀ proper).mpr cramer
    rw [smul_add, smul_add, ← mul_smul, ← mul_smul, ← mul_smul] at scaled
    exact ⟨_, _, _, scaled⟩
  simp only [vector_eq] at along
  refine ⟨![1 - s - t - u, s, t, u], ?_, ?_⟩
  · simp only [Fin.sum_univ_four, Matrix.cons_val]
    ring
  · have point : P = T.X1 + (P - T.X1) := (add_sub_cancel T.X1 P).symm
    rw [point, along, Fin.sum_univ_four]
    simp only [vertices, Matrix.cons_val]
    module

omit [LinearOrder K] in
/-- The sides of the faces on which the point with the given weights lies. -/
theorem inner_products {T : TTetrahedron K} {P : TPoint K} {weight : Fin 4 → K}
    (sum : ∑ i, weight i = 1) (point : ∑ i, weight i • T.vertices i = P) :
    dot (cross (vector T.X1 T.X2) (vector T.X1 T.X3)) (vector T.X1 P) =
        weight 3 * dot (cross (vector T.X1 T.X2) (vector T.X1 T.X3)) (vector T.X1 T.X4) ∧
      dot (cross (vector T.X1 T.X2) (vector T.X1 T.X4)) (vector T.X1 P) =
        weight 2 * dot (cross (vector T.X1 T.X2) (vector T.X1 T.X4)) (vector T.X1 T.X3) ∧
      dot (cross (vector T.X1 T.X3) (vector T.X1 T.X4)) (vector T.X1 P) =
        weight 1 * dot (cross (vector T.X1 T.X3) (vector T.X1 T.X4)) (vector T.X1 T.X2) ∧
      dot (cross (vector T.X2 T.X3) (vector T.X2 T.X4)) (vector T.X2 P) =
        weight 0 * dot (cross (vector T.X2 T.X3) (vector T.X2 T.X4)) (vector T.X2 T.X1) := by
  have first : weight 0 = 1 - weight 1 - weight 2 - weight 3 := by
    rw [Fin.sum_univ_four] at sum
    linear_combination sum
  subst point
  refine ⟨?_, ?_, ?_, ?_⟩ <;>
    simp only [Fin.sum_univ_four, first, vertices, dot, cross, vector, Matrix.cons_val,
      Pi.add_apply, Pi.smul_apply, smul_eq_mul] <;> ring

omit [LinearOrder K] in
/-- The faces see the opposite vertices with the same volume. -/
theorem faces (T : TTetrahedron K) :
    dot (cross (vector T.X1 T.X2) (vector T.X1 T.X4)) (vector T.X1 T.X3) = -T.orientedVolume ∧
      dot (cross (vector T.X1 T.X3) (vector T.X1 T.X4)) (vector T.X1 T.X2) = T.orientedVolume ∧
      dot (cross (vector T.X2 T.X3) (vector T.X2 T.X4)) (vector T.X2 T.X1) =
        -T.orientedVolume := by
  refine ⟨?_, ?_, ?_⟩ <;>
    simp only [orientedVolume, dot, cross, vector, Matrix.cons_val] <;> ring

end TTetrahedron

/-! ## Membership -/

section Membership

variable [IsStrictOrderedRing K]

theorem nonneg_of_products {weight scale : K} (nonzero : scale ≠ 0) :
    ¬ scale * (weight * scale) < 0 ↔ 0 ≤ weight := by
  have square : scale * (weight * scale) = weight * (scale * scale) := by ring
  rw [square, not_lt, mul_nonneg_iff_of_pos_right (mul_self_pos.mpr nonzero)]

theorem nonneg_of_product {weight : K} {U : TVector K} (nonzero : U ≠ 0) :
    ¬ weight * dot U U < 0 ↔ 0 ≤ weight := by
  have positive : 0 < dot U U := by
    rw [dot_eq]
    exact lt_of_le_of_ne (Finset.sum_nonneg fun i _ => mul_self_nonneg (U i))
      fun zero => nonzero (dotProduct_self_eq_zero.mp zero.symm)
  rw [not_lt, mul_nonneg_iff_of_pos_right positive]

omit [Field K] [LinearOrder K] [IsStrictOrderedRing K] in
theorem ite_false_eq_true_iff {fails : Prop} [Decidable fails] {rest : Bool} :
    (if fails then false else rest) = true ↔ ¬ fails ∧ rest = true := by
  by_cases fails <;> simp [*]

theorem TTriangle.isInner_iff_nonneg {T : TTriangle K} (proper : T.NonDegenerate) {P : TPoint K}
    {weight : Fin 3 → K} (sum : ∑ i, weight i = 1) (point : ∑ i, weight i • T.vertices i = P) :
    T.isInner P = true ↔ ∀ i, 0 ≤ weight i := by
  obtain ⟨second, zeroth, first⟩ := inner_products sum point
  simp only [isInner, second, zeroth, first, ite_false_eq_true_iff, nonneg_of_product proper]
  constructor
  · intro ⟨nonneg2, nonneg0, nonneg1, _⟩ i
    fin_cases i
    · exact nonneg0
    · exact nonneg1
    · exact nonneg2
  · intro nonneg
    exact ⟨nonneg 2, nonneg 0, nonneg 1, trivial⟩

theorem TTetrahedron.isInner_iff_nonneg {T : TTetrahedron K} (proper : T.NonDegenerate)
    {P : TPoint K} {weight : Fin 4 → K} (sum : ∑ i, weight i = 1)
    (point : ∑ i, weight i • T.vertices i = P) : T.isInner P = true ↔ ∀ i, 0 ≤ weight i := by
  obtain ⟨third, second, first, zeroth⟩ := inner_products sum point
  obtain ⟨face2, face1, face0⟩ := T.faces
  have face3 : dot (cross (vector T.X1 T.X2) (vector T.X1 T.X3)) (vector T.X1 T.X4) =
      T.orientedVolume := rfl
  have opposite := neg_ne_zero.mpr proper
  simp only [isInner, third, second, first, zeroth, face3, face2, face1, face0,
    ite_false_eq_true_iff, nonneg_of_products proper, nonneg_of_products opposite]
  constructor
  · intro ⟨nonneg3, nonneg2, nonneg1, nonneg0, _⟩ i
    fin_cases i
    · exact nonneg0
    · exact nonneg1
    · exact nonneg2
    · exact nonneg3
  · intro nonneg
    exact ⟨nonneg 3, nonneg 2, nonneg 1, nonneg 0, trivial⟩

/-- `IsInner` says whether a point is in a triangle or in a tetrahedron. -/
theorem isInner_iff_convex :
    (∀ T : TTriangle K, T.NonDegenerate → ∀ P, T.InPlane P →
      (T.isInner P = true ↔ IsConvexCombination T.vertices P)) ∧
    ∀ T : TTetrahedron K, T.NonDegenerate → ∀ P,
      (T.isInner P = true ↔ IsConvexCombination T.vertices P) := by
  constructor
  · intro T proper P plane
    constructor
    · intro inner
      obtain ⟨weight, sum, point⟩ := TTriangle.exists_weights proper plane
      exact ⟨weight, (TTriangle.isInner_iff_nonneg proper sum point).mp inner, sum, point⟩
    · intro ⟨weight, nonneg, sum, point⟩
      exact (TTriangle.isInner_iff_nonneg proper sum point).mpr nonneg
  · intro T proper P
    constructor
    · intro inner
      obtain ⟨weight, sum, point⟩ := TTetrahedron.exists_weights proper P
      exact ⟨weight, (TTetrahedron.isInner_iff_nonneg proper sum point).mp inner, sum, point⟩
    · intro ⟨weight, nonneg, sum, point⟩
      exact (TTetrahedron.isInner_iff_nonneg proper sum point).mpr nonneg

end Membership

def unitTriangle : TTriangle ℚ := ⟨0, ![1, 0, 0], ![0, 1, 0]⟩

def unitTetrahedron : TTetrahedron ℚ := ⟨0, ![0, 1, 0], ![1, 0, 0], ![0, 0, 1]⟩

theorem isInner_iff_convex_unit :
    IsConvexCombination unitTriangle.vertices ![1 / 2, 1 / 2, 0] ∧
      ¬ IsConvexCombination unitTetrahedron.vertices ![1, 1, 1] := by
  have triangle : unitTriangle.NonDegenerate := by
    unfold TTriangle.NonDegenerate
    decide +kernel
  have plane : unitTriangle.InPlane ![1 / 2, 1 / 2, 0] := by
    unfold TTriangle.InPlane
    decide +kernel
  have tetrahedron : unitTetrahedron.NonDegenerate := by
    unfold TTetrahedron.NonDegenerate
    decide +kernel
  refine ⟨(isInner_iff_convex.1 unitTriangle triangle _ plane).mp (by decide +kernel),
    fun convex => ?_⟩
  have inner := (isInner_iff_convex.2 unitTetrahedron tetrahedron _).mpr convex
  exact absurd inner (by decide +kernel)

end Flow123d.Ngh
