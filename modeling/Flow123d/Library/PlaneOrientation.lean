import Mathlib.Analysis.Convex.Independent
import Mathlib.Tactic.FieldSimp
import Mathlib.Tactic.LinearCombination
import Mathlib.Tactic.Linarith
import Mathlib.Tactic.Positivity
import Flow123d.Library.Numerals

/-!
# Orientation in the plane

The side of a line on which a point lies, triangles, and points none of which is in the convex
hull of the others.
-/

set_option autoImplicit false

namespace Flow123d.Library.Plane

variable {K : Type} [Field K]

/-- Twice the signed area of a triangle. -/
def orient (A B P : K × K) : K := (B.1 - A.1) * (P.2 - A.2) - (B.2 - A.2) * (P.1 - A.1)

/-- The side of a line, where the sign of the factor decides which one is positive. -/
def side (r : K) (A B P : K × K) : K := r * orient A B P

variable {r : K} {A B C D P Q : K × K}

theorem side_rotate : side r A B P = side r B P A := by
  unfold side orient
  ring

theorem side_swap : side r B A P = -side r A B P := by
  unfold side orient
  ring

theorem side_swap_right : side r A P B = -side r A B P := by
  unfold side orient
  ring

@[simp]
theorem side_first : side r A B A = 0 := by
  unfold side orient
  ring

@[simp]
theorem side_second : side r A B B = 0 := by
  unfold side orient
  ring

theorem side_sum (P : K × K) :
    side r A B C = side r B C P + side r C A P + side r A B P := by
  unfold side orient
  ring

/-- The sides are the weights of a point in a triangle. -/
theorem side_smul (A B C P : K × K) :
    side r A B C • P = side r B C P • A + side r C A P • B + side r A B P • C := by
  unfold side orient
  ext
  · simp
    ring
  · simp
    ring

theorem side_combination {a b : K} (one : a + b = 1) :
    side r A B (a • P + b • Q) = a * side r A B P + b * side r A B Q := by
  have rest : b = 1 - a := by linear_combination one
  subst rest
  unfold side orient
  simp
  ring

/-- The four sides of a quadrilateral depend on each other. -/
theorem side_quadrilateral (A B C D Q : K × K) :
    side r B C D * side r C D A * side r A B Q + side r D A B * side r A B C * side r C D Q =
      side r D A B * side r C D A * side r B C Q + side r A B C * side r B C D * side r D A Q := by
  unfold side orient
  ring

variable [LinearOrder K] [IsStrictOrderedRing K]

theorem convex_side : Convex K {P | 0 ≤ side r A B P} := by
  intro P inside Q also a b first second one
  rw [Set.mem_ofPred_eq, side_combination one]
  exact add_nonneg (mul_nonneg first inside) (mul_nonneg second also)

/-- A point on the inner side of the three edges of a triangle. -/
theorem mem_triangle (positive : 0 < side r A B C) (first : 0 ≤ side r B C P)
    (second : 0 ≤ side r C A P) (third : 0 ≤ side r A B P) :
    P ∈ convexHull K {A, B, C} := by
  have vertices (Q : K × K) (vertex : Q ∈ ({A, B, C} : Set (K × K))) :
      Q ∈ convexHull K {A, B, C} := subset_convexHull K _ vertex
  have combination : P = (side r B C P / side r A B C) • A + (side r C A P / side r A B C) • B +
      (side r A B P / side r A B C) • C := by
    have weights := congrArg (fun X => (side r A B C)⁻¹ • X) (side_smul (r := r) A B C P)
    simp only [smul_add, smul_smul, inv_mul_cancel₀ positive.ne', one_smul] at weights
    rw [div_eq_inv_mul, div_eq_inv_mul, div_eq_inv_mul]
    exact weights
  have sum := (convex_convexHull K ({A, B, C} : Set (K × K))).sum_mem
    (t := Finset.univ) (w := ![side r B C P / side r A B C, side r C A P / side r A B C,
      side r A B P / side r A B C]) (z := ![A, B, C]) ?_ ?_ ?_
  · rw [Fin.sum_univ_three] at sum
    rw [combination]
    exact sum
  · intro i _
    fin_cases i
    · exact div_nonneg first positive.le
    · exact div_nonneg second positive.le
    · exact div_nonneg third positive.le
  · rw [Fin.sum_univ_three]
    change _ / _ + _ / _ + _ / _ = _
    rw [← add_div, ← add_div, ← side_sum, div_self positive.ne']
  · intro i _
    fin_cases i
    · exact vertices A (by simp)
    · exact vertices B (by simp)
    · exact vertices C (by simp)

/-! ## Points in convex position -/

variable {S : Set (K × K)}

omit [IsStrictOrderedRing K] in
theorem notMem_convexHull (independent : ConvexIndependent K ((↑) : S → K × K)) {T : Set (K × K)}
    (member : P ∈ S) (subset : T ⊆ S) (outside : P ∉ T) : P ∉ convexHull K T := by
  have others : T ⊆ S \ {P} := by
    intro Q inside
    exact ⟨subset inside, fun same => outside (same ▸ inside)⟩
  intro inside
  exact convexIndependent_set_iff_notMem_convexHull_sdiff.mp independent P member
    (convexHull_mono others inside)

theorem not_inside (independent : ConvexIndependent K ((↑) : S → K × K))
    (memberA : A ∈ S) (memberB : B ∈ S) (memberC : C ∈ S) (memberP : P ∈ S)
    (notA : P ≠ A) (notB : P ≠ B) (notC : P ≠ C)
    (first : 0 < side r B C P) (second : 0 < side r C A P) : side r A B P ≤ 0 := by
  by_contra third
  rw [not_le] at third
  have positive : 0 < side r A B C := by
    rw [side_sum P]
    exact add_pos (add_pos first second) third
  have subset : ({A, B, C} : Set (K × K)) ⊆ S := by
    rintro Q (rfl | rfl | rfl)
    · exact memberA
    · exact memberB
    · exact memberC
  have outside : P ∉ ({A, B, C} : Set (K × K)) := by simp [notA, notB, notC]
  exact notMem_convexHull independent memberP subset outside
    (mem_triangle positive first.le second.le third.le)

theorem exists_on_line (different : A ≠ B) (zero : orient A B P = 0) :
    ∃ t : K, P = (1 - t) • A + t • B := by
  unfold orient at zero
  by_cases first : B.1 - A.1 = 0
  · have second : B.2 - A.2 ≠ 0 := by
      intro second
      exact different (Prod.ext (sub_eq_zero.mp first).symm (sub_eq_zero.mp second).symm)
    rw [first, zero_mul, zero_sub, neg_eq_zero, mul_eq_zero, or_iff_right second] at zero
    refine ⟨(P.2 - A.2) / (B.2 - A.2), ?_⟩
    ext
    · simp
      linear_combination zero - (P.2 - A.2) / (B.2 - A.2) * first
    · simp
      field_simp
      ring
  · refine ⟨(P.1 - A.1) / (B.1 - A.1), ?_⟩
    ext
    · simp
      field_simp
      ring
    · simp
      field_simp
      linear_combination zero

/-- No three of the points are on a line. -/
theorem side_ne_zero (independent : ConvexIndependent K ((↑) : S → K × K)) (factor : r ≠ 0)
    (memberA : A ∈ S) (memberB : B ∈ S) (memberP : P ∈ S) (different : A ≠ B)
    (notA : P ≠ A) (notB : P ≠ B) : side r A B P ≠ 0 := by
  intro zero
  obtain ⟨t, rfl⟩ := exists_on_line different ((mul_eq_zero.mp zero).resolve_left factor)
  have outside {X Y Z : K × K} (memberX : X ∈ S) (memberY : Y ∈ S) (memberZ : Z ∈ S)
      (notY : X ≠ Y) (notZ : X ≠ Z) : X ∉ segment K Y Z := by
    intro inside
    have pair : ({Y, Z} : Set (K × K)) ⊆ S := by
      rintro W (rfl | rfl)
      · exact memberY
      · exact memberZ
    refine notMem_convexHull independent memberX pair (by simp [notY, notZ]) ?_
    rw [convexHull_pair]
    exact inside
  rcases lt_trichotomy t 0 with before | start | later
  · apply outside memberA memberP memberB notA.symm different
    have scale : 0 < 1 - t := by linarith
    refine ⟨1 / (1 - t), -t / (1 - t), by positivity, by
      apply div_nonneg _ scale.le
      linarith, by
      field_simp
      ring, ?_⟩
    rw [smul_add, smul_smul, smul_smul, one_div_mul_cancel scale.ne', one_smul, add_assoc,
      ← add_smul]
    have rest : 1 / (1 - t) * t + -t / (1 - t) = 0 := by ring
    rw [rest, zero_smul, add_zero]
  · apply notA
    rw [start]
    simp
  · rcases le_or_gt t 1 with inside | after
    · apply outside memberP memberA memberB notA notB
      exact ⟨1 - t, t, by linarith, later.le, by ring, rfl⟩
    · apply outside memberB memberA memberP different.symm notB.symm
      have less : 1 / t ≤ 1 := by
        rw [div_le_one later]
        exact after.le
      refine ⟨1 - 1 / t, 1 / t, by linarith, by positivity, by ring, ?_⟩
      rw [smul_add, smul_smul, smul_smul, one_div_mul_cancel later.ne', one_smul, ← add_assoc,
        ← add_smul]
      have rest : 1 - 1 / t + 1 / t * (1 - t) = 0 := by
        field_simp
        ring
      rw [rest, zero_smul, zero_add]

end Flow123d.Library.Plane
