import Mathlib.Geometry.Euclidean.Volume.Measure
import Mathlib.Analysis.InnerProductSpace.PiL2
import Mathlib.LinearAlgebra.AffineSpace.FiniteDimensional
import Flow123d.Library.PolygonArea

/-!
# Planes in space

Coordinates of a plane, and areas in it as two-dimensional measures of sets in space.
-/

set_option autoImplicit false

namespace Flow123d.Library.Plane

open MeasureTheory Module

variable {V : Type} [NormedAddCommGroup V] [InnerProductSpace ℝ V]

/-- A point and two orthogonal unit vectors. -/
structure Frame (V : Type) [NormedAddCommGroup V] [InnerProductSpace ℝ V] where
  origin : V
  first : V
  second : V
  norm_first : ‖first‖ = 1
  norm_second : ‖second‖ = 1
  orthogonal : inner ℝ first second = 0

namespace Frame

variable (frame : Frame V)

def direction : ℝ × ℝ →ₗ[ℝ] V :=
  (LinearMap.toSpanSingleton ℝ V frame.first).coprod (LinearMap.toSpanSingleton ℝ V frame.second)

theorem direction_apply (P : ℝ × ℝ) :
    frame.direction P = P.1 • frame.first + P.2 • frame.second := rfl

/-- The point with the given coordinates. -/
def point (P : ℝ × ℝ) : V := frame.origin + frame.direction P

theorem inner_direction (P Q : ℝ × ℝ) :
    inner ℝ (frame.direction P) (frame.direction Q) = P.1 * Q.1 + P.2 * Q.2 := by
  have swapped : inner ℝ frame.second frame.first = 0 := by
    rw [real_inner_comm]
    exact frame.orthogonal
  rw [direction_apply, direction_apply, inner_add_left, inner_add_right, inner_add_right]
  simp only [inner_smul_left, inner_smul_right, real_inner_self_eq_norm_sq, frame.norm_first,
    frame.norm_second, frame.orthogonal, swapped, conj_trivial]
  ring

theorem norm_direction (P : ℝ × ℝ) : ‖frame.direction P‖ = √(P.1 ^ 2 + P.2 ^ 2) := by
  rw [norm_eq_sqrt_real_inner, inner_direction, sq, sq]

theorem point_sub (P Q : ℝ × ℝ) : frame.point P - frame.point Q = frame.direction (P - Q) := by
  rw [point, point, add_sub_add_left_eq_sub, map_sub]

theorem isometry :
    Isometry fun x : EuclideanSpace ℝ (Fin 2) => frame.point (x 0, x 1) := by
  apply Isometry.of_dist_eq
  intro x y
  rw [dist_eq_norm, frame.point_sub, frame.norm_direction, EuclideanSpace.dist_eq,
    Fin.sum_univ_two, Real.dist_eq, Real.dist_eq, sq_abs, sq_abs]
  rfl

theorem injective : Function.Injective frame.point := by
  intro P Q same
  have coordinates : !₂[P.1, P.2] = !₂[Q.1, Q.2] := frame.isometry.injective same
  exact Prod.ext (congrFun (congrArg WithLp.ofLp coordinates) 0)
    (congrFun (congrArg WithLp.ofLp coordinates) 1)

theorem area_image [MeasurableSpace V] [BorelSpace V] (S : Set (ℝ × ℝ)) :
    Measure.euclideanHausdorffMeasure 2 (frame.point '' S) = volume S := by
  have coordinates : frame.point '' S = (fun x : EuclideanSpace ℝ (Fin 2) =>
      frame.point (x 0, x 1)) '' (Set.preimage (fun x => (x 0, x 1)) S) := by
    ext P
    constructor
    · rintro ⟨Q, inside, rfl⟩
      exact ⟨!₂[Q.1, Q.2], inside, rfl⟩
    · rintro ⟨x, inside, rfl⟩
      exact ⟨(x 0, x 1), inside, rfl⟩
  rw [coordinates, frame.isometry.euclideanHausdorffMeasure_image,
    EuclideanSpace.euclideanHausdorffMeasure_eq_volume]
  have preserving := (volume_preserving_finTwoArrow ℝ).comp
    (EuclideanSpace.volume_preserving_symm_measurableEquiv_toLp (Fin 2))
  exact preserving.measure_preimage_equiv (f := (MeasurableEquiv.toLp 2 _).symm.trans
    MeasurableEquiv.finTwoArrow) S

theorem convexHull_image (S : Set (ℝ × ℝ)) :
    convexHull ℝ (frame.point '' S) = frame.point '' convexHull ℝ S :=
  ((AffineMap.const ℝ (ℝ × ℝ) frame.origin + frame.direction.toAffineMap).image_convexHull S).symm

end Frame

/-- An embedding that keeps hulls keeps dependences of points. -/
theorem convexIndependent_of_image {E F : Type} [AddCommGroup E] [Module ℝ E] [AddCommGroup F]
    [Module ℝ F] {f : E → F} (injective : Function.Injective f)
    (hull : ∀ S, convexHull ℝ (f '' S) = f '' convexHull ℝ S) {S : Set E}
    (independent : ConvexIndependent ℝ ((↑) : f '' S → F)) :
    ConvexIndependent ℝ ((↑) : S → E) := by
  rw [convexIndependent_set_iff_notMem_convexHull_sdiff] at independent ⊢
  intro P member inside
  apply independent (f P) ⟨P, member, rfl⟩
  rw [← Set.image_singleton, ← Set.image_sdiff injective, hull]
  exact ⟨P, inside, rfl⟩

/-- A direction across the plane of the points. -/
theorem exists_normal [FiniteDimensional ℝ V] (three : finrank ℝ V = 3) {S : Set V}
    (coplanar : Coplanar ℝ S) : ∃ normal : V, normal ≠ 0 ∧ vectorSpan ℝ S ≤ (ℝ ∙ normal)ᗮ := by
  have small := (coplanar_iff_finrank_le_two).mp coplanar
  have sum := (vectorSpan ℝ S).finrank_add_finrank_orthogonal
  have some : (vectorSpan ℝ S)ᗮ ≠ ⊥ := by
    intro none
    rw [none, finrank_bot] at sum
    omega
  obtain ⟨normal, orthogonal, notZero⟩ := Submodule.exists_mem_ne_zero_of_ne_bot some
  refine ⟨normal, notZero, ?_⟩
  rw [Submodule.le_orthogonal_iff_le_orthogonal, Submodule.span_singleton_le_iff_mem]
  exact orthogonal

theorem exists_frame_across [FiniteDimensional ℝ V] (three : finrank ℝ V = 3) {normal : V}
    (notZero : normal ≠ 0) (origin : V) :
    ∃ frame : Frame V, frame.origin = origin ∧ (ℝ ∙ normal)ᗮ ≤ frame.direction.range := by
  have two : finrank ℝ (ℝ ∙ normal)ᗮ = 2 := by
    have : Fact (finrank ℝ V = 2 + 1) := ⟨three⟩
    exact Submodule.finrank_orthogonal_span_singleton notZero
  let basis := (stdOrthonormalBasis ℝ (ℝ ∙ normal)ᗮ).reindex (finCongr two)
  refine ⟨⟨origin, basis 0, basis 1, basis.norm_eq_one 0, basis.norm_eq_one 1,
    basis.inner_eq_zero Fin.zero_ne_one⟩, rfl, ?_⟩
  intro U across
  have sum := congrArg Subtype.val (basis.sum_repr ⟨U, across⟩)
  rw [Fin.sum_univ_two] at sum
  exact ⟨(basis.repr ⟨U, across⟩ 0, basis.repr ⟨U, across⟩ 1), sum⟩

/-- Points in a plane have coordinates there. -/
theorem exists_frame [FiniteDimensional ℝ V] (three : finrank ℝ V = 3) {S : Set V}
    (coplanar : Coplanar ℝ S) : ∃ frame : Frame V, S ⊆ Set.range frame.point := by
  obtain ⟨normal, notZero, across⟩ := exists_normal three coplanar
  rcases S.eq_empty_or_nonempty with rfl | ⟨origin, member⟩
  · obtain ⟨frame, -⟩ := exists_frame_across three notZero 0
    exact ⟨frame, Set.empty_subset _⟩
  · obtain ⟨frame, rfl, whole⟩ := exists_frame_across three notZero origin
    refine ⟨frame, ?_⟩
    intro P inside
    have difference := vsub_mem_vectorSpan ℝ inside member
    obtain ⟨Q, same⟩ := whole (across difference)
    refine ⟨Q, ?_⟩
    rw [Frame.point, same, vsub_eq_sub, add_sub_cancel]

end Flow123d.Library.Plane
