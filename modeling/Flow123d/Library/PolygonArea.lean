import Mathlib.Analysis.Convex.Topology
import Mathlib.Analysis.SpecialFunctions.PolarCoord
import Flow123d.Library.ConvexPolygon

/-!
# Areas of convex polygons

The area of a triangle, and how the area of a hull grows with a new point.
-/

set_option autoImplicit false

namespace Flow123d.Library.Plane

open MeasureTheory Pointwise

/-! ## Triangles -/

theorem volume_line {A B : ℝ × ℝ} (different : A ≠ B) :
    volume {P : ℝ × ℝ | orient A B P = 0} = 0 := by
  have onLine : {P : ℝ × ℝ | orient A B P = 0} ⊆ (affineSpan ℝ {A, B} : Set (ℝ × ℝ)) := by
    intro P zero
    obtain ⟨t, rfl⟩ := exists_on_line different zero
    rw [SetLike.mem_coe, mem_affineSpan_pair_iff_exists_lineMap_eq]
    exact ⟨t, AffineMap.lineMap_apply_module _ _ _⟩
  refine measure_mono_null onLine (Measure.addHaar_affineSubspace volume _ ?_)
  intro whole
  have corner : (A.1 - (B.2 - A.2), A.2 + (B.1 - A.1)) ∈ affineSpan ℝ {A, B} := by
    rw [whole]
    exact AffineSubspace.mem_top ℝ _ _
  obtain ⟨t, same⟩ := mem_affineSpan_pair_iff_exists_lineMap_eq.mp corner
  rw [AffineMap.lineMap_apply_module] at same
  have first := congrArg Prod.fst same
  have second := congrArg Prod.snd same
  simp at first second
  apply different
  have zero : (B.1 - A.1) ^ 2 + (B.2 - A.2) ^ 2 = 0 := by
    linear_combination -(B.1 - A.1) * second + (B.2 - A.2) * first
  have squares :=
    (add_eq_zero_iff_of_nonneg (sq_nonneg (B.1 - A.1)) (sq_nonneg (B.2 - A.2))).mp zero
  exact Prod.ext (sub_eq_zero.mp (pow_eq_zero_iff two_ne_zero |>.mp squares.1)).symm
    (sub_eq_zero.mp (pow_eq_zero_iff two_ne_zero |>.mp squares.2)).symm

/-- The triangle with the corners 0, (1, 0) and (0, 1). -/
def unitTriangle : Set (ℝ × ℝ) := {P | 0 ≤ P.1 ∧ 0 ≤ P.2 ∧ P.1 + P.2 ≤ 1}

theorem unitTriangle_eq : unitTriangle = convexHull ℝ {(0, 0), (1, 0), (0, 1)} := by
  apply subset_antisymm
  · rintro P ⟨first, second, sum⟩
    apply mem_triangle (r := 1)
    · simp [side, orient]
    · simp [side, orient]
      linarith
    · simp [side, orient]
      exact first
    · simp [side, orient]
      exact second
  · apply convexHull_min
    · rintro P (rfl | rfl | rfl)
      · simp [unitTriangle]
      · simp [unitTriangle]
      · simp [unitTriangle]
    · rintro P ⟨first, second, sum⟩ Q ⟨third, fourth, also⟩ a b nonnegA nonnegB one
      refine ⟨?_, ?_, ?_⟩
      · exact add_nonneg (mul_nonneg nonnegA first) (mul_nonneg nonnegB third)
      · exact add_nonneg (mul_nonneg nonnegA second) (mul_nonneg nonnegB fourth)
      · simp only [Prod.fst_add, Prod.snd_add, Prod.smul_fst, Prod.smul_snd, smul_eq_mul]
        nlinarith [mul_le_mul_of_nonneg_left sum nonnegA, mul_le_mul_of_nonneg_left also nonnegB]

theorem measurableSet_unitTriangle : MeasurableSet unitTriangle := by
  rw [unitTriangle_eq]
  exact ((Set.toFinite _).isClosed_convexHull ℝ).measurableSet

/-- The other half of the unit square. -/
theorem volume_turned_unitTriangle :
    volume (Set.preimage (fun P : ℝ × ℝ => (1, 1) + (-1 : ℝ) • P) unitTriangle) =
      volume unitTriangle := by
  have split : Set.preimage (fun P : ℝ × ℝ => (1, 1) + (-1 : ℝ) • P) unitTriangle =
      Set.preimage (fun P : ℝ × ℝ => (-1 : ℝ) • P)
        (Set.preimage (fun P => (1, 1) + P) unitTriangle) := rfl
  rw [split, Measure.addHaar_preimage_smul _ (by norm_num), measure_preimage_add]
  simp

theorem volume_unitTriangle : volume unitTriangle = ENNReal.ofReal (1 / 2) := by
  have square : unitTriangle ∪
      Set.preimage (fun P : ℝ × ℝ => (1, 1) + (-1 : ℝ) • P) unitTriangle =
        Set.Icc 0 1 ×ˢ Set.Icc 0 1 := by
    ext P
    simp only [unitTriangle, Set.mem_union, Set.mem_preimage, Set.mem_prod, Set.mem_Icc,
      Set.mem_ofPred_eq, Prod.fst_add, Prod.snd_add, Prod.smul_fst, Prod.smul_snd, smul_eq_mul]
    constructor
    · rintro (⟨first, second, sum⟩ | ⟨first, second, sum⟩)
      · exact ⟨⟨first, by linarith⟩, second, by linarith⟩
      · exact ⟨⟨by linarith, by linarith⟩, by linarith, by linarith⟩
    · rintro ⟨⟨first, second⟩, third, fourth⟩
      rcases le_total (P.1 + P.2) 1 with low | high
      · exact .inl ⟨first, third, low⟩
      · exact .inr ⟨by linarith, by linarith, by linarith⟩
  have overlap : volume (unitTriangle ∩
      Set.preimage (fun P : ℝ × ℝ => (1, 1) + (-1 : ℝ) • P) unitTriangle) = 0 := by
    refine measure_mono_null ?_ (volume_line (A := (1, 0)) (B := (0, 1)) (by simp))
    rintro P ⟨⟨-, -, low⟩, -, -, high⟩
    simp only [Prod.fst_add, Prod.snd_add, Prod.smul_fst, Prod.smul_snd, smul_eq_mul] at high
    simp only [orient, Set.mem_ofPred_eq]
    linarith
  have whole := measure_union₀' measurableSet_unitTriangle.nullMeasurableSet overlap
  rw [square, Measure.volume_eq_prod, Measure.prod_prod, Real.volume_Icc,
    ← Measure.volume_eq_prod, volume_turned_unitTriangle, sub_zero, ENNReal.ofReal_one, mul_one,
    ← two_mul] at whole
  rw [ENNReal.ofReal_div_of_pos two_pos, ENNReal.ofReal_one, ENNReal.ofReal_ofNat,
    ENNReal.eq_div_iff two_ne_zero ENNReal.ofNat_ne_top]
  exact whole.symm

theorem volume_triangle (A B C : ℝ × ℝ) :
    volume (convexHull ℝ {A, B, C}) = ENNReal.ofReal (|orient A B C| / 2) := by
  let map := Matrix.toLin (Module.Basis.finTwoProd ℝ) (Module.Basis.finTwoProd ℝ)
    !![B.1 - A.1, C.1 - A.1; B.2 - A.2, C.2 - A.2]
  have corners : ({A, B, C} : Set (ℝ × ℝ)) = A +ᵥ map '' {(0, 0), (1, 0), (0, 1)} := by
    have first : A + (0, 0) = A := by ext <;> simp
    have second : A + (B.1 - A.1, B.2 - A.2) = B := by ext <;> simp
    have third : A + (C.1 - A.1, C.2 - A.2) = C := by ext <;> simp
    simp only [map, Set.image_insert_eq, Set.image_singleton, Matrix.toLin_finTwoProd_apply,
      Set.vadd_set_insert, Set.vadd_set_singleton, vadd_eq_add, mul_zero, mul_one, add_zero,
      zero_add, first, second, third]
  have determinant : LinearMap.det map = orient A B C := by
    rw [LinearMap.det_toLin, Matrix.det_fin_two_of, orient]
    ring
  rw [corners, convexHull_vadd, measure_vadd, ← LinearMap.image_convexHull, ← unitTriangle_eq,
    Measure.addHaar_image_linearMap, determinant, volume_unitTriangle,
    ← ENNReal.ofReal_mul (abs_nonneg _), mul_one_div]

/-! ## Polygons -/

/-- Twice the signed areas of the triangles over the edges. -/
noncomputable def fanSum (r : ℝ) (l : List (ℝ × ℝ)) (P : ℝ × ℝ) : ℝ :=
  ((edges l).map fun e => side r e.1 e.2 P).sum

variable {r : ℝ} {l : List (ℝ × ℝ)} {A B C P Q : ℝ × ℝ}

theorem fanSum_rotate (n : ℕ) : fanSum r (l.rotate n) P = fanSum r l P := by
  unfold fanSum
  rw [edges_rotate, List.map_rotate]
  exact (List.rotate_perm _ n).sum_eq

theorem fanSum_triangle : fanSum r [A, B, C] P = side r A B C := by
  rw [side_sum P]
  change side r A B P + (side r B C P + (side r C A P + 0)) = _
  ring

theorem fanSum_cons {front rest : List (ℝ × ℝ)} (same : B :: rest = front ++ [A]) :
    fanSum r (Q :: B :: rest) P = fanSum r (B :: rest) P - side r A B Q := by
  unfold fanSum
  rw [edges_cons_eq same, edges_eq same, List.map_cons, List.map_append, List.map_append,
    List.sum_cons, List.sum_append, List.sum_append, side_sum (A := A) P]
  change _ + (_ + (side r A Q P + 0)) = _ + (side r A B P + 0) - _
  have first : side r Q B P = -side r B Q P := side_swap
  have second : side r A Q P = -side r Q A P := side_swap
  rw [first, second]
  ring

theorem isCompact_hull (l : List (ℝ × ℝ)) : IsCompact (convexHull ℝ {X | X ∈ l}) :=
  l.finite_toSet.isCompact_convexHull ℝ

theorem real_volume_triangle (A B C : ℝ × ℝ) :
    |r| * volume.real (convexHull ℝ {A, B, C}) = |side r A B C| / 2 := by
  rw [Measure.real, volume_triangle, ENNReal.toReal_ofReal (by positivity), side, abs_mul,
    mul_div_assoc]

/-- The area of the hull is the sum of the triangles over the edges. -/
def Filled (r : ℝ) (l : List (ℝ × ℝ)) : Prop :=
  ∀ P, fanSum r l P / 2 = |r| * volume.real (convexHull ℝ {X | X ∈ l})

theorem filled_triangle (positive : 0 < side r A B C) : Filled r [A, B, C] := by
  intro P
  have items : {X : ℝ × ℝ | X ∈ [A, B, C]} = {A, B, C} := by
    ext X
    simp
  rw [fanSum_triangle, items, real_volume_triangle, abs_of_pos positive]

/-- The triangle over an edge meets the hull in the line of the edge. -/
theorem volume_hull_inter {S T : Set (ℝ × ℝ)} (factor : r ≠ 0) (different : A ≠ B)
    (inner : ∀ P ∈ S, 0 ≤ side r A B P) (outer : ∀ P ∈ T, side r A B P ≤ 0) :
    volume (S ∩ T) = 0 := by
  refine measure_mono_null ?_ (volume_line different)
  rintro P ⟨inS, inT⟩
  have zero := le_antisymm (outer P inT) (inner P inS)
  exact (mul_eq_zero.mp zero).resolve_left factor

variable {S : Set (ℝ × ℝ)}

theorem Filled.insertIdx (filled : Filled r l) (outside : Outside r S l Q) (three : 3 ≤ l.length)
    {k : ℕ} (edge : (edges l)[k]? = some (A, B)) (visible : side r A B Q < 0) :
    Filled r (l.insertIdx (k + 1) Q) := by
  have bound : k < l.length := by
    rw [← length_edges]
    exact (List.getElem?_eq_some_iff.mp edge).1
  have listed := List.mem_of_getElem? edge
  have grown : convexHull ℝ {X | X ∈ l.insertIdx (k + 1) Q} =
      convexHull ℝ {X | X ∈ l} ∪ convexHull ℝ {A, Q, B} :=
    Set.ext (outside.insertIdx three edge visible).2
  have outer (P : ℝ × ℝ) (inside : P ∈ convexHull ℝ {A, Q, B}) : side r A B P ≤ 0 := by
    have subset : convexHull ℝ {A, Q, B} ⊆ {X | 0 ≤ side r B A X} := by
      refine convexHull_min ?_ convex_side
      rintro X (rfl | rfl | rfl)
      · exact (side_second (r := r)).ge
      · rw [Set.mem_ofPred_eq, side_swap]
        exact (neg_pos.mpr visible).le
      · exact (side_first (r := r)).ge
    have turned : 0 ≤ side r B A P := subset inside
    rw [side_swap] at turned
    exact neg_nonneg.mp turned
  have overlap : volume (convexHull ℝ {X | X ∈ l} ∩ convexHull ℝ {A, Q, B}) = 0 :=
    volume_hull_inter outside.factor (ne_of_side_neg visible)
      (fun P inside => outside.boundary.nonneg_of_mem_convexHull listed inside) outer
  intro P
  have area : volume.real (convexHull ℝ {X | X ∈ l.insertIdx (k + 1) Q}) =
      volume.real (convexHull ℝ {X | X ∈ l}) + volume.real (convexHull ℝ {A, Q, B}) := by
    have finite : volume (convexHull ℝ {A, Q, B}) ≠ ⊤ :=
      ((Set.toFinite _).isCompact_convexHull ℝ).measure_lt_top.ne
    rw [grown]
    exact measureReal_union₀' (isCompact_hull l).measurableSet.nullMeasurableSet overlap
      (isCompact_hull l).measure_lt_top.ne finite
  have sum : fanSum r (l.insertIdx (k + 1) Q) P = fanSum r l P - side r A B Q := by
    obtain ⟨a, b, front, rest, turned, same, here⟩ := exists_rotate_eq bound
    rw [here] at edge
    cases edge
    rw [← fanSum_rotate (k + 1), rotate_insertIdx (Nat.succ_le_of_lt bound), turned,
      fanSum_cons same, ← turned, fanSum_rotate]
  have opposite : 0 < side r A Q B := by
    rw [side_swap_right]
    exact neg_pos.mpr visible
  rw [area, mul_add, real_volume_triangle, abs_of_pos opposite, ← filled P, sum,
    side_swap_right (P := B)]
  ring

/-- Two points have no area. -/
theorem volume_hull_of_short (distinct : l.Nodup) (short : l.length < 3) :
    volume (convexHull ℝ {X | X ∈ l}) = 0 := by
  match l, distinct, short with
  | [], _, _ => simp
  | [A], _, _ => simp
  | [A, B], distinct, _ =>
      have different : A ≠ B := by
        rintro rfl
        exact (List.nodup_cons.mp distinct).1 List.mem_cons_self
      refine measure_mono_null ?_ (volume_line different)
      have flat : ConvexCycle 1 [A, B] := by
        intro e edge P member notFirst notSecond
        change e ∈ [(A, B), (B, A)] at edge
        simp only [List.mem_cons, List.not_mem_nil, or_false] at edge member
        rcases edge with rfl | rfl
        · exact (member.elim notFirst notSecond).elim
        · exact (member.elim notSecond notFirst).elim
      intro P inside
      have left := flat.nonneg_of_mem_convexHull (e := (A, B)) List.mem_cons_self inside
      have right := flat.nonneg_of_mem_convexHull (e := (B, A))
        (List.mem_cons_of_mem _ List.mem_cons_self) inside
      rw [side_swap] at right
      have zero := le_antisymm (neg_nonneg.mp right) left
      rw [side, one_mul] at zero
      exact zero

/-! ## The center -/

noncomputable def mean (l : List (ℝ × ℝ)) : ℝ × ℝ :=
  ((l.map Prod.fst).sum / l.length, (l.map Prod.snd).sum / l.length)

theorem sum_side (l : List (ℝ × ℝ)) :
    (l.map (side r A B)).sum = r * ((B.1 - A.1) * ((l.map Prod.snd).sum - l.length * A.2) -
      (B.2 - A.2) * ((l.map Prod.fst).sum - l.length * A.1)) := by
  induction l with
  | nil => simp
  | cons P l ih =>
      rw [List.map_cons, List.sum_cons, ih, side, orient]
      simp only [List.map_cons, List.sum_cons, List.length_cons, Nat.cast_add, Nat.cast_one]
      ring

theorem ConvexCycle.nonneg_mean (boundary : ConvexCycle r l) {e : (ℝ × ℝ) × ℝ × ℝ}
    (edge : e ∈ edges l) : 0 ≤ side r e.1 e.2 (mean l) := by
  have filled : (l.length : ℝ) ≠ 0 := by
    rw [Nat.cast_ne_zero]
    exact (List.length_pos_of_mem (mem_of_mem_edges edge).1).ne'
  have sum : side r e.1 e.2 (mean l) = (l.map (side r e.1 e.2)).sum / l.length := by
    rw [sum_side, side, orient, mean]
    field_simp
  rw [sum]
  apply div_nonneg _ (Nat.cast_nonneg _)
  apply List.sum_nonneg
  intro x member
  obtain ⟨P, inside, rfl⟩ := List.mem_map.mp member
  exact boundary.nonneg edge inside

/-- The sum of the areas of the triangles with a point inside. -/
theorem Filled.area_eq (filled : Filled r l) (factor : r ≠ 0)
    (inner : ∀ e ∈ edges l, 0 ≤ side r e.1 e.2 P) :
    ((edges l).map fun e => |orient P e.1 e.2| / 2).sum =
      volume.real (convexHull ℝ {X | X ∈ l}) := by
  have scaled : ((edges l).map fun e => |orient P e.1 e.2| / 2).sum =
      fanSum r l P / 2 / |r| := by
    have terms (e : (ℝ × ℝ) × ℝ × ℝ) (edge : e ∈ edges l) :
        |orient P e.1 e.2| / 2 = side r e.1 e.2 P * (1 / 2 / |r|) := by
      have nonneg := inner e edge
      rw [← abs_of_nonneg nonneg, ← side_rotate, side, abs_mul]
      field_simp
    rw [List.map_congr_left terms, List.sum_map_mul_right, fanSum]
    ring
  rw [scaled, filled P, mul_div_cancel_left₀ _ (abs_ne_zero.mpr factor)]

end Flow123d.Library.Plane
