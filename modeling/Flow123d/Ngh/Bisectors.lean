import Flow123d.Ngh.Gauss
import Flow123d.Ngh.Vectors

/-!
# Positions of two lines

The intersection of two bisectors is computed in two coordinates, in which the direction vectors
have nonzero components, and checked in the third one. Without rounding, lengths and differences
are tested for zero.
-/

set_option autoImplicit false

namespace Flow123d.Ngh

open Flow123d.Library Matrix

inductive TPosition where
  | skew
  | parallel
  | intersecting
  | same
  | belong
  deriving DecidableEq

variable {K : Type} [Field K] [LinearOrder K]

structure TBisector (K : Type) where
  X0 : TPoint K
  U : TVector K

namespace TBisector

def getPoint (B : TBisector K) (t : K) : TPoint K := fun i => B.U i * t + B.X0 i

/-- The distance of the point is tested for zero. -/
def belong (B : TBisector K) (P : TPoint K) : Bool := cross (vector P B.X0) B.U = 0

end TBisector

def areParallel (U V : TVector K) : Bool := cross U V = 0

/-- The last nonzero component. -/
def lastNonzero (isNonzero : Fin 3 → Bool) : Option (Fin 3) :=
  (List.finRange 3).foldl (fun r i => if isNonzero i then some i else r) none

/-- One of two equal rows is replaced by the first other one that has a nonzero component. -/
def separateRows (u v : Fin 3 → Bool) (r1 r2 : Option (Fin 3)) :
    List (Fin 3) → Option (Fin 3) × Option (Fin 3)
  | [] => (r1, r2)
  | i :: rest =>
      if some i ≠ r1 ∧ u i = true then (some i, r2)
      else if some i ≠ r2 ∧ v i = true then (r1, some i)
      else separateRows u v r1 r2 rest

/-- The rows of the system that is solved, by the nonzero components of the directions. -/
def chooseRows (u v : Fin 3 → Bool) : Option (Fin 3) × Option (Fin 3) :=
  let r1 := lastNonzero u
  let r2 := lastNonzero v
  if r1 = r2 then separateRows u v r1 r2 (List.finRange 3) else (r1, r2)

def thirdRow (r1 r2 : Fin 3) : Fin 3 :=
  ((List.finRange 3).find? fun i => r1 ≠ i ∧ r2 ≠ i).getD 0

/-- The position, and the parameters, which stay what they are unless the lines intersect. -/
structure Intersection (K : Type) where
  pos : TPosition
  t1 : K
  t2 : K

def intersectInRows (B1 B2 : TBisector K) (t1 t2 : K) (r1 r2 : Fin 3) : Intersection K :=
  let U := B1.U
  let V := B2.U
  let r3 := thirdRow r1 r2
  let A : Matrix (Fin 2) (Fin 2) K := !![U r1, -V r1; U r2, -V r2]
  let B := ![B2.X0 r1 - B1.X0 r1, B2.X0 r2 - B1.X0 r2]
  let X := gauss A 0 B
  if X.1 = .noSolution ∨ X.1 = .infSolutions then ⟨.skew, t1, t2⟩
  else if U r3 * X.2 0 - V r3 * X.2 1 = B2.X0 r3 - B1.X0 r3 then ⟨.intersecting, X.2 0, X.2 1⟩
  else ⟨.skew, t1, t2⟩

def getIntersection (B1 B2 : TBisector K) (t1 t2 : K) : Intersection K :=
  if areParallel B1.U B2.U then
    if B1.belong B2.X0 then ⟨.same, t1, t2⟩ else ⟨.parallel, t1, t2⟩
  else
    match chooseRows (fun i => B1.U i ≠ 0) (fun i => B2.U i ≠ 0) with
    | (some r1, some r2) => intersectInRows B1 B2 t1 t2 r1 r2
    | _ => ⟨.skew, t1, t2⟩

/-! ## Lines as sets of points -/

namespace TBisector

def points (B : TBisector K) : Set (TPoint K) := Set.range B.getPoint

def IsParallel (B1 B2 : TBisector K) : Prop := ∃ c : K, B2.U = c • B1.U

def Meets (B1 B2 : TBisector K) : Prop := (B1.points ∩ B2.points).Nonempty

end TBisector

def TPosition.Describes (B1 B2 : TBisector K) : TPosition → Prop
  | .same => B1.points = B2.points
  | .parallel => B1.IsParallel B2 ∧ ¬ B1.Meets B2
  | .intersecting => ¬ B1.IsParallel B2 ∧ B1.Meets B2
  | .skew => ¬ B1.IsParallel B2 ∧ ¬ B1.Meets B2
  | .belong => False

/-- The position of the lines, with the parameters of the common point if they intersect. -/
structure Intersection.Correct (B1 B2 : TBisector K) (result : Intersection K) : Prop where
  position : result.pos.Describes B1 B2
  parameters : result.pos = .intersecting → B1.getPoint result.t1 = B2.getPoint result.t2

/-! ## Parallel lines -/

section Parallel

variable {B1 B2 : TBisector K}

omit [LinearOrder K] in
theorem cross_eq_zero_iff {U V : TVector K} (nonzero : U ≠ 0) :
    cross U V = 0 ↔ ∃ c : K, V = c • U := by
  rw [cross_eq, ← not_iff_not, ← ne_eq, crossProduct_ne_zero_iff_linearIndependent,
    LinearIndependent.pair_iff' nonzero]
  simp [eq_comm]

omit [LinearOrder K] in
theorem getPoint_eq (B : TBisector K) (t : K) : B.getPoint t = B.X0 + t • B.U := by
  funext i
  simp only [TBisector.getPoint, Pi.add_apply, Pi.smul_apply, smul_eq_mul]
  ring

theorem areParallel_iff (nonzero : B1.U ≠ 0) :
    areParallel B1.U B2.U = true ↔ B1.IsParallel B2 := by
  unfold areParallel
  rw [decide_eq_true_iff]
  exact cross_eq_zero_iff nonzero

theorem belong_iff {P : TPoint K} (nonzero : B1.U ≠ 0) :
    B1.belong P = true ↔ P ∈ B1.points := by
  unfold TBisector.belong
  rw [decide_eq_true_iff, cross_eq, ← cross_anticomm, neg_eq_zero, ← cross_eq,
    cross_eq_zero_iff nonzero, vector_eq]
  constructor
  · rintro ⟨c, offset⟩
    refine ⟨-c, ?_⟩
    rw [getPoint_eq, neg_smul, ← offset]
    abel
  · rintro ⟨t, rfl⟩
    refine ⟨-t, ?_⟩
    rw [getPoint_eq, neg_smul]
    abel

omit [LinearOrder K] in
theorem TBisector.IsParallel.points_eq (parallel : B1.IsParallel B2) (nonzero : B2.U ≠ 0)
    (common : B2.X0 ∈ B1.points) : B1.points = B2.points := by
  obtain ⟨c, direction⟩ := parallel
  obtain ⟨s, start⟩ := common
  have factor : c ≠ 0 := by
    rintro rfl
    exact nonzero (direction.trans (zero_smul K _))
  rw [getPoint_eq] at start
  ext P
  constructor
  · rintro ⟨t, rfl⟩
    refine ⟨(t - s) / c, ?_⟩
    rw [getPoint_eq, getPoint_eq, direction, ← start, smul_smul, div_mul_cancel₀ _ factor,
      sub_smul]
    abel
  · rintro ⟨t, rfl⟩
    refine ⟨s + t * c, ?_⟩
    rw [getPoint_eq, getPoint_eq, direction, ← start, smul_smul, add_smul]
    abel

omit [LinearOrder K] in
theorem TBisector.IsParallel.mem_points (parallel : B1.IsParallel B2)
    (meets : B1.Meets B2) : B2.X0 ∈ B1.points := by
  obtain ⟨c, direction⟩ := parallel
  obtain ⟨P, ⟨t, rfl⟩, s, common⟩ := meets
  rw [getPoint_eq, getPoint_eq, direction, smul_smul] at common
  refine ⟨t - s * c, ?_⟩
  rw [getPoint_eq, sub_smul, add_sub_assoc', ← common]
  abel

end Parallel

/-! ## Rows -/

/-- The rows have nonzero components, and either the system is triangular, or the third
components are zero, or they are the first and the last one. -/
structure RowsChosen (u v : Fin 3 → Bool) (r1 r2 : Fin 3) : Prop where
  different : r1 ≠ r2
  first : u r1 = true
  second : v r2 = true
  others : u r2 = false ∨ v r1 = false ∨
    (∀ i, i ≠ r1 → i ≠ r2 → u i = false ∧ v i = false) ∨ (r1 = 0 ∧ r2 = 2)
  ends : u 0 = true → u 2 = true → v 0 = true → v 2 = true → r1 = 0 ∧ r2 = 2

instance (u v : Fin 3 → Bool) (r1 r2 : Fin 3) : Decidable (RowsChosen u v r1 r2) :=
  decidable_of_iff
    (r1 ≠ r2 ∧ u r1 = true ∧ v r2 = true ∧
      (u r2 = false ∨ v r1 = false ∨
        (∀ i, i ≠ r1 → i ≠ r2 → u i = false ∧ v i = false) ∨ (r1 = 0 ∧ r2 = 2)) ∧
      (u 0 = true → u 2 = true → v 0 = true → v 2 = true → r1 = 0 ∧ r2 = 2))
    ⟨fun ⟨different, first, second, others, ends⟩ => ⟨different, first, second, others, ends⟩,
      fun ⟨different, first, second, others, ends⟩ => ⟨different, first, second, others, ends⟩⟩

/-- The search depends on which of the six components are zero only. -/
theorem chooseRows_spec : ∀ u v : Fin 3 → Bool, (∃ i j, i ≠ j ∧ u i = true ∧ v j = true) →
    ∃ r1 r2, chooseRows u v = (some r1, some r2) ∧ RowsChosen u v r1 r2 := by
  decide +kernel

/-- The minor of the rows. -/
def minor (B1 B2 : TBisector K) (i j : Fin 3) : K := B1.U i * B2.U j - B1.U j * B2.U i

/-- The selected rows are the first and the last one, and their components are proportional. -/
def SingularRows (B1 B2 : TBisector K) : Prop :=
  B1.U 0 ≠ 0 ∧ B1.U 2 ≠ 0 ∧ B2.U 0 ≠ 0 ∧ B2.U 2 ≠ 0 ∧ minor B1 B2 0 2 = 0

section Selected

variable {B1 B2 : TBisector K}

omit [LinearOrder K] in
theorem minor_swap (i j : Fin 3) : minor B1 B2 j i = -minor B1 B2 i j := by
  unfold minor
  ring

omit [LinearOrder K] in
/-- The vector product is made up of the minors. -/
theorem exists_minor_ne_zero (nonzero : B1.U ≠ 0) (oblique : ¬ B1.IsParallel B2) :
    ∃ i j, i ≠ j ∧ minor B1 B2 i j ≠ 0 := by
  by_contra! none
  apply oblique
  apply (cross_eq_zero_iff nonzero).mp
  funext i
  fin_cases i
  · exact none 1 2 (by decide)
  · exact none 2 0 (by decide)
  · exact none 0 1 (by decide)

omit [LinearOrder K] in
theorem exists_components (nonzero : B1.U ≠ 0) (oblique : ¬ B1.IsParallel B2) :
    ∃ i j, i ≠ j ∧ B1.U i ≠ 0 ∧ B2.U j ≠ 0 := by
  obtain ⟨i, j, different, regular⟩ := exists_minor_ne_zero nonzero oblique
  by_cases first : B1.U i * B2.U j = 0
  · have second : B1.U j * B2.U i ≠ 0 := by
      intro zero
      exact regular (by rw [minor, first, zero, sub_zero])
    exact ⟨j, i, different.symm, left_ne_zero_of_mul second, right_ne_zero_of_mul second⟩
  · exact ⟨i, j, different, left_ne_zero_of_mul first, right_ne_zero_of_mul first⟩

omit [LinearOrder K] in
theorem minor_eq_zero {r1 r2 : Fin 3} (singular : minor B1 B2 r1 r2 = 0)
    (others : ∀ i, i ≠ r1 → i ≠ r2 → B1.U i = 0 ∧ B2.U i = 0) (i j : Fin 3) :
    minor B1 B2 i j = 0 := by
  have outside : ∀ k l, k ≠ r1 → k ≠ r2 → minor B1 B2 k l = 0 := by
    intro k l other1 other2
    obtain ⟨zero1, zero2⟩ := others k other1 other2
    rw [minor, zero1, zero2, zero_mul, mul_zero, sub_zero]
  by_cases inside : i = r1 ∨ i = r2
  · by_cases inside' : j = r1 ∨ j = r2
    · obtain rfl | rfl := inside <;> obtain rfl | rfl := inside'
      · exact sub_eq_zero_of_eq rfl
      · exact singular
      · rw [minor_swap, singular, neg_zero]
      · exact sub_eq_zero_of_eq rfl
    · rw [not_or] at inside'
      rw [minor_swap, outside j i inside'.1 inside'.2, neg_zero]
  · rw [not_or] at inside
    exact outside i j inside.1 inside.2

/-- The selected rows are singular in the one case only. -/
theorem minor_selected_iff (nonzero : B1.U ≠ 0) (oblique : ¬ B1.IsParallel B2) {r1 r2 : Fin 3}
    (chosen : RowsChosen (fun i => B1.U i ≠ 0) (fun i => B2.U i ≠ 0) r1 r2) :
    minor B1 B2 r1 r2 = 0 ↔ SingularRows B1 B2 := by
  have first : B1.U r1 ≠ 0 := of_decide_eq_true chosen.first
  have second : B2.U r2 ≠ 0 := of_decide_eq_true chosen.second
  constructor
  · intro singular
    have product : B1.U r2 * B2.U r1 ≠ 0 := by
      rw [minor, sub_eq_zero] at singular
      rw [← singular]
      exact mul_ne_zero first second
    obtain zero | zero | third | ⟨rfl, rfl⟩ := chosen.others
    · exact absurd (of_decide_eq_false zero) (not_not_intro (left_ne_zero_of_mul product))
    · exact absurd (of_decide_eq_false zero) (not_not_intro (right_ne_zero_of_mul product))
    · obtain ⟨i, j, different, regular⟩ := exists_minor_ne_zero nonzero oblique
      refine absurd ?_ regular
      exact minor_eq_zero singular (fun k other1 other2 =>
        (third k other1 other2).imp (fun zero => not_not.mp (of_decide_eq_false zero))
          fun zero => not_not.mp (of_decide_eq_false zero)) i j
    · exact ⟨first, left_ne_zero_of_mul product, right_ne_zero_of_mul product, second, singular⟩
  · rintro ⟨first0, first2, second0, second2, singular⟩
    obtain ⟨rfl, rfl⟩ := chosen.ends (decide_eq_true first0) (decide_eq_true first2)
      (decide_eq_true second0) (decide_eq_true second2)
    exact singular

/-! ## The common point -/

omit [LinearOrder K] in
theorem getPoint_eq_getPoint_iff {t1 t2 : K} : B1.getPoint t1 = B2.getPoint t2 ↔
    ∀ i, B1.U i * t1 - B2.U i * t2 = B2.X0 i - B1.X0 i := by
  rw [funext_iff]
  refine forall_congr' fun i => ?_
  unfold TBisector.getPoint
  constructor
  · intro same
    linear_combination same
  · intro same
    linear_combination same

omit [LinearOrder K] in
theorem meets_iff : B1.Meets B2 ↔
    ∃ t1 t2, ∀ i, B1.U i * t1 - B2.U i * t2 = B2.X0 i - B1.X0 i := by
  constructor
  · rintro ⟨P, ⟨t1, rfl⟩, t2, common⟩
    exact ⟨t1, t2, getPoint_eq_getPoint_iff.mp common.symm⟩
  · rintro ⟨t1, t2, solves⟩
    exact ⟨_, ⟨t1, rfl⟩, t2, (getPoint_eq_getPoint_iff.mpr solves).symm⟩

theorem thirdRow_spec : ∀ r1 r2 i : Fin 3, r1 ≠ r2 → i = r1 ∨ i = r2 ∨ i = thirdRow r1 r2 := by
  decide

end Selected

section Solved

variable [IsStrictOrderedRing K] {B1 B2 : TBisector K} {t1 t2 : K} {r1 r2 : Fin 3}

omit [LinearOrder K] [IsStrictOrderedRing K] in
theorem det_rows : (!![B1.U r1, -B2.U r1; B1.U r2, -B2.U r2] : Matrix (Fin 2) (Fin 2) K).det =
    -minor B1 B2 r1 r2 := by
  rw [det_fin_two_of, minor]
  ring

theorem intersectInRows_of_singular (singular : minor B1 B2 r1 r2 = 0) :
    (intersectInRows B1 B2 t1 t2 r1 r2).pos = .skew := by
  unfold intersectInRows
  extract_lets U V r3 A B X
  have other : X.1 ≠ .oneSolution := by
    intro one
    have regular := (gauss_iff_regular A 0 B).mp one
    rw [det_rows, singular, neg_zero] at regular
    exact regular rfl
  rw [if_pos (gauss_ne_oneSolution other)]

/-- The solution of the two equations is the only candidate for a common point, and the third
equation decides. -/
theorem intersectInRows_correct (oblique : ¬ B1.IsParallel B2) (different : r1 ≠ r2)
    (regular : minor B1 B2 r1 r2 ≠ 0) :
    Intersection.Correct B1 B2 (intersectInRows B1 B2 t1 t2 r1 r2) := by
  unfold intersectInRows
  extract_lets U V r3 A B X
  have determinant : A.det ≠ 0 := by
    rw [det_rows]
    exact neg_ne_zero.mpr regular
  have one : X.1 = .oneSolution := (gauss_iff_regular A 0 B).mpr determinant
  have solves : A *ᵥ X.2 = B := gauss_solves A 0 B one
  have row1 : U r1 * X.2 0 - V r1 * X.2 1 = B2.X0 r1 - B1.X0 r1 := by
    have entry := congrFun solves 0
    simp [A, B, mulVec, dotProduct] at entry
    linear_combination entry
  have row2 : U r2 * X.2 0 - V r2 * X.2 1 = B2.X0 r2 - B1.X0 r2 := by
    have entry := congrFun solves 1
    simp [A, B, mulVec, dotProduct] at entry
    linear_combination entry
  rw [if_neg (by simp [one])]
  by_cases third : U r3 * X.2 0 - V r3 * X.2 1 = B2.X0 r3 - B1.X0 r3
  · have common : B1.getPoint (X.2 0) = B2.getPoint (X.2 1) := by
      apply getPoint_eq_getPoint_iff.mpr
      intro i
      obtain rfl | rfl | rfl := thirdRow_spec r1 r2 i different
      · exact row1
      · exact row2
      · exact third
    rw [if_pos third]
    exact ⟨⟨oblique, _, ⟨_, rfl⟩, _, common.symm⟩, fun _ => common⟩
  · rw [if_neg third]
    refine ⟨⟨oblique, ?_⟩, nofun⟩
    rw [meets_iff]
    rintro ⟨s1, s2, all⟩
    have same : A *ᵥ ![s1, s2] = A *ᵥ X.2 := by
      rw [solves]
      ext k
      fin_cases k
      · simpa [A, B, mulVec, dotProduct, sub_eq_add_neg] using all r1
      · simpa [A, B, mulVec, dotProduct, sub_eq_add_neg] using all r2
    have unique : ![s1, s2] = X.2 :=
      mulVec_injective_of_isUnit ((isUnit_iff_isUnit_det A).mpr determinant.isUnit) same
    rw [← unique] at third
    exact third (all r3)

end Solved

/-- The position is right unless the lines intersect and the selected rows are singular. -/
theorem getIntersection_correct_iff [IsStrictOrderedRing K] (B1 B2 : TBisector K) (t1 t2 : K)
    (nonzero1 : B1.U ≠ 0) (nonzero2 : B2.U ≠ 0) :
    Intersection.Correct B1 B2 (getIntersection B1 B2 t1 t2) ↔
      B1.IsParallel B2 ∨ ¬ B1.Meets B2 ∨ ¬ SingularRows B1 B2 := by
  unfold getIntersection
  by_cases parallel : B1.IsParallel B2
  · rw [if_pos ((areParallel_iff nonzero1).mpr parallel)]
    refine iff_of_true ?_ (.inl parallel)
    by_cases common : B1.belong B2.X0 = true
    · rw [if_pos common]
      exact ⟨parallel.points_eq nonzero2 ((belong_iff nonzero1).mp common), nofun⟩
    · rw [if_neg common]
      exact ⟨⟨parallel, fun meets =>
        common ((belong_iff nonzero1).mpr (parallel.mem_points meets))⟩, nofun⟩
  · rw [if_neg (mt (areParallel_iff nonzero1).mp parallel)]
    obtain ⟨i, j, different, first, second⟩ := exists_components nonzero1 parallel
    obtain ⟨r1, r2, rows, chosen⟩ := chooseRows_spec (fun i => B1.U i ≠ 0) (fun i => B2.U i ≠ 0)
      ⟨i, j, different, decide_eq_true first, decide_eq_true second⟩
    rw [rows]
    by_cases singular : minor B1 B2 r1 r2 = 0
    · have position : (intersectInRows B1 B2 t1 t2 r1 r2).pos = .skew :=
        intersectInRows_of_singular singular
      have shape := (minor_selected_iff nonzero1 parallel chosen).mp singular
      simp only [parallel, shape, not_true, or_false, false_or]
      constructor
      · intro correct
        have described := correct.position
        rw [position] at described
        exact described.2
      · intro apart
        refine ⟨?_, ?_⟩
        · rw [position]
          exact ⟨parallel, apart⟩
        · rw [position]
          exact nofun
    · have shape := mt (minor_selected_iff nonzero1 parallel chosen).mpr singular
      exact iff_of_true (intersectInRows_correct parallel chosen.different singular)
        (.inr (.inr shape))

/-- Two lines through the origin. -/
def diagonal : TBisector ℚ := ⟨0, ![1, 1, 1]⟩

def steep : TBisector ℚ := ⟨0, ![1, 2, 1]⟩

theorem getIntersection_correct_iff_axes :
    Intersection.Correct (⟨0, ![1, 0, 0]⟩ : TBisector ℚ) ⟨0, ![0, 1, 0]⟩
      (getIntersection ⟨0, ![1, 0, 0]⟩ ⟨0, ![0, 1, 0]⟩ 0 0) := by
  apply (getIntersection_correct_iff _ _ 0 0 (by decide) (by decide)).mpr
  exact .inr (.inr fun singular => singular.2.1 rfl)

theorem not_always_correct :
    ¬ Intersection.Correct diagonal steep (getIntersection diagonal steep 0 0) := by
  intro correct
  have position : (getIntersection diagonal steep 0 0).pos = .skew := by decide +kernel
  have described := correct.position
  rw [position] at described
  exact described.2 (meets_iff.mpr ⟨0, 0, by decide +kernel⟩)

end Flow123d.Ngh
