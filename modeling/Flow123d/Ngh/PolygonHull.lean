import Mathlib.Analysis.Convex.Strict.Extreme
import Flow123d.Library.PlaneFrame
import Flow123d.Ngh.Polygon

/-!
# Polygons as convex hulls

The vertices of a polygon are in the order of the boundary of their hull after every call, and the
area is the one of the hull.
-/

set_option autoImplicit false

namespace Flow123d.Ngh

open Flow123d.Library.Plane MeasureTheory

abbrev Space := EuclideanSpace ℝ (Fin 3)

/-- The two-dimensional measure of a set in space. -/
noncomputable def areaOfSet (S : Set (TPoint ℝ)) : ℝ :=
  (Measure.euclideanHausdorffMeasure 2 (WithLp.toLp 2 '' S : Set Space)).toReal

/-- All other vertices are on the same side of each edge. -/
def BoundaryOrder (verteces : List (TPoint ℝ)) : Prop :=
  ∃ normal : TVector ℝ, ∀ e ∈ edges verteces, ∀ P ∈ verteces, P ≠ e.1 → P ≠ e.2 →
    0 < dot (cross (vector e.1 e.2) (vector e.1 P)) normal

/-! ## Coordinates in the plane of the points -/

section Coordinates

variable (frame : Frame Space)

noncomputable def place (P : ℝ × ℝ) : TPoint ℝ := (frame.point P).ofLp

theorem place_injective : Function.Injective (place frame) :=
  (WithLp.ofLp_injective 2).comp frame.injective

theorem toLp_place (S : Set (ℝ × ℝ)) : WithLp.toLp 2 '' (place frame '' S) = frame.point '' S := by
  rw [Set.image_image]
  rfl

theorem vector_place (A B : ℝ × ℝ) :
    vector (place frame A) (place frame B) = (frame.direction (B - A)).ofLp := by
  rw [vector_eq, place, place, ← WithLp.ofLp_sub, frame.point_sub]

theorem dot_ofLp (U V : Space) : dot U.ofLp V.ofLp = inner ℝ U V := by
  rw [PiLp.inner_apply, Fin.sum_univ_three]
  simp [dot, mul_comm]

theorem dot_cross_direction (P Q R T : ℝ × ℝ) :
    dot (cross (frame.direction P).ofLp (frame.direction Q).ofLp)
      (cross (frame.direction R).ofLp (frame.direction T).ofLp) =
        (P.1 * Q.2 - P.2 * Q.1) * (R.1 * T.2 - R.2 * T.1) := by
  rw [cross_eq, cross_eq, dot_eq, cross_dot_cross]
  simp only [← dot_eq, dot_ofLp, Frame.inner_direction]
  ring

theorem dot_cross_place (A B P C D E : ℝ × ℝ) :
    dot (cross (vector (place frame A) (place frame B)) (vector (place frame A) (place frame P)))
      (cross (vector (place frame C) (place frame D)) (vector (place frame C) (place frame E))) =
        side (orient C D E) A B P := by
  simp only [vector_place, dot_cross_direction, side, orient, Prod.fst_sub, Prod.snd_sub]
  ring

theorem getArea_place (A B C : ℝ × ℝ) :
    TTriangle.getArea Real.sqrt ⟨place frame A, place frame B, place frame C⟩ =
      |orient A B C| / 2 := by
  have square := dot_cross_direction frame (B - A) (C - B) (B - A) (C - B)
  have twice : (B - A).1 * (C - B).2 - (B - A).2 * (C - B).1 = orient A B C := by
    simp only [orient, Prod.fst_sub, Prod.snd_sub]
    ring
  rw [twice, dot, ← sq, ← sq, ← sq, ← sq] at square
  simp only [TTriangle.getArea, length, vector_place]
  rw [square, Real.sqrt_sq_eq_abs]
  ring

theorem convexHull_place (S : Set (ℝ × ℝ)) :
    convexHull ℝ (place frame '' S) = place frame '' convexHull ℝ S := by
  have linear := (WithLp.linearEquiv 2 ℝ (Fin 3 → ℝ)).toLinearMap.image_convexHull
    (frame.point '' S)
  rw [frame.convexHull_image, Set.image_image, Set.image_image] at linear
  exact linear.symm

theorem areaOfSet_place (S : Set (ℝ × ℝ)) :
    areaOfSet (place frame '' S) = volume.real S := by
  rw [areaOfSet, toLp_place, frame.area_image, Measure.real]

theorem sum_place (l : List (ℝ × ℝ)) (i : Fin 3) :
    ((l.map (place frame)).map (· i)).sum = l.length * frame.origin i +
      (l.map Prod.fst).sum * frame.first i + (l.map Prod.snd).sum * frame.second i := by
  induction l with
  | nil => simp
  | cons P l ih =>
      have coordinate : place frame P i =
          frame.origin i + (P.1 * frame.first i + P.2 * frame.second i) := rfl
      rw [List.map_cons, List.map_cons, List.sum_cons, ih, coordinate]
      simp only [List.map_cons, List.sum_cons, List.length_cons, Nat.cast_add, Nat.cast_one]
      ring

theorem centerOf_place {l : List (ℝ × ℝ)} (three : 3 ≤ l.length) :
    TPolygon.centerOf (l.map (place frame)) = place frame (mean l) := by
  have many : ¬ (l.map (place frame)).length < 3 := by
    rw [List.length_map]
    exact not_lt.mpr three
  have filled : (l.length : ℝ) ≠ 0 := Nat.cast_ne_zero.mpr (by omega)
  rw [TPolygon.centerOf, if_neg many]
  ext i
  have coordinate : place frame (mean l) i =
      frame.origin i + ((mean l).1 * frame.first i + (mean l).2 * frame.second i) := rfl
  rw [sum_place, coordinate, List.length_map, mean]
  field_simp
  ring

theorem areaOf_place {r : ℝ} {l : List (ℝ × ℝ)} (three : 3 ≤ l.length) (factor : r ≠ 0)
    (boundary : ConvexCycle r l) (filled : Filled r l) :
    TPolygon.areaOf Real.sqrt (l.map (place frame)) =
      areaOfSet (convexHull ℝ (place frame '' {P | P ∈ l})) := by
  have many : ¬ (l.map (place frame)).length < 3 := by
    rw [List.length_map]
    exact not_lt.mpr three
  rw [convexHull_place, areaOfSet_place, ← filled.area_eq factor (P := mean l)
    fun e edge => boundary.nonneg_mean edge, TPolygon.areaOf, if_neg many,
    centerOf_place frame three, edges_map, List.map_map]
  congr 1
  apply List.map_congr_left
  intro e _
  exact getArea_place frame (mean l) e.1 e.2

theorem areaOf_place_of_short {l : List (ℝ × ℝ)} (distinct : l.Nodup) (short : l.length < 3) :
    TPolygon.areaOf Real.sqrt (l.map (place frame)) =
      areaOfSet (convexHull ℝ (place frame '' {P | P ∈ l})) := by
  have few : (l.map (place frame)).length < 3 := by
    rw [List.length_map]
    exact short
  rw [convexHull_place, areaOfSet_place, Measure.real, volume_hull_of_short distinct short,
    TPolygon.areaOf, if_pos few, ENNReal.toReal_zero]

end Coordinates

/-! ## The polygon in the plane -/

namespace TPolygon

variable {frame : Frame Space} {S : Set (ℝ × ℝ)} {polygon : TPolygon ℝ} {l : List (ℝ × ℝ)}
  {Q : ℝ × ℝ}

/-- From three points on the order and the area are right, for one of the two orientations. -/
structure Ordered (frame : Frame Space) (normal : TVector ℝ) (r : ℝ) (l : List (ℝ × ℝ)) :
    Prop where
  factor : r ≠ 0
  normal : ∀ A B P, dot (cross (vector (place frame A) (place frame B))
    (vector (place frame A) (place frame P))) normal = side r A B P
  boundary : ConvexCycle r l
  filled : Filled r l

/-- The polygon has the vertices with the given coordinates. -/
structure Drawn (frame : Frame Space) (S : Set (ℝ × ℝ)) (polygon : TPolygon ℝ)
    (l : List (ℝ × ℝ)) : Prop where
  verteces : polygon.verteces = l.map (place frame)
  subset : ∀ P ∈ l, P ∈ S
  distinct : l.Nodup
  ordered : 3 ≤ l.length → ∃ r, Ordered frame polygon.normalVector r l
  silent : polygon.messages = []

theorem drawn_empty : Drawn frame S empty [] where
  verteces := rfl
  subset := nofun
  distinct := List.nodup_nil
  ordered := nofun
  silent := rfl

/-- No two of the points are taken for the same one. -/
def Apart (frame : Frame Space) (S : Set (ℝ × ℝ)) : Prop :=
  ∀ P ∈ S, ∀ Q ∈ S, equalPoints (place frame P) (place frame Q) = true → P = Q

theorem equalPoints_self (P : TPoint ℝ) : equalPoints P P = true := by
  simp [equalPoints, isEqual, epsilon]

theorem Drawn.known_iff (drawn : Drawn frame S polygon l) (apart : Apart frame S)
    (member : Q ∈ S) : polygon.verteces.any (equalPoints · (place frame Q)) = true ↔ Q ∈ l := by
  rw [drawn.verteces, List.any_map, List.any_eq_true]
  constructor
  · rintro ⟨P, inside, same⟩
    rw [← apart P (drawn.subset P inside) Q member same]
    exact inside
  · intro inside
    exact ⟨Q, inside, equalPoints_self _⟩

theorem Drawn.insert (drawn : Drawn frame S polygon l) (member : Q ∈ S) (new : Q ∉ l)
    (unknown : ¬ polygon.verteces.any (equalPoints · (place frame Q)) = true)
    {normal : TVector ℝ} {k : ℕ} (bound : k ≤ l.length)
    (position : polygon.insertPosition (place frame Q) =
      ({ polygon with normalVector := normal }, k))
    (ordered : 3 ≤ (l.insertIdx k Q).length → ∃ r, Ordered frame normal r (l.insertIdx k Q)) :
    Drawn frame S (polygon.add (place frame Q)) (l.insertIdx k Q) := by
  rw [add_of_new unknown, position]
  refine ⟨?_, ?_, ?_, ordered, drawn.silent⟩
  · dsimp only
    rw [drawn.verteces, List.map_insertIdx]
  · intro P inside
    rcases List.eq_or_mem_of_mem_insertIdx inside with rfl | old
    · exact member
    · exact drawn.subset P old
  · exact ((List.perm_insertIdx Q l bound).nodup_iff).mpr
      (List.nodup_cons.mpr ⟨new, drawn.distinct⟩)

/-- The third point decides the orientation. -/
theorem ordered_triangle {A B C : ℝ × ℝ} (notZero : orient A B C ≠ 0) :
    Ordered frame (cross (vector (place frame A) (place frame B))
      (vector (place frame A) (place frame C))) (orient A B C) [A, B, C] := by
  have positive : 0 < side (orient A B C) A B C := mul_self_pos.mpr notZero
  exact ⟨notZero, fun _ _ _ => dot_cross_place frame _ _ _ A B C, convexCycle_triangle positive,
    filled_triangle positive⟩

/-- One step of the search for the place of a new point. -/
theorem Ordered.insert {normal : TVector ℝ} {r : ℝ} (ordered : Ordered frame normal r l)
    (outside : Outside r S l Q) (three : 3 ≤ l.length)
    {front back : List ((ℝ × ℝ) × ℝ × ℝ)} {e : (ℝ × ℝ) × ℝ × ℝ}
    (split : edges l = front ++ e :: back) (visible : side r e.1 e.2 Q < 0) :
    Ordered frame normal r (l.insertIdx (front.length + 1) Q) := by
  have edge : (edges l)[front.length]? = some (e.1, e.2) := by
    rw [split, List.getElem?_append_right (Nat.le_refl _), Nat.sub_self]
    rfl
  exact ⟨ordered.factor, ordered.normal, (outside.insertIdx three edge visible).1,
    ordered.filled.insertIdx outside three edge visible⟩

theorem Drawn.insertPosition_eq (drawn : Drawn frame S polygon l) {r : ℝ}
    (ordered : Ordered frame polygon.normalVector r l) (three : 3 ≤ l.length)
    {front back : List ((ℝ × ℝ) × ℝ × ℝ)} {e : (ℝ × ℝ) × ℝ × ℝ}
    (split : edges l = front ++ e :: back) (visible : side r e.1 e.2 Q < 0)
    (inner : ∀ other ∈ front ++ back, 0 ≤ side r other.1 other.2 Q) :
    polygon.insertPosition (place frame Q) = (polygon, front.length + 1) := by
  have many : 3 ≤ polygon.verteces.length := by
    rw [drawn.verteces, List.length_map]
    exact three
  have placed : edges polygon.verteces =
      front.map (Prod.map (place frame) (place frame)) ++
        Prod.map (place frame) (place frame) e ::
          back.map (Prod.map (place frame) (place frame)) := by
    rw [drawn.verteces, edges_map, split, List.map_append, List.map_cons]
  have negative := (ordered.normal e.1 e.2 Q).trans_lt visible
  have product := TPolygon.insertPosition_eq many placed negative ?_
  · rw [product, List.length_map]
  · rw [← List.map_append]
    intro other member
    obtain ⟨edge, listed, rfl⟩ := List.mem_map.mp member
    rw [not_lt]
    exact (inner edge listed).trans_eq (ordered.normal edge.1 edge.2 Q).symm

/-- A new point gets its place. -/
theorem Drawn.exists_place (drawn : Drawn frame S polygon l)
    (independent : ConvexIndependent ℝ ((↑) : S → ℝ × ℝ)) (member : Q ∈ S) (new : Q ∉ l)
    (unknown : ¬ polygon.verteces.any (equalPoints · (place frame Q)) = true) :
    ∃ k ≤ l.length, Drawn frame S (polygon.add (place frame Q)) (l.insertIdx k Q) := by
  match l, drawn, new with
  | [], drawn, new =>
      have position : polygon.insertPosition (place frame Q) = (polygon, 0) := by
        simp [insertPosition, drawn.verteces]
      exact ⟨0, Nat.le_refl 0, drawn.insert member new unknown (Nat.le_refl 0) position (by simp)⟩
  | [A], drawn, new =>
      have position : polygon.insertPosition (place frame Q) = (polygon, 1) := by
        simp [insertPosition, drawn.verteces]
      exact ⟨1, Nat.le_refl 1, drawn.insert member new unknown (Nat.le_refl 1) position (by simp)⟩
  | [A, B], drawn, new =>
      have different : A ≠ B := by
        rintro rfl
        exact (List.nodup_cons.mp drawn.distinct).1 List.mem_cons_self
      have notZero : side 1 A B Q ≠ 0 := side_ne_zero independent one_ne_zero
        (drawn.subset A (by simp)) (drawn.subset B (by simp)) member different
        (fun same => new (by simp [same])) (fun same => new (by simp [same]))
      rw [side, one_mul] at notZero
      have triangle := @ordered_triangle frame A B Q notZero
      generalize turned : cross (vector (place frame A) (place frame B))
        (vector (place frame A) (place frame Q)) = normal at triangle
      have position : polygon.insertPosition (place frame Q) =
          ({ polygon with normalVector := normal }, 2) := by
        simp [insertPosition, drawn.verteces, turned]
      exact ⟨2, Nat.le_refl 2, drawn.insert member new unknown (Nat.le_refl 2) position
        fun _ => ⟨_, triangle⟩⟩
  | A :: B :: C :: rest, drawn, new =>
      have three : 3 ≤ (A :: B :: C :: rest).length := by simp
      obtain ⟨r, ordered⟩ := drawn.ordered three
      have outside : Outside r S (A :: B :: C :: rest) Q :=
        ⟨ordered.factor, independent, drawn.subset, member, new, drawn.distinct,
          ordered.boundary⟩
      obtain ⟨front, e, back, split, visible, inner⟩ := outside.exists_split three
      have bound : front.length + 1 ≤ (A :: B :: C :: rest).length := by
        rw [← length_edges (A :: B :: C :: rest), split, List.length_append, List.length_cons]
        omega
      have position := drawn.insertPosition_eq ordered three split visible inner
      exact ⟨_, bound, drawn.insert member new unknown bound position
        fun _ => ⟨r, ordered.insert outside three split visible⟩⟩

theorem Drawn.add (drawn : Drawn frame S polygon l)
    (independent : ConvexIndependent ℝ ((↑) : S → ℝ × ℝ)) (apart : Apart frame S)
    (member : Q ∈ S) :
    ∃ next, Drawn frame S (polygon.add (place frame Q)) next ∧ ∀ P, P ∈ next ↔ P = Q ∨ P ∈ l := by
  by_cases known : Q ∈ l
  · refine ⟨l, ?_, ?_⟩
    · rw [add_of_known ((drawn.known_iff apart member).mpr known)]
      exact drawn
    · intro P
      exact ⟨.inr, fun either => either.elim (fun same => same ▸ known) id⟩
  · have unknown := mt (drawn.known_iff apart member).mp known
    obtain ⟨k, bound, next⟩ := drawn.exists_place independent member known unknown
    exact ⟨_, next, fun P => List.mem_insertIdx bound⟩

theorem Drawn.call_of_asks (drawn : Drawn frame S polygon l) (actual : Actual Real.sqrt polygon)
    {call : Call ℝ} (asks : ∀ P, call ≠ .add P) :
    Drawn frame S (polygon.call Real.sqrt call) l := by
  obtain ⟨verteces, normal, messages⟩ := actual.call_eq call asks
  refine ⟨verteces.trans drawn.verteces, drawn.subset, drawn.distinct, ?_,
    messages.trans drawn.silent⟩
  rw [normal]
  exact drawn.ordered

/-! ## All calls -/

theorem run_concat (sqrt : ℝ → ℝ) (calls : List (Call ℝ)) (last : Call ℝ) :
    run sqrt (calls ++ [last]) = (run sqrt calls).call sqrt last :=
  List.foldl_append

theorem actual_run (sqrt : ℝ → ℝ) (calls : List (Call ℝ)) : Actual sqrt (run sqrt calls) := by
  induction calls using List.reverseRecOn with
  | nil => exact actual_empty
  | append_singleton calls last ih =>
      rw [run_concat]
      exact ih.call last

theorem points_append (calls more : List (Call ℝ)) :
    points (calls ++ more) = points calls ++ points more :=
  List.filterMap_append

theorem run_drawn (independent : ConvexIndependent ℝ ((↑) : S → ℝ × ℝ)) (apart : Apart frame S)
    {calls : List (Call ℝ)} (inside : ∀ P ∈ points calls, ∃ Q ∈ S, place frame Q = P) :
    ∃ l, Drawn frame S (run Real.sqrt calls) l ∧
      ∀ Q, Q ∈ l ↔ place frame Q ∈ points calls := by
  induction calls using List.reverseRecOn with
  | nil => exact ⟨[], drawn_empty, fun Q => iff_of_false List.not_mem_nil List.not_mem_nil⟩
  | append_singleton calls last ih =>
      simp only [points_append, List.mem_append] at inside ⊢
      obtain ⟨l, drawn, items⟩ := ih fun P member => inside P (.inl member)
      rw [run_concat]
      cases last with
      | add P =>
          obtain ⟨Q, member, rfl⟩ := inside P (.inr List.mem_cons_self)
          obtain ⟨next, after, grown⟩ := drawn.add independent apart member
          refine ⟨next, after, ?_⟩
          intro R
          rw [grown, items, or_comm]
          apply or_congr_right
          exact (place_injective frame).eq_iff.symm.trans List.mem_singleton.symm
      | getArea =>
          refine ⟨l, drawn.call_of_asks (actual_run _ calls) nofun, ?_⟩
          intro Q
          rw [items]
          exact (or_iff_left List.not_mem_nil).symm
      | getCenter =>
          refine ⟨l, drawn.call_of_asks (actual_run _ calls) nofun, ?_⟩
          intro Q
          rw [items]
          exact (or_iff_left List.not_mem_nil).symm

/-- The polygon is the boundary of the hull of the points. -/
structure HullOf (points : List (TPoint ℝ)) (polygon : TPolygon ℝ) : Prop where
  once : polygon.verteces.Nodup
  members : ∀ P, P ∈ polygon.verteces ↔ P ∈ points
  ordered : 3 ≤ polygon.verteces.length → BoundaryOrder polygon.verteces
  area : (polygon.getArea Real.sqrt).2 = areaOfSet (convexHull ℝ {P | P ∈ points})
  silent : polygon.messages = []

theorem Drawn.boundaryOrder (drawn : Drawn frame S polygon l) (three : 3 ≤ l.length) :
    BoundaryOrder polygon.verteces := by
  obtain ⟨r, ordered⟩ := drawn.ordered three
  refine ⟨polygon.normalVector, ?_⟩
  rw [drawn.verteces, edges_map]
  intro edge listed P member notFirst notSecond
  obtain ⟨e, old, rfl⟩ := List.mem_map.mp listed
  obtain ⟨Q, inside, rfl⟩ := List.mem_map.mp member
  have positive := ordered.boundary e old Q inside (fun same => notFirst (same ▸ rfl))
    fun same => notSecond (same ▸ rfl)
  exact positive.trans_eq (ordered.normal e.1 e.2 Q).symm

theorem Drawn.areaOf_eq (drawn : Drawn frame S polygon l) :
    areaOf Real.sqrt polygon.verteces =
      areaOfSet (convexHull ℝ (place frame '' {P | P ∈ l})) := by
  rw [drawn.verteces]
  rcases Nat.lt_or_ge l.length 3 with short | three
  · exact areaOf_place_of_short frame drawn.distinct short
  · obtain ⟨r, ordered⟩ := drawn.ordered three
    exact areaOf_place frame three ordered.factor ordered.boundary ordered.filled

theorem Drawn.hullOf (drawn : Drawn frame S polygon l) (actual : Actual Real.sqrt polygon)
    {points : List (TPoint ℝ)} (items : ∀ P, P ∈ points ↔ P ∈ polygon.verteces) :
    HullOf points polygon where
  once := by
    rw [drawn.verteces]
    exact drawn.distinct.map (place_injective frame)
  members := fun P => (items P).symm
  ordered := by
    intro three
    rw [drawn.verteces, List.length_map] at three
    exact drawn.boundaryOrder three
  area := by
    obtain ⟨marked, same⟩ := actual.getArea_eq
    have whole : {P | P ∈ points} = place frame '' {P | P ∈ l} := by
      ext P
      rw [Set.mem_ofPred_eq, items, drawn.verteces, List.mem_map]
      rfl
    rw [same, whole]
    exact drawn.areaOf_eq
  silent := drawn.silent

/-! ## Points in a plane -/

theorem coplanar_toLp {S : Set (TPoint ℝ)} (coplanar : Coplanar ℝ S) :
    Coplanar ℝ (WithLp.toLp 2 '' S : Set Space) := by
  have image := AffineMap.map_vectorSpan
    (f := (WithLp.linearEquiv 2 ℝ (Fin 3 → ℝ)).symm.toLinearMap.toAffineMap) (s := S)
  have same : WithLp.toLp 2 '' S =
    (WithLp.linearEquiv 2 ℝ (Fin 3 → ℝ)).symm.toLinearMap.toAffineMap '' S := rfl
  rw [coplanar_iff_finrank_le_two] at coplanar ⊢
  rw [same, ← image]
  exact (Submodule.finrank_map_le _ _).trans coplanar

theorem exists_places {l : List (TPoint ℝ)} (coplanar : Coplanar ℝ {P | P ∈ l}) :
    ∃ frame : Frame Space, ∀ P ∈ l, ∃ Q, place frame Q = P := by
  obtain ⟨frame, covered⟩ := exists_frame finrank_euclideanSpace_fin
    (coplanar_toLp coplanar)
  refine ⟨frame, ?_⟩
  intro P member
  obtain ⟨Q, same⟩ := covered ⟨P, member, rfl⟩
  exact ⟨Q, congrArg WithLp.ofLp same⟩

theorem equalPoints_iff (P Q : TPoint ℝ) :
    equalPoints P Q = true ↔ ∀ i, |P i - Q i| < epsilon := by
  simp [equalPoints, isEqual, Fin.forall_fin_succ, and_assoc]

/-- After each of the calls, whatever their order is. -/
theorem run_hullOf (calls : List (Call ℝ)) (coplanar : Coplanar ℝ {P | P ∈ points calls})
    (extreme : ∀ P ∈ points calls, P ∈ (convexHull ℝ {Q | Q ∈ points calls}).extremePoints ℝ)
    (apart : ∀ P ∈ points calls, ∀ Q ∈ points calls, P ≠ Q → ∃ i, epsilon ≤ |P i - Q i|)
    (first : List (Call ℝ)) (before : first <+: calls) :
    HullOf (points first) (run Real.sqrt first) := by
  obtain ⟨frame, places⟩ := exists_places coplanar
  have whole : place frame '' {Q | place frame Q ∈ points calls} = {P | P ∈ points calls} := by
    ext P
    constructor
    · rintro ⟨Q, member, rfl⟩
      exact member
    · intro member
      obtain ⟨Q, rfl⟩ := places P member
      exact ⟨Q, member, rfl⟩
  have independent : ConvexIndependent ℝ
      ((↑) : {Q : ℝ × ℝ | place frame Q ∈ points calls} → ℝ × ℝ) := by
    apply convexIndependent_of_image (place_injective frame) (convexHull_place frame)
    rw [whole]
    exact (convex_convexHull ℝ _).convexIndependent_extremePoints.mono extreme
  have noMerge : Apart frame {Q | place frame Q ∈ points calls} := by
    intro P member Q also same
    by_contra different
    obtain ⟨i, far⟩ := apart _ member _ also ((place_injective frame).ne different)
    exact absurd ((equalPoints_iff _ _).mp same i) (not_lt.mpr far)
  obtain ⟨rest, rfl⟩ := before
  have inside : ∀ P ∈ points first, ∃ Q ∈ {Q | place frame Q ∈ points (first ++ rest)},
      place frame Q = P := by
    intro P member
    have later : P ∈ points (first ++ rest) := by
      rw [points_append]
      exact List.mem_append_left _ member
    obtain ⟨Q, rfl⟩ := places P later
    exact ⟨Q, later, rfl⟩
  obtain ⟨l, drawn, items⟩ := run_drawn independent noMerge inside
  apply drawn.hullOf (actual_run _ first)
  intro P
  rw [drawn.verteces, List.mem_map]
  constructor
  · intro member
    obtain ⟨Q, -, rfl⟩ := inside P member
    exact ⟨Q, (items Q).mpr member, rfl⟩
  · rintro ⟨Q, member, rfl⟩
    exact (items Q).mp member

/-! ## Corners of a box -/

theorem extreme_of_corner {S : Set (TPoint ℝ)} (low high : TPoint ℝ) (ordered : low ≤ high)
    (corners : ∀ P ∈ S, ∀ i, P i = low i ∨ P i = high i) {P : TPoint ℝ} (member : P ∈ S) :
    P ∈ (convexHull ℝ S).extremePoints ℝ := by
  have ends (Q : TPoint ℝ) (inside : Q ∈ S) (i : Fin 3) : Q i ∈ Set.Icc (low i) (high i) := by
    rcases corners Q inside i with same | same
    · rw [same]
      exact ⟨le_refl _, ordered i⟩
    · rw [same]
      exact ⟨ordered i, le_refl _⟩
  have box : convexHull ℝ S ⊆ Set.univ.pi fun i => Set.Icc (low i) (high i) := by
    refine convexHull_min ?_ (convex_pi fun i _ => convex_Icc (low i) (high i))
    exact fun Q inside i _ => ends Q inside i
  apply inter_extremePoints_subset_extremePoints_of_subset box
  refine ⟨subset_convexHull ℝ S member, ?_⟩
  rw [extremePoints_pi]
  intro i _
  dsimp only
  rw [Set.extremePoints_Icc (ordered i)]
  exact corners P member i

/-- Four corners of a square, first the ones of a diagonal. -/
noncomputable def squareCalls : List (Call ℝ) :=
  [.add ![0, 0, 0], .add ![1, 1, 0], .getArea, .add ![1, 0, 0], .add ![0, 0, 0], .getCenter,
    .add ![0, 1, 0]]

theorem mem_points_squareCalls (P : TPoint ℝ) :
    P ∈ points squareCalls ↔ P = ![0, 1, 0] ∨ P = ![0, 0, 0] ∨ P = ![1, 1, 0] ∨ P = ![1, 0, 0] := by
  change P ∈ [_, _, _, _, _] ↔ _
  simp only [List.mem_cons, List.not_mem_nil, or_false]
  tauto

theorem coplanar_squareCalls : Coplanar ℝ {P | P ∈ points squareCalls} := by
  have items : {P | P ∈ points squareCalls} =
      insert ![0, 1, 0] {![0, 0, 0], ![1, 1, 0], ![1, 0, 0]} := by
    ext P
    exact mem_points_squareCalls P
  have corner : (![0, 1, 0] : TPoint ℝ) ∈ affineSpan ℝ {![0, 0, 0], ![1, 1, 0], ![1, 0, 0]} := by
    let span := affineSpan ℝ ({![0, 0, 0], ![1, 1, 0], ![1, 0, 0]} : Set (TPoint ℝ))
    have first : (![1, 1, 0] : TPoint ℝ) ∈ span := subset_affineSpan ℝ _ (by simp)
    have second : (![1, 0, 0] : TPoint ℝ) ∈ span := subset_affineSpan ℝ _ (by simp)
    have origin : (![0, 0, 0] : TPoint ℝ) ∈ span := subset_affineSpan ℝ _ (by simp)
    have moved := span.smul_vsub_vadd_mem 1 first second origin
    have same : (1 : ℝ) • ((![1, 1, 0] : TPoint ℝ) -ᵥ ![1, 0, 0]) +ᵥ (![0, 0, 0] : TPoint ℝ) =
        ![0, 1, 0] := by
      ext i
      fin_cases i <;> simp
    rw [same] at moved
    exact moved
  rw [items, coplanar_insert_iff_of_mem_affineSpan corner]
  exact coplanar_triple ℝ _ _ _

theorem corners_squareCalls (P : TPoint ℝ) (member : P ∈ points squareCalls) (i : Fin 3) :
    P i = (![0, 0, 0] : TPoint ℝ) i ∨ P i = (![1, 1, 0] : TPoint ℝ) i := by
  rcases (mem_points_squareCalls P).mp member with rfl | rfl | rfl | rfl <;> fin_cases i <;> simp

theorem run_hullOf_square : HullOf (points squareCalls) (run Real.sqrt squareCalls) := by
  refine run_hullOf squareCalls coplanar_squareCalls ?_ ?_ squareCalls List.prefix_rfl
  · intro P member
    refine extreme_of_corner ![0, 0, 0] ![1, 1, 0] ?_ corners_squareCalls member
    intro i
    fin_cases i <;> simp
  · intro P member Q also different
    obtain ⟨i, coordinate⟩ := Function.ne_iff.mp different
    refine ⟨i, ?_⟩
    rcases corners_squareCalls P member i with left | left <;>
      rcases corners_squareCalls Q also i with right | right <;>
        rw [left, right] at coordinate ⊢ <;>
          fin_cases i <;> simp [epsilon] at coordinate ⊢ <;> norm_num

/-- Two different points that are taken for one. -/
theorem not_always_run_hullOf : ¬ ∀ calls : List (Call ℝ),
    Coplanar ℝ {P | P ∈ points calls} →
    (∀ P ∈ points calls, P ∈ (convexHull ℝ {Q | Q ∈ points calls}).extremePoints ℝ) →
    ∀ first : List (Call ℝ), first <+: calls → HullOf (points first) (run Real.sqrt first) := by
  intro always
  let close : List (Call ℝ) := [.add ![0, 0, 0], .add ![epsilon / 2, 0, 0]]
  have items (P : TPoint ℝ) : P ∈ points close ↔ P = ![0, 0, 0] ∨ P = ![epsilon / 2, 0, 0] := by
    change P ∈ [_, _] ↔ _
    simp only [List.mem_cons, List.not_mem_nil, or_false]
  have positive : (0 : ℝ) < epsilon := by norm_num [epsilon]
  have single : (empty.add (![0, 0, 0] : TPoint ℝ)).verteces = [![0, 0, 0]] := rfl
  have known : (empty.add (![0, 0, 0] : TPoint ℝ)).verteces.any
      (equalPoints · ![epsilon / 2, 0, 0]) = true := by
    rw [single, List.any_cons, List.any_nil, Bool.or_false, equalPoints_iff]
    intro i
    fin_cases i <;> norm_num [epsilon]
  have kept : (run Real.sqrt close).verteces = [![0, 0, 0]] := by
    change ((empty.add ![0, 0, 0]).add ![epsilon / 2, 0, 0]).verteces = _
    rw [add_of_known known, single]
  have hull : HullOf (points close) (run Real.sqrt close) := by
    refine always close ?_ ?_ close List.prefix_rfl
    · have pair : {P | P ∈ points close} = {![0, 0, 0], ![epsilon / 2, 0, 0]} :=
        Set.ext items
      rw [pair]
      exact coplanar_pair ℝ _ _
    · intro P member
      refine extreme_of_corner ![0, 0, 0] ![epsilon / 2, 0, 0] ?_ ?_ member
      · intro i
        fin_cases i
        · exact (half_pos positive).le
        · exact le_refl _
        · exact le_refl _
      · intro Q also i
        rcases (items Q).mp also with rfl | rfl
        · exact .inl rfl
        · exact .inr rfl
  have second := (hull.members ![epsilon / 2, 0, 0]).mpr ((items _).mpr (.inr rfl))
  rw [kept, List.mem_singleton] at second
  exact (half_pos positive).ne' (congrFun second 0)

end TPolygon

end Flow123d.Ngh
