import Flow123d.Flow.AcceptedMesh
import Flow123d.Flow.LocalMatrix

/-!
# Velocities of elements

`DarcyFlowMHOutput::make_element_vector`: the velocity at the centre of an element from the fluxes
through its sides.
-/

set_option autoImplicit false

namespace Flow123d

open Flow123d.Library Matrix

/-! ## Fluxes of sides -/

namespace MHDofHandler

/-- `elem_side_to_global` and the number of sides so far. -/
def addElement (rows : List (List ℕ) × ℕ) (ele : Element) : List (List ℕ) × ℕ :=
  (rows.1 ++ [(List.range ele.nSides).map (rows.2 + ·)], rows.2 + ele.nSides)

def reinit (mesh : Mesh) : List (List ℕ) := (mesh.element.foldl addElement ([], 0)).1

def sideFlux {K : Type} (elemSideToGlobal : List (List ℕ)) (mhSolution : ℕ → K) (elm elIdx : ℕ) :
    K :=
  mhSolution ((elemSideToGlobal.getD elm []).getD elIdx 0)

end MHDofHandler

/-! ## The output -/

namespace DarcyFlowMHOutput

variable {K : Type} [Field K] [LinearOrder K] (sqrt : K → K)

/-- The loop over the sides of an element. -/
def fluxInCentre (dim : ℕ) (node : ℕ → Fin 3 → K) (crossSection : (Fin 3 → K) → K)
    (sideFlux : ℕ → K) : Fin 3 → K :=
  (List.finRange (dim + 1)).foldl (fun flux (li : Fin (dim + 1)) => flux + fun c =>
    sideFlux li * MHFEValues.rt0Value sqrt dim node (Element.centreOf dim node) li c /
      crossSection (Element.centreOf dim node)) 0

end DarcyFlowMHOutput

namespace AcceptedMesh

variable (setup : AcceptedMesh)

/-- The points of the nodes of an element. -/
def points (K : Type) [Field K] (elm : Fin setup.mesh.element.length) (k : ℕ) : Fin 3 → K :=
  fun c => (setup.mesh.point ((setup.element elm).nodes.getD k 0) c : K)

end AcceptedMesh

namespace DarcyFlowMHOutput

variable {K : Type} [Field K] [LinearOrder K] (sqrt : K → K) (setup : AcceptedMesh)

/-- `ele_flux` from the solution; the cross section is a field. -/
def makeElementVector (crossSection : Fin setup.mesh.element.length → (Fin 3 → K) → K)
    (mhSolution : ℕ → K) (elm : Fin setup.mesh.element.length) : Fin 3 → K :=
  fluxInCentre sqrt (setup.dim elm) (setup.points K elm) (crossSection elm)
    (MHDofHandler.sideFlux (MHDofHandler.reinit setup.mesh) mhSolution elm)

end DarcyFlowMHOutput

/-! ## Fields with given fluxes -/

namespace RaviartThomas

variable {n : ℕ} {node : ℕ → Fin 3 → ℝ}

/-- The vectors within the element. -/
def tangents (n : ℕ) (node : ℕ → Fin 3 → ℝ) : Submodule ℝ (Fin 3 → ℝ) :=
  Submodule.span ℝ (Set.range fun k : Fin n => node (k + 1) - node 0)

/-- The field with the fluxes through the sides. -/
noncomputable def field (n : ℕ) (node : ℕ → Fin 3 → ℝ) (fluxes : ℕ → ℝ) (x : Fin 3 → ℝ) :
    Fin 3 → ℝ :=
  ∑ i : Fin (n + 1), fluxes i • basis n node i x

/-- Every vector within the element is a field. -/
theorem exists_field_eq (bounded : n = 1 ∨ n = 2 ∨ n = 3) (nonzero : measure n node ≠ 0)
    {u : Fin 3 → ℝ} (tangent : u ∈ tangents n node) :
    ∃ fluxes : Fin (n + 1) → ℝ, ∀ x, ∑ i, fluxes i • basis n node i x = u := by
  obtain ⟨y, rfl⟩ := (Submodule.mem_span_range_iff_exists_fun ℝ).mp tangent
  let m := n * measure n node
  rcases bounded with rfl | rfl | rfl
  · refine ⟨![-m * y 0, m * y 0], fun x => ?_⟩
    ext c
    simp [Fin.sum_univ_succ, basis, opposite, m]
    field_simp
    ring
  · refine ⟨![-m * y 1, m * (y 0 + y 1), -m * y 0], fun x => ?_⟩
    ext c
    simp [Fin.sum_univ_succ, basis, opposite, m]
    field_simp
    ring
  · refine ⟨![m * (y 0 + y 1 + y 2), -m * y 0, -m * y 1, -m * y 2], fun x => ?_⟩
    ext c
    simp [Fin.sum_univ_succ, basis, opposite, m]
    field_simp
    ring

/-- The normal part of a basis function on a side. -/
theorem OuterNormal.basis_dot {side function : ℕ} {normal : Fin 3 → ℝ}
    (bounded : n = 1 ∨ n = 2 ∨ n = 3) (nonzero : measure n node ≠ 0)
    (outer : OuterNormal n node side normal) (first : function < n + 1) (second : side < n + 1) :
    sideMeasure n node side * (basis n node function (sideNodes n node side 0) ⬝ᵥ normal) =
      if function = side then 1 else 0 := by
  have positive : 0 < n := by omega
  rw [← outer.flux_eq bounded nonzero first second, outer.flux_eq_mul positive, basis,
    smul_dotProduct, smul_eq_mul, dotProduct_comm]

/-- The field has the fluxes. -/
theorem OuterNormal.field_dot {side : ℕ} {normal : Fin 3 → ℝ}
    (bounded : n = 1 ∨ n = 2 ∨ n = 3) (nonzero : measure n node ≠ 0)
    (outer : OuterNormal n node side normal) (inside : side < n + 1) (fluxes : ℕ → ℝ) :
    sideMeasure n node side * (field n node fluxes (sideNodes n node side 0) ⬝ᵥ normal) =
      fluxes side := by
  rw [field, sum_dotProduct, Finset.mul_sum]
  calc ∑ i : Fin (n + 1), sideMeasure n node side *
        (fluxes i • basis n node i (sideNodes n node side 0) ⬝ᵥ normal)
      = ∑ i : Fin (n + 1), if i = ⟨side, inside⟩ then fluxes i else 0 := by
        refine Finset.sum_congr rfl fun i _ => ?_
        rw [smul_dotProduct, smul_eq_mul, mul_left_comm,
          outer.basis_dot bounded nonzero i.isLt inside, mul_ite, mul_one, mul_zero]
        exact if_congr ⟨fun same => Fin.ext same, congrArg Fin.val⟩ rfl rfl
    _ = fluxes side := by rw [Finset.sum_ite_eq' Finset.univ, if_pos (Finset.mem_univ _)]

section Uniform

variable (bounded : n = 1 ∨ n = 2 ∨ n = 3) (nonzero : measure n node ≠ 0)
  {normals : ℕ → Fin 3 → ℝ} (outer : ∀ side < n + 1, OuterNormal n node side (normals side))

include bounded nonzero outer

/-- The fluxes of a uniform velocity through the sides. -/
theorem field_tangent {u : Fin 3 → ℝ} (tangent : u ∈ tangents n node) (x : Fin 3 → ℝ) :
    field n node (fun side => sideMeasure n node side * (u ⬝ᵥ normals side)) x = u := by
  obtain ⟨fluxes, same⟩ := exists_field_eq bounded nonzero tangent
  conv_rhs => rw [← same x]
  refine Finset.sum_congr rfl fun i _ => ?_
  have coefficient : sideMeasure n node i * (u ⬝ᵥ normals i) = fluxes i := by
    have expanded := (outer i i.isLt).field_dot bounded nonzero i.isLt
      (fun side => if inside : side < n + 1 then fluxes ⟨side, inside⟩ else 0)
    simp only [field, Fin.is_lt, dite_true, Fin.eta] at expanded
    rwa [same] at expanded
  simp only [coefficient]

/-- The field with the fluxes of any uniform velocity is its part within the element. -/
theorem field_uniform (u : Fin 3 → ℝ) {x : Fin 3 → ℝ}
    (within : ∀ i < n + 1, basis n node i x ∈ tangents n node) :
    field n node (fun side => sideMeasure n node side * (u ⬝ᵥ normals side)) x ∈
        tangents n node ∧
      ∀ e ∈ tangents n node,
        (u - field n node (fun side => sideMeasure n node side * (u ⬝ᵥ normals side)) x) ⬝ᵥ e =
          0 := by
  constructor
  · exact Submodule.sum_mem _ fun i _ => Submodule.smul_mem _ _ (within i i.isLt)
  · intro e inElement
    -- the transposed map takes vectors within the element to themselves, too
    let image : Fin 3 → ℝ := ∑ i : Fin (n + 1),
      (sideMeasure n node i * (basis n node i x ⬝ᵥ e)) • normals i
    have transposed : ∀ w : Fin 3 → ℝ,
        field n node (fun side => sideMeasure n node side * (w ⬝ᵥ normals side)) x ⬝ᵥ e =
          w ⬝ᵥ image := by
      intro w
      rw [field, sum_dotProduct, dotProduct_sum]
      refine Finset.sum_congr rfl fun i _ => ?_
      rw [smul_dotProduct, dotProduct_smul, smul_eq_mul, smul_eq_mul]
      ring
    have imageWithin : image ∈ tangents n node :=
      Submodule.sum_mem _ fun i _ => Submodule.smul_mem _ _ (outer i i.isLt).tangent
    have difference : image - e = 0 := by
      apply dotProduct_self_eq_zero.mp
      have inside := Submodule.sub_mem _ imageWithin inElement
      have reproduced := transposed (image - e)
      rw [field_tangent bounded nonzero outer inside] at reproduced
      rw [dotProduct_sub, ← reproduced, sub_self]
    rw [sub_dotProduct, transposed, sub_eq_zero.mp difference, sub_self]

end Uniform

/-! ## Points of the element -/

theorem basis_point (coordinates : Fin (n + 1) → ℝ) (sum : ∑ k, coordinates k = 1) (i : ℕ) :
    basis n node i (point node coordinates) = ∑ k, coordinates k • basis n node i (node k) := by
  simp only [basis, point_sub sum, Finset.smul_sum]
  exact Finset.sum_congr rfl fun k _ => smul_comm _ _ _

theorem field_point (fluxes : ℕ → ℝ) (coordinates : Fin (n + 1) → ℝ)
    (sum : ∑ k, coordinates k = 1) : field n node fluxes (point node coordinates) =
      ∑ k, coordinates k • field n node fluxes (node k) := by
  simp only [field, basis_point coordinates sum, Finset.smul_sum]
  rw [Finset.sum_comm]
  exact Finset.sum_congr rfl fun k _ => Finset.sum_congr rfl fun i _ => smul_comm _ _ _

theorem centreOf_eq (n : ℕ) (node : ℕ → Fin 3 → ℝ) :
    Element.centreOf n node = point node fun _ : Fin (n + 1) => 1 / (n + 1 : ℝ) := by
  ext c
  rw [Element.centreOf, point, Finset.sum_range, ← Finset.smul_sum, Pi.smul_apply,
    Finset.sum_apply, smul_eq_mul]
  push_cast
  ring

theorem sum_centre (n : ℕ) : ∑ _k : Fin (n + 1), 1 / (n + 1 : ℝ) = 1 := by
  have positive : (n + 1 : ℝ) ≠ 0 := by positivity
  rw [Finset.sum_const, Finset.card_univ, Fintype.card_fin, nsmul_eq_mul]
  push_cast
  field_simp

/-- The mean of a field is its value at the centre. -/
theorem field_centre (nonzero : measure n node ≠ 0) (fluxes : ℕ → ℝ) (c : Fin 3) :
    field n node fluxes (Element.centreOf n node) c =
      1 / measure n node * integral n (measure n node) node fun x => field n node fluxes x c := by
  have linear : ∀ coordinates : Fin (n + 1) → ℝ, ∑ k, coordinates k = 1 →
      field n node fluxes (point node coordinates) c =
        ∑ k : Fin (n + 1), field n node fluxes (node k) c * coordinates k := by
    intro coordinates sum
    rw [field_point fluxes coordinates sum, Finset.sum_apply]
    exact Finset.sum_congr rfl fun k _ => mul_comm _ _
  have positive : (n + 1 : ℝ) ≠ 0 := by positivity
  rw [integral, simplexIntegral.congr linear, simplexIntegral.linear, centreOf_eq,
    linear _ (sum_centre n), ← Finset.sum_mul, one_pow, Nat.factorial_succ]
  push_cast
  field_simp

theorem centre_within (i : Fin (n + 1)) (opposed : opposite n i < n + 1) :
    basis n node i (Element.centreOf n node) ∈ tangents n node := by
  have between : ∀ k < n + 1, node k - node 0 ∈ tangents n node := by
    intro k inside
    cases k with
    | zero =>
        rw [sub_self]
        exact Submodule.zero_mem _
    | succ k => exact Submodule.subset_span ⟨⟨k, Nat.lt_of_succ_lt_succ inside⟩, rfl⟩
  rw [basis, centreOf_eq, point_sub (sum_centre n)]
  refine Submodule.smul_mem _ _ (Submodule.sum_mem _ fun k _ => Submodule.smul_mem _ _ ?_)
  rw [← sub_sub_sub_cancel_right (node k) _ (node 0)]
  exact Submodule.sub_mem _ (between k k.isLt) (between _ opposed)

/-- The flux of a field through a side. -/
theorem OuterNormal.field_flux {side : ℕ} {normal : Fin 3 → ℝ}
    (bounded : n = 1 ∨ n = 2 ∨ n = 3) (nonzero : measure n node ≠ 0)
    (outer : OuterNormal n node side normal) (inside : side < n + 1) (fluxes : ℕ → ℝ) :
    integral (n - 1) (sideMeasure n node side) (sideNodes n node side)
      (fun x => field n node fluxes x ⬝ᵥ normal) = fluxes side := by
  have positive : 0 < n := by omega
  rw [← outer.field_dot bounded nonzero inside fluxes]
  refine integral_const fun coordinates sum => ?_
  have along : normal ⬝ᵥ (point (sideNodes n node side) coordinates -
      sideNodes n node side 0) = 0 := by
    rw [point_sub sum, dotProduct_sum]
    refine Finset.sum_eq_zero fun k _ => ?_
    rw [dotProduct_smul, outer.orthogonal k (by omega) 0 positive, smul_zero]
  rw [field, field, sum_dotProduct, sum_dotProduct]
  refine Finset.sum_congr rfl fun i _ => ?_
  rw [basis, basis, smul_dotProduct, smul_dotProduct, smul_dotProduct, smul_dotProduct,
    ← sub_add_sub_cancel _ (sideNodes n node side 0) (node (opposite n i)), add_dotProduct,
    dotProduct_comm, along, zero_add]

end RaviartThomas

/-! ## The basis functions of the code -/

namespace MHFEValues

open RaviartThomas

variable {node : ℕ → Fin 3 → ℝ}

/-- A point of the element in its barycentric coordinates. -/
structure Barycentric {n : ℕ} (coordinates : Fin (n + 1) → ℝ) : Prop where
  nonneg : ∀ k, 0 ≤ coordinates k
  sum : ∑ k, coordinates k = 1

theorem norm_smul {c : ℝ} (nonneg : 0 ≤ c) (v : Fin 3 → ℝ) :
    Arma.norm Real.sqrt (c • v) = c * Arma.norm Real.sqrt v := by
  refine eq_of_sq_eq (Arma.norm_nonneg _) (mul_nonneg nonneg (Arma.norm_nonneg _)) ?_
  rw [sq, Arma.norm_mul_self, mul_pow, sq (Arma.norm _ _), Arma.norm_mul_self, smul_dotProduct,
    dotProduct_smul, smul_eq_mul, smul_eq_mul]
  ring

theorem rt0ValueLine_eq (nonzero : measure 1 node ≠ 0) {coordinates : Fin 2 → ℝ}
    (within : Barycentric coordinates) (face : Fin 2) :
    rt0ValueLine Real.sqrt node (point node coordinates) face =
      basis 1 node face (point node coordinates) := by
  let e := node 1 - node 0
  have length : measure 1 node = Arma.norm Real.sqrt e := rfl
  have square : e ⬝ᵥ e = measure 1 node ^ 2 := by rw [length, sq, Arma.norm_mul_self]
  have sum : coordinates 0 + coordinates 1 = 1 := by
    rw [← Fin.sum_univ_two]
    exact within.sum
  have fromFirst : point node coordinates - node 0 = coordinates 1 • e := by
    rw [point_sub within.sum, Fin.sum_univ_two]
    simp [e]
  have fromSecond : point node coordinates - node 1 = -(coordinates 0 • e) := by
    rw [point_sub within.sum, Fin.sum_univ_two]
    simp [e, smul_sub]
  have first : Arma.norm Real.sqrt (point node coordinates - node 1) =
      coordinates 0 * measure 1 node := by
    rw [fromSecond, length, ← norm_smul (within.nonneg 0), Arma.norm, Arma.norm,
      neg_dotProduct_neg]
  have second : Arma.norm Real.sqrt (point node coordinates - node 0) =
      coordinates 1 * measure 1 node := by
    rw [fromFirst, length, norm_smul (within.nonneg 1)]
  fin_cases face
  · change rt0ValueLine Real.sqrt node (point node coordinates) 0 =
      (1 / ((1 : ℕ) * measure 1 node)) • (point node coordinates - node 1)
    ext c
    rw [rt0ValueLine, if_pos rfl, first, fromSecond]
    change -(coordinates 0 * measure 1 node) * e c / (e ⬝ᵥ e) =
      1 / ((1 : ℕ) * measure 1 node) * -(coordinates 0 * e c)
    rw [square]
    push_cast
    field_simp
  · change rt0ValueLine Real.sqrt node (point node coordinates) 1 =
      (1 / ((1 : ℕ) * measure 1 node)) • (point node coordinates - node 0)
    ext c
    rw [rt0ValueLine, if_neg one_ne_zero, second, fromFirst]
    change coordinates 1 * measure 1 node * e c / (e ⬝ᵥ e) =
      1 / ((1 : ℕ) * measure 1 node) * (coordinates 1 * e c)
    rw [square]
    push_cast
    field_simp

theorem left_ne_zero_of_cross {u v : Fin 3 → ℝ} (apart : u ⨯₃ v ≠ 0) : u ≠ 0 := by
  intro zero
  rw [zero, map_zero, LinearMap.zero_apply] at apart
  exact apart rfl

/-- The second axis does not depend on the lengths of the vectors it is made of. -/
theorem normalised_axis {u v : Fin 3 → ℝ} (apart : u ⨯₃ v ≠ 0) :
    Arma.normalised Real.sqrt (Arma.normalised Real.sqrt (Arma.normalised Real.sqrt u ⨯₃ v) ⨯₃
        Arma.normalised Real.sqrt u) =
      Arma.normalised Real.sqrt (Arma.normalised Real.sqrt (u ⨯₃ v) ⨯₃ u) := by
  have length := Arma.norm_pos (left_ne_zero_of_cross apart)
  have sameEz : Arma.normalised Real.sqrt (Arma.normalised Real.sqrt u ⨯₃ v) =
      Arma.normalised Real.sqrt (u ⨯₃ v) := by
    rw [Arma.normalised_eq u, LinearMap.map_smul₂]
    exact Arma.normalised_smul (inv_pos.mpr length) _
  rw [sameEz, Arma.normalised_eq u, map_smul]
  exact Arma.normalised_smul (inv_pos.mpr length) _

theorem Axes.inPlane {u v ex ey : Fin 3 → ℝ} {length area : ℝ} (frame : Axes u v ex ey length area)
    (s t : ℝ) :
    s • u + t • v = ((s • u + t • v) ⬝ᵥ ex) • ex + ((s • u + t • v) ⬝ᵥ ey) • ey := by
  have along : (s • u + t • v) ⬝ᵥ ex = s * length + t * (u ⬝ᵥ v / length) := by
    rw [dotProduct_comm, dotProduct_add, dotProduct_smul, dotProduct_smul, frame.alongFirst,
      frame.alongSecond, smul_eq_mul, smul_eq_mul]
  have across : (s • u + t • v) ⬝ᵥ ey = t * (area / length) := by
    rw [dotProduct_comm, dotProduct_add, dotProduct_smul, dotProduct_smul, frame.acrossFirst,
      frame.acrossSecond, smul_zero, zero_add, smul_eq_mul]
  rw [along, across]
  conv_lhs => rw [frame.first, frame.second]
  module

/-- The axes in the plane of a triangle and the corners in them. -/
structure TriangleFrame (node : ℕ → Fin 3 → ℝ) (ex ey : Fin 3 → ℝ) (nod : Fin 3 → Fin 2 → ℝ) :
    Prop where
  inPlane : ∀ s t : ℝ, s • (node 1 - node 0) + t • (node 2 - node 0) =
    ((s • (node 1 - node 0) + t • (node 2 - node 0)) ⬝ᵥ ex) • ex +
      ((s • (node 1 - node 0) + t • (node 2 - node 0)) ⬝ᵥ ey) • ey
  corner : ∀ k : Fin 3, node k - node 0 = nod k 0 • ex + nod k 1 • ey
  parameters : ∀ i : Fin 3, basisFunctionsTriangle nod i =
    ⟨nod (i + 2) 0, nod (i + 2) 1, 1 / (2 * measure 2 node)⟩

theorem triangleFrame (nonzero : measure 2 node ≠ 0) :
    let ex := Arma.normalised Real.sqrt (node 1 - node 0)
    let ez := Arma.normalised Real.sqrt (ex ⨯₃ (node 2 - node 0))
    TriangleFrame node ex (Arma.normalised Real.sqrt (ez ⨯₃ ex))
      (nodeCoordinatesTriangle Real.sqrt node) := by
  intro ex ez
  let u := node 1 - node 0
  let v := node 2 - node 0
  have area : measure 2 node = Arma.norm Real.sqrt (u ⨯₃ v) / 2 := rfl
  have apart : u ⨯₃ v ≠ 0 := by
    intro same
    rw [area, Arma.norm_eq_zero_iff.mpr same, zero_div] at nonzero
    exact nonzero rfl
  have frame := axes apart
  have length := Arma.norm_pos (left_ne_zero_of_cross apart)
  let ey := Arma.normalised Real.sqrt (Arma.normalised Real.sqrt (u ⨯₃ v) ⨯₃ u)
  have sameEy : Arma.normalised Real.sqrt (ez ⨯₃ ex) = ey := normalised_axis apart
  have coordinates : nodeCoordinatesTriangle Real.sqrt node = ![![0, 0],
      ![Arma.norm Real.sqrt u, 0], ![u ⬝ᵥ v / Arma.norm Real.sqrt u,
        Arma.norm Real.sqrt (u ⨯₃ v) / Arma.norm Real.sqrt u]] := by
    change ![![0, 0], ![ex ⬝ᵥ u, ey ⬝ᵥ u], ![ex ⬝ᵥ v, ey ⬝ᵥ v]] = _
    rw [frame.alongFirst, frame.acrossFirst, frame.alongSecond, frame.acrossSecond]
  have height : Arma.norm Real.sqrt u *
      (Arma.norm Real.sqrt (u ⨯₃ v) / Arma.norm Real.sqrt u) = 2 * measure 2 node := by
    rw [area]
    field_simp
  rw [sameEy, coordinates]
  refine ⟨fun s t => ?_, fun k => ?_, fun i => ?_⟩
  · exact frame.inPlane s t
  · fin_cases k
    · change node 0 - node 0 = (0 : ℝ) • ex + (0 : ℝ) • ey
      rw [sub_self, zero_smul, zero_smul, add_zero]
    · change u = Arma.norm Real.sqrt u • ex + (0 : ℝ) • ey
      rw [zero_smul, add_zero]
      exact frame.first
    · exact frame.second
  · have parameters := basisFunctionsTriangle_eq (Arma.norm Real.sqrt u)
      (u ⬝ᵥ v / Arma.norm Real.sqrt u)
      (Arma.norm Real.sqrt (u ⨯₃ v) / Arma.norm Real.sqrt u) i
    rwa [height, abs_of_nonneg (mul_nonneg zero_le_two (measure_nonneg (by decide)))] at parameters

theorem rt0ValueTriangle_eq (nonzero : measure 2 node ≠ 0) {coordinates : Fin 3 → ℝ}
    (within : Barycentric coordinates) (face : Fin 3) :
    rt0ValueTriangle Real.sqrt node (point node coordinates) face =
      basis 2 node face (point node coordinates) := by
  let ex := Arma.normalised Real.sqrt (node 1 - node 0)
  let ez := Arma.normalised Real.sqrt (ex ⨯₃ (node 2 - node 0))
  let ey := Arma.normalised Real.sqrt (ez ⨯₃ ex)
  let nod := nodeCoordinatesTriangle Real.sqrt node
  have frame : TriangleFrame node ex ey nod := triangleFrame nonzero
  have fromFirst : point node coordinates - node 0 =
      coordinates 1 • (node 1 - node 0) + coordinates 2 • (node 2 - node 0) := by
    rw [point_sub within.sum, Fin.sum_univ_three]
    simp
  have opposed : opposite 2 face = ((face + 2 : Fin 3) : ℕ) := by
    fin_cases face <;> rfl
  have difference : point node coordinates - node (opposite 2 face) =
      ((point node coordinates - node 0) ⬝ᵥ ex - nod (face + 2) 0) • ex +
        ((point node coordinates - node 0) ⬝ᵥ ey - nod (face + 2) 1) • ey := by
    have inPlane := frame.inPlane (coordinates 1) (coordinates 2)
    rw [← fromFirst] at inPlane
    rw [opposed, ← sub_sub_sub_cancel_right _ _ (node 0), frame.corner]
    nth_rewrite 1 [inPlane]
    module
  have filled : rt0ValueTriangle Real.sqrt node (point node coordinates) face =
      (basisFunctionsTriangle nod face).gama •
        (((point node coordinates - node 0) ⬝ᵥ ex - (basisFunctionsTriangle nod face).alfa) • ex +
          ((point node coordinates - node 0) ⬝ᵥ ey - (basisFunctionsTriangle nod face).beta) • ey) :=
    rfl
  rw [filled, frame.parameters, basis, difference]
  rfl

theorem rt0ValueTetrahedron_eq (nonzero : measure 3 node ≠ 0) (x : Fin 3 → ℝ) (face : Fin 4) :
    rt0ValueTetrahedron Real.sqrt node x face = basis 3 node face x := by
  ext c
  have delta := delta_eq nonzero face.isLt
  have corner : ![(basisFunctionTetrahedron Real.sqrt node face).alfa,
      (basisFunctionTetrahedron Real.sqrt node face).beta,
      (basisFunctionTetrahedron Real.sqrt node face).gama] = node face := by
    ext c
    fin_cases c <;> rfl
  rw [rt0ValueTetrahedron, delta, corner, basis, Pi.smul_apply, Pi.sub_apply, smul_eq_mul]
  rfl

/-- `RT0_value` is the basis function at the points of the element. -/
theorem rt0Value_eq {dim : ℕ} (bounded : dim = 1 ∨ dim = 2 ∨ dim = 3)
    (nonzero : measure dim node ≠ 0) {coordinates : Fin (dim + 1) → ℝ}
    (within : Barycentric coordinates) (face : Fin (dim + 1)) :
    rt0Value Real.sqrt dim node (point node coordinates) face =
      basis dim node face (point node coordinates) := by
  rcases bounded with rfl | rfl | rfl
  · exact rt0ValueLine_eq nonzero within face
  · exact rt0ValueTriangle_eq nonzero within face
  · exact rt0ValueTetrahedron_eq nonzero _ face

theorem barycentric_centre (n : ℕ) : Barycentric fun _ : Fin (n + 1) => 1 / (n + 1 : ℝ) :=
  ⟨fun _ => by positivity, sum_centre n⟩

end MHFEValues

/-! ## Rows of the sides -/

namespace MHDofHandler

/-- The sides before an element. -/
def sidesBefore (mesh : Mesh) (elm : ℕ) : ℕ := ((mesh.element.take elm).map Element.nSides).sum

theorem foldl_addElement (elements : List Element) (rows : List (List ℕ) × ℕ) :
    elements.foldl addElement rows =
      (rows.1 ++ elements.mapIdx (fun k ele => (List.range ele.nSides).map
        (rows.2 + ((elements.take k).map Element.nSides).sum + ·)),
        rows.2 + (elements.map Element.nSides).sum) := by
  induction elements generalizing rows with
  | nil => simp
  | cons ele rest ih =>
      rw [List.foldl_cons, ih, addElement]
      simp [List.mapIdx_cons, Nat.add_assoc]

theorem reinit_lookup {mesh : Mesh} {elm : ℕ} {ele : Element} (found : mesh.element[elm]? = some ele)
    {elIdx : ℕ} (inside : elIdx < ele.nSides) :
    ((reinit mesh).getD elm []).getD elIdx 0 = sidesBefore mesh elm + elIdx := by
  obtain ⟨bound, isElement⟩ := List.getElem?_eq_some_iff.mp found
  have row : (reinit mesh).getD elm [] =
      (List.range ele.nSides).map (sidesBefore mesh elm + ·) := by
    rw [reinit, foldl_addElement, List.getD_eq_getElem?_getD]
    simp [List.getElem?_mapIdx, found, sidesBefore]
  rw [row, List.getD_eq_getElem?_getD]
  simp [inside]

end MHDofHandler

/-! ## Velocities -/

namespace DarcyFlowMHOutput

open RaviartThomas MHFEValues

/-- The velocity in the element: the field with the fluxes over the cross section. -/
noncomputable def velocity (dim : ℕ) (node : ℕ → Fin 3 → ℝ) (crossSection : ℝ) (fluxes : ℕ → ℝ)
    (x : Fin 3 → ℝ) : Fin 3 → ℝ :=
  crossSection⁻¹ • field dim node fluxes x

/-- What is put out for an element with the fluxes through its sides. -/
structure ElementVelocity (dim : ℕ) (node : ℕ → Fin 3 → ℝ) (crossSection : ℝ) (fluxes : ℕ → ℝ)
    (value : Fin 3 → ℝ) : Prop where
  /-- The velocity is the one of `RT0_value` in all points of the element. -/
  basis : ∀ coordinates : Fin (dim + 1) → ℝ, Barycentric coordinates →
    velocity dim node crossSection fluxes (point node coordinates) =
      ∑ i : Fin (dim + 1), (fluxes i / crossSection) •
        rt0Value Real.sqrt dim node (point node coordinates) i
  /-- The value is its mean over the element. -/
  mean : ∀ c, value c = 1 / measure dim node *
    integral dim (measure dim node) node fun x => velocity dim node crossSection fluxes x c
  /-- Its fluxes through the sides are the fluxes of the solution. -/
  flux : ∀ side < dim + 1, ∀ normal, OuterNormal dim node side normal →
    crossSection * integral (dim - 1) (sideMeasure dim node side) (sideNodes dim node side)
      (fun x => velocity dim node crossSection fluxes x ⬝ᵥ normal) = fluxes side
  /-- From the fluxes of a uniform velocity comes its part within the element. -/
  uniform : ∀ (u : Fin 3 → ℝ) (normals : ℕ → Fin 3 → ℝ),
    (∀ side < dim + 1, OuterNormal dim node side (normals side)) →
      (∀ side < dim + 1, fluxes side =
        crossSection * (sideMeasure dim node side * (u ⬝ᵥ normals side))) →
          value ∈ tangents dim node ∧ ∀ e ∈ tangents dim node, (u - value) ⬝ᵥ e = 0

variable {dim : ℕ} {node : ℕ → Fin 3 → ℝ} {crossSection : (Fin 3 → ℝ) → ℝ} {fluxes : ℕ → ℝ}

theorem foldl_add_eq_sum {n : ℕ} (f : Fin n → Fin 3 → ℝ) (start : Fin 3 → ℝ) :
    (List.finRange n).foldl (fun flux li => flux + f li) start = start + ∑ li, f li := by
  rw [Fin.sum_univ_def]
  induction List.finRange n generalizing start with
  | nil => simp
  | cons li rest ih => rw [List.foldl_cons, ih, List.map_cons, List.sum_cons, add_assoc]

theorem fluxInCentre_eq (bounded : dim = 1 ∨ dim = 2 ∨ dim = 3) (nonzero : measure dim node ≠ 0) :
    fluxInCentre Real.sqrt dim node crossSection fluxes =
      velocity dim node (crossSection (Element.centreOf dim node)) fluxes
        (Element.centreOf dim node) := by
  rw [fluxInCentre, foldl_add_eq_sum, zero_add, velocity, field, Finset.smul_sum]
  refine Finset.sum_congr rfl fun i _ => ?_
  ext c
  rw [centreOf_eq, rt0Value_eq bounded nonzero (barycentric_centre dim)]
  simp only [Pi.smul_apply, smul_eq_mul]
  ring

theorem field_mul (scale : ℝ) (fluxes : ℕ → ℝ) (x : Fin 3 → ℝ) :
    field dim node (fun i => scale * fluxes i) x = scale • field dim node fluxes x := by
  simp only [field, mul_smul, Finset.smul_sum]

theorem elementVelocity (bounded : dim = 1 ∨ dim = 2 ∨ dim = 3)
    (nonzero : measure dim node ≠ 0) (opened : crossSection (Element.centreOf dim node) ≠ 0) :
    ElementVelocity dim node (crossSection (Element.centreOf dim node)) fluxes
      (fluxInCentre Real.sqrt dim node crossSection fluxes) where
  basis coordinates within := by
    rw [velocity, field, Finset.smul_sum]
    refine Finset.sum_congr rfl fun i _ => ?_
    rw [rt0Value_eq bounded nonzero within, smul_smul, inv_mul_eq_div]
  mean c := by
    rw [fluxInCentre_eq bounded nonzero, velocity, Pi.smul_apply, smul_eq_mul,
      field_centre nonzero]
    simp only [velocity, Pi.smul_apply, smul_eq_mul, integral_const_mul]
    ring
  flux side inside normal outer := by
    simp only [velocity, smul_dotProduct, smul_eq_mul, integral_const_mul]
    rw [outer.field_flux bounded nonzero inside, mul_inv_cancel_left₀ opened]
  uniform u normals outer given := by
    have same : fluxInCentre Real.sqrt dim node crossSection fluxes =
        field dim node (fun side => sideMeasure dim node side * (u ⬝ᵥ normals side))
          (Element.centreOf dim node) := by
      rw [fluxInCentre_eq bounded nonzero, velocity]
      have scaled : field dim node fluxes (Element.centreOf dim node) =
          crossSection (Element.centreOf dim node) • field dim node
            (fun side => sideMeasure dim node side * (u ⬝ᵥ normals side))
              (Element.centreOf dim node) := by
        rw [← field_mul]
        exact Finset.sum_congr rfl fun i _ => by rw [given i i.isLt]
      rw [scaled, smul_smul, inv_mul_cancel₀ opened, one_smul]
    have opposed : ∀ i < dim + 1, opposite dim i < dim + 1 := by
      rcases bounded with rfl | rfl | rfl <;> decide
    rw [same]
    exact field_uniform bounded nonzero outer u fun i inside =>
      centre_within ⟨i, inside⟩ (opposed i inside)

theorem fluxInCentre_congr {others : ℕ → ℝ} (same : ∀ i < dim + 1, fluxes i = others i) :
    fluxInCentre Real.sqrt dim node crossSection fluxes =
      fluxInCentre Real.sqrt dim node crossSection others := by
  rw [fluxInCentre, fluxInCentre, foldl_add_eq_sum, foldl_add_eq_sum]
  exact congrArg (0 + ·) (Finset.sum_congr rfl fun i _ => by rw [same i i.isLt])

/-- The velocity that is put out for an element of the mesh, from the rows of its sides in the
solution. -/
theorem makeElementVector_velocity {setup : AcceptedMesh}
    {crossSection : Fin setup.mesh.element.length → (Fin 3 → ℝ) → ℝ} {mhSolution : ℕ → ℝ}
    {elm : Fin setup.mesh.element.length}
    (nonzero : Element.measureOf Real.sqrt (setup.dim elm) (setup.points ℝ elm) ≠ 0)
    (opened : crossSection elm (Element.centreOf (setup.dim elm) (setup.points ℝ elm)) ≠ 0) :
    ElementVelocity (setup.dim elm) (setup.points ℝ elm)
      (crossSection elm (Element.centreOf (setup.dim elm) (setup.points ℝ elm)))
      (fun side => mhSolution (MHDofHandler.sidesBefore setup.mesh elm + side))
      (makeElementVector Real.sqrt setup crossSection mhSolution elm) := by
  have positive : 0 < (setup.dim elm : ℕ) := setup.mesh.bulkDim _ (List.get_mem _ elm)
  have bounded : (setup.dim elm : ℕ) = 1 ∨ (setup.dim elm : ℕ) = 2 ∨ (setup.dim elm : ℕ) = 3 := by
    omega
  have rows : makeElementVector Real.sqrt setup crossSection mhSolution elm =
      fluxInCentre Real.sqrt (setup.dim elm) (setup.points ℝ elm) (crossSection elm)
        (fun side => mhSolution (MHDofHandler.sidesBefore setup.mesh elm + side)) :=
    fluxInCentre_congr fun i inside => by
      rw [MHDofHandler.sideFlux, MHDofHandler.reinit_lookup (setup.element_lookup elm) inside]
  rw [rows]
  exact elementVelocity bounded nonzero opened

/-- The mesh of one line. -/
def lineMesh : AcceptedMesh where
  mesh := Mesh.unitLine
  topology := _
  accepted := AcceptedMesh.unitLine_accepted
  nonDegenerate := AcceptedMesh.unitLine_nonDegenerate

theorem measure_lineMesh :
    Element.measureOf Real.sqrt (lineMesh.dim ⟨0, by decide⟩)
      (lineMesh.points ℝ ⟨0, by decide⟩) ≠ 0 := by
  have first : Mesh.unitLine.point 1 0 = 1 := rfl
  have second : Mesh.unitLine.point 0 0 = 0 := rfl
  intro zero
  have same := congrFun (Arma.norm_eq_zero_iff.mp zero) 0
  change ((Mesh.unitLine.point 1 0 : ℚ) : ℝ) - ((Mesh.unitLine.point 0 0 : ℚ) : ℝ) = 0 at same
  rw [first, second] at same
  norm_num at same

theorem makeElementVector_velocity_lineMesh :
    ElementVelocity (lineMesh.dim ⟨0, by decide⟩) (lineMesh.points ℝ ⟨0, by decide⟩) 2
      (fun side => ((MHDofHandler.sidesBefore Mesh.unitLine 0 + side : ℕ) : ℝ))
      (makeElementVector Real.sqrt lineMesh (fun _ _ => 2) (fun row => (row : ℝ))
        ⟨0, by decide⟩) :=
  @makeElementVector_velocity lineMesh (fun _ _ => 2) (fun row => (row : ℝ)) ⟨0, by decide⟩
    measure_lineMesh two_ne_zero

end DarcyFlowMHOutput

end Flow123d
