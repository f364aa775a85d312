import Flow123d.Flow.ElementGeometry
import Flow123d.System.MathFce
import Mathlib.Analysis.Matrix.PosDef

/-!
# The local matrix is a Gram matrix

The expanded formulas of `MHFEValues` for lines, triangles and tetrahedra against the integrals
of the products of the Raviart-Thomas functions.
-/

set_option autoImplicit false

namespace Flow123d

open Flow123d.Library Matrix RaviartThomas

theorem Arma.inv_eq {n : ℕ} (matrix : Matrix (Fin n) (Fin n) ℝ) :
    Arma.inv matrix = matrix⁻¹ := by
  rw [Arma.inv, inv_def, Ring.inverse_eq_inv']

theorem Arma.normalised_smul {c : ℝ} (positive : 0 < c) (v : Fin 3 → ℝ) :
    Arma.normalised Real.sqrt (c • v) = Arma.normalised Real.sqrt v := by
  have scaled : Arma.norm Real.sqrt (c • v) = c * Arma.norm Real.sqrt v := by
    rw [Arma.norm, smul_dotProduct, dotProduct_smul, smul_eq_mul, smul_eq_mul, ← mul_assoc,
      Real.sqrt_mul (mul_self_nonneg c), Real.sqrt_mul_self positive.le]
    rfl
  ext k
  rw [Arma.normalised, Arma.normalised, scaled, Pi.smul_apply, smul_eq_mul,
    mul_div_mul_left _ _ positive.ne']

namespace MHFEValues

variable {node : ℕ → Fin 3 → ℝ} {anisotropy : (Fin 3 → ℝ) → Matrix (Fin 3) (Fin 3) ℝ}
  {scale : ℝ}

theorem copied_eq {n : ℕ} {entry : Fin n → Fin n → ℝ} {matrix : Matrix (Fin n) (Fin n) ℝ}
    (symmetric : matrixᵀ = matrix) (same : ∀ i j, entry i j = matrix i j) :
    copied entry = matrix := by
  ext i j
  rw [copied, of_apply, same, same]
  split_ifs
  · rfl
  · exact congrFun (congrFun symmetric i) j

/-! ## Lines -/

theorem localMatrixLine_eq (nonzero : measure 1 node ≠ 0) :
    localMatrixLine Real.sqrt node anisotropy scale =
      scale • gram 1 node (Arma.inv (anisotropy (Element.centreOf 1 node))) := by
  let e := node 1 - node 0
  let weight := Arma.inv (anisotropy (Element.centreOf 1 node))
  have length : measure 1 node = Arma.norm Real.sqrt e := rfl
  have turned : node 0 - node 1 = -e := (neg_sub _ _).symm
  have value : Arma.normalised Real.sqrt e ⬝ᵥ (weight *ᵥ Arma.normalised Real.sqrt e) =
      (measure 1 node)⁻¹ ^ 2 * (e ⬝ᵥ (weight *ᵥ e)) := by
    rw [Arma.normalised_eq, mulVec_smul, dotProduct_smul, smul_dotProduct, smul_eq_mul,
      smul_eq_mul, ← length]
    ring
  have entries : gram 1 node weight = (e ⬝ᵥ (weight *ᵥ e) / (6 * measure 1 node)) •
      !![2, -1; -1, 2] := by
    ext i j
    rw [gram_apply, gramScale]
    fin_cases i <;> fin_cases j <;>
      simp [Fin.sum_univ_two, opposite, sub_dotProduct, mulVec_sub, dotProduct_sub, e] <;>
      field_simp <;> ring
  have val : scale * (Arma.normalised Real.sqrt e ⬝ᵥ
      (weight *ᵥ Arma.normalised Real.sqrt e)) * measure 1 node / 3 =
        scale * (e ⬝ᵥ (weight *ᵥ e) / (6 * measure 1 node)) * 2 := by
    rw [value]
    field_simp
    ring
  have filled : localMatrixLine Real.sqrt node anisotropy scale =
      let val := scale * (Arma.normalised Real.sqrt e ⬝ᵥ
        (weight *ᵥ Arma.normalised Real.sqrt e)) * measure 1 node / 3
      !![val, -val / 2; -val / 2, val] := rfl
  rw [entries, smul_smul, filled, val]
  ext i j
  fin_cases i <;> fin_cases j <;> simp <;> ring

/-! ## Triangles -/

/-- The axes of the plane of a triangle. -/
structure Axes (u v ex ey : Fin 3 → ℝ) (length area : ℝ) : Prop where
  first : u = length • ex
  second : v = (u ⬝ᵥ v / length) • ex + (area / length) • ey
  alongFirst : ex ⬝ᵥ u = length
  acrossFirst : ey ⬝ᵥ u = 0
  alongSecond : ex ⬝ᵥ v = u ⬝ᵥ v / length
  acrossSecond : ey ⬝ᵥ v = area / length

theorem axes {u v : Fin 3 → ℝ} (apart : u ⨯₃ v ≠ 0) :
    Axes u v (Arma.normalised Real.sqrt u)
      (Arma.normalised Real.sqrt (Arma.normalised Real.sqrt (u ⨯₃ v) ⨯₃ u))
      (Arma.norm Real.sqrt u) (Arma.norm Real.sqrt (u ⨯₃ v)) := by
  have nonzero : u ≠ 0 := by
    rintro rfl
    exact apart (by simp)
  have length := Arma.norm_pos nonzero
  have area := Arma.norm_pos apart
  have lengthSq := Arma.norm_mul_self u
  have areaSq := Arma.norm_mul_self (u ⨯₃ v)
  rw [cross_dot_cross] at areaSq
  let m := (u ⬝ᵥ u) • v - (v ⬝ᵥ u) • u
  have along : m ⬝ᵥ u = 0 := by
    rw [sub_dotProduct, smul_dotProduct, smul_dotProduct, smul_eq_mul, smul_eq_mul]
    ring
  have across : m ⬝ᵥ v = Arma.norm Real.sqrt (u ⨯₃ v) ^ 2 := by
    rw [sq, areaSq, sub_dotProduct, smul_dotProduct, smul_dotProduct, dotProduct_comm v u]
    rfl
  have size : Arma.norm Real.sqrt m = Arma.norm Real.sqrt u * Arma.norm Real.sqrt (u ⨯₃ v) := by
    refine eq_of_sq_eq (Arma.norm_nonneg _) (mul_nonneg length.le area.le) ?_
    rw [sq (Arma.norm _ m), Arma.norm_mul_self, mul_pow, sq (Arma.norm _ u), lengthSq]
    change m ⬝ᵥ ((u ⬝ᵥ u) • v - (v ⬝ᵥ u) • u) = _
    rw [dotProduct_sub, dotProduct_smul, dotProduct_smul, along, across]
    simp
  have normal : Arma.normalised Real.sqrt (Arma.normalised Real.sqrt (u ⨯₃ v) ⨯₃ u) =
      (Arma.norm Real.sqrt u * Arma.norm Real.sqrt (u ⨯₃ v))⁻¹ • m := by
    rw [Arma.normalised_eq (u ⨯₃ v), LinearMap.map_smul₂,
      Arma.normalised_smul (inv_pos.mpr area), cross_cross_eq_smul_sub_smul, Arma.normalised_eq]
    change (Arma.norm Real.sqrt m)⁻¹ • m = _
    rw [size]
  rw [normal, Arma.normalised_eq u]
  refine ⟨?_, ?_, ?_, ?_, ?_, ?_⟩
  · rw [smul_smul, mul_inv_cancel₀ length.ne', one_smul]
  · ext c
    simp only [m, Pi.add_apply, Pi.smul_apply, Pi.sub_apply, smul_eq_mul, dotProduct_comm v u,
      ← lengthSq]
    field_simp
    ring
  · rw [smul_dotProduct, ← lengthSq, smul_eq_mul]
    field_simp
  · rw [smul_dotProduct, along, smul_zero]
  · rw [smul_dotProduct, smul_eq_mul, div_eq_inv_mul]
  · rw [smul_dotProduct, across, smul_eq_mul]
    field_simp

/-- The midpoint rule is exact for the products of two basis functions. -/
theorem midpoint_rule (nod : Fin 3 → Fin 2 → ℝ) {a : Matrix (Fin 2) (Fin 2) ℝ}
    (symmetric : a 1 0 = a 0 1) (p q : Fin 2 → ℝ) :
    (∑ k, polynomValueTriangle (calcPolynomTriangle (p 0) (p 1) (q 0) (q 1) a)
        (sideMidpointTriangle nod k)) / 3 =
      1 / 12 * ((∑ k, ∑ l, (nod k - p) ⬝ᵥ (a *ᵥ (nod l - q))) +
        ∑ k, (nod k - p) ⬝ᵥ (a *ᵥ (nod k - q))) := by
  simp only [polynomValueTriangle, calcPolynomTriangle, sideMidpointTriangle, Fin.sum_univ_three,
    dotProduct, mulVec, Fin.sum_univ_two, Pi.sub_apply, cons_val, symmetric]
  ring

/-- The parameters of the basis functions. -/
theorem basisFunctionsTriangle_eq (length x y : ℝ) (i : Fin 3) :
    basisFunctionsTriangle ![![0, 0], ![length, 0], ![x, y]] i =
      ⟨![![0, 0], ![length, 0], ![x, y]] (i + 2) 0, ![![0, 0], ![length, 0], ![x, y]] (i + 2) 1,
        1 / |length * y|⟩ := by
  have same : ∀ a b : ℝ, a = b → 1 / |a| = 1 / |b| := fun a b equal => by rw [equal]
  fin_cases i
  · exact congrArg (BasisTriangle.mk x y) (same _ _ (by simp only [cons_val]; ring))
  · exact congrArg (BasisTriangle.mk 0 0) (same _ _ (by simp only [cons_val]; ring))
  · exact congrArg (BasisTriangle.mk length 0) (same _ _ (by simp only [cons_val]; ring))

theorem localMatrixTriangle_eq (nonzero : measure 2 node ≠ 0)
    (symmetric : (Arma.inv (anisotropy (Element.centreOf 2 node)))ᵀ =
      Arma.inv (anisotropy (Element.centreOf 2 node))) :
    localMatrixTriangle Real.sqrt node anisotropy scale =
      scale • gram 2 node (Arma.inv (anisotropy (Element.centreOf 2 node))) := by
  let u := node 1 - node 0
  let v := node 2 - node 0
  let weight := Arma.inv (anisotropy (Element.centreOf 2 node))
  have area : measure 2 node = Arma.norm Real.sqrt (u ⨯₃ v) / 2 := rfl
  have apart : u ⨯₃ v ≠ 0 := by
    intro same
    rw [area, Arma.norm_eq_zero_iff.mpr same, zero_div] at nonzero
    exact nonzero rfl
  have edge : u ≠ 0 := by
    intro zero
    rw [zero, map_zero, LinearMap.zero_apply] at apart
    exact apart rfl
  have length := Arma.norm_pos edge
  have frame := axes apart
  let ex := Arma.normalised Real.sqrt u
  let ez := Arma.normalised Real.sqrt (u ⨯₃ v)
  let ey := Arma.normalised Real.sqrt (ez ⨯₃ u)
  have sameEz : Arma.normalised Real.sqrt (ex ⨯₃ v) = ez := by
    simp only [ex, ez, Arma.normalised_eq u, LinearMap.map_smul₂,
      Arma.normalised_smul (inv_pos.mpr length)]
  have sameEy : Arma.normalised Real.sqrt (ez ⨯₃ ex) = ey := by
    simp only [ex, ey, Arma.normalised_eq u, map_smul, Arma.normalised_smul (inv_pos.mpr length)]
  let r : Matrix (Fin 3) (Fin 2) ℝ := of fun c k => ![ex c, ey c] k
  let tensor := rᵀ * (weight * r)
  let nod : Fin 3 → Fin 2 → ℝ := ![![0, 0], ![Arma.norm Real.sqrt u, 0],
    ![u ⬝ᵥ v / Arma.norm Real.sqrt u, Arma.norm Real.sqrt (u ⨯₃ v) / Arma.norm Real.sqrt u]]
  have coordinates : nodeCoordinatesTriangle Real.sqrt node = nod := by
    change ![![0, 0], ![ex ⬝ᵥ u, ey ⬝ᵥ u], ![ex ⬝ᵥ v, ey ⬝ᵥ v]] = nod
    rw [frame.alongFirst, frame.acrossFirst, frame.alongSecond, frame.acrossSecond]
  have apply : ∀ p, r *ᵥ p = p 0 • ex + p 1 • ey := by
    intro p
    ext c
    simp only [mulVec, dotProduct, Fin.sum_univ_two, Pi.add_apply, Pi.smul_apply, smul_eq_mul]
    change ex c * p 0 + ey c * p 1 = _
    ring
  have position : ∀ k : Fin 3, node k - node 0 = r *ᵥ nod k := by
    intro k
    rw [apply]
    fin_cases k
    · change node 0 - node 0 = (0 : ℝ) • ex + (0 : ℝ) • ey
      rw [sub_self, zero_smul, zero_smul, add_zero]
    · change u = Arma.norm Real.sqrt u • ex + (0 : ℝ) • ey
      rw [zero_smul, add_zero]
      exact frame.first
    · exact frame.second
  have product : ∀ k l a b : Fin 3, (node k - node a) ⬝ᵥ (weight *ᵥ (node l - node b)) =
      (nod k - nod a) ⬝ᵥ (tensor *ᵥ (nod l - nod b)) := by
    intro k l a b
    have difference : ∀ k a : Fin 3, node k - node a = r *ᵥ (nod k - nod a) := by
      intro k a
      rw [mulVec_sub, ← position, ← position, sub_sub_sub_cancel_right]
    rw [difference, difference, ← mulVec_mulVec, ← mulVec_mulVec, dotProduct_mulVec _ rᵀ,
      vecMul_transpose]
  have tensorSymmetric : tensor 1 0 = tensor 0 1 := by
    have whole : tensorᵀ = tensor := by
      simp only [tensor, weight, transpose_mul, transpose_transpose, symmetric, Matrix.mul_assoc]
    exact congrFun (congrFun whole 0) 1
  let assembled := fun (ey : Fin 3 → ℝ) (nod : Fin 3 → Fin 2 → ℝ) =>
    let r : Matrix (Fin 3) (Fin 2) ℝ := of fun c k => ![ex c, ey c] k
    copied fun i j : Fin 3 =>
      let poly := calcPolynomTriangle (basisFunctionsTriangle nod i).alfa
        (basisFunctionsTriangle nod i).beta (basisFunctionsTriangle nod j).alfa
        (basisFunctionsTriangle nod j).beta (rᵀ * (weight * r))
      let p := fun k => polynomValueTriangle poly (sideMidpointTriangle nod k)
      scale * (basisFunctionsTriangle nod i).gama * (basisFunctionsTriangle nod j).gama *
        measure 2 node * (p 0 + p 1 + p 2) / 3
  have filled : localMatrixTriangle Real.sqrt node anisotropy scale =
      assembled (Arma.normalised Real.sqrt (Arma.normalised Real.sqrt (ex ⨯₃ v) ⨯₃ ex))
        (nodeCoordinatesTriangle Real.sqrt node) := rfl
  rw [filled, sameEz, sameEy, coordinates]
  have height : Arma.norm Real.sqrt u *
      (Arma.norm Real.sqrt (u ⨯₃ v) / Arma.norm Real.sqrt u) = 2 * measure 2 node := by
    rw [area]
    field_simp
  have basis : ∀ i, basisFunctionsTriangle nod i =
      ⟨nod (i + 2) 0, nod (i + 2) 1, 1 / (2 * measure 2 node)⟩ := by
    intro i
    have parameters := basisFunctionsTriangle_eq (Arma.norm Real.sqrt u)
      (u ⬝ᵥ v / Arma.norm Real.sqrt u)
      (Arma.norm Real.sqrt (u ⨯₃ v) / Arma.norm Real.sqrt u) i
    rw [height, abs_of_nonneg (mul_nonneg zero_le_two (measure_nonneg (by decide)))] at parameters
    exact parameters
  have opposed : ∀ i : Fin 3, opposite 2 i = ((i + 2 : Fin 3) : ℕ) := by decide
  have entry : ∀ i j : Fin 3, scale * (basisFunctionsTriangle nod i).gama *
      (basisFunctionsTriangle nod j).gama * measure 2 node *
        (∑ k, polynomValueTriangle (calcPolynomTriangle (basisFunctionsTriangle nod i).alfa
          (basisFunctionsTriangle nod i).beta (basisFunctionsTriangle nod j).alfa
            (basisFunctionsTriangle nod j).beta tensor) (sideMidpointTriangle nod k)) / 3 =
      scale * gram 2 node weight i j := by
    intro i j
    rw [mul_div_assoc, basis, basis, midpoint_rule nod tensorSymmetric, gram_apply, opposed,
      opposed]
    simp only [product]
    rw [gramScale]
    push_cast
    ring
  refine copied_eq ?_ fun i j => ?_
  · rw [transpose_smul, gram_transpose, symmetric]
  · rw [Matrix.smul_apply, smul_eq_mul, ← entry, Fin.sum_univ_three]

/-! ## Tetrahedra -/

/-- The mean of the product of two coordinates in the nodes. -/
theorem productMean_eq (node : ℕ → Fin 3 → ℝ) (r s : Fin 3) (p q : ℝ) :
    1 / 20 * ((∑ k : Fin 4, ∑ l : Fin 4, (node k r - p) * (node l s - q)) +
        ∑ k : Fin 4, (node k r - p) * (node k s - q)) =
      productMean node (Element.centreOf 3 node) r s - Element.centreOf 3 node r * q -
        p * Element.centreOf 3 node s + p * q := by
  have centre : ∀ c, Element.centreOf 3 node c =
      (node 0 c + node 1 c + node 2 c + node 3 c) / 4 := by
    intro c
    simp only [Element.centreOf, Finset.sum_range_succ, Finset.sum_range_zero, zero_add]
    norm_num
  rw [productMean, centre, centre, Fin.sum_univ_four, Fin.sum_univ_four]
  simp only [Fin.sum_univ_four]
  change 1 / 20 * (((node 0 r - p) * (node 0 s - q) + (node 0 r - p) * (node 1 s - q) +
    (node 0 r - p) * (node 2 s - q) + (node 0 r - p) * (node 3 s - q) +
    ((node 1 r - p) * (node 0 s - q) + (node 1 r - p) * (node 1 s - q) +
      (node 1 r - p) * (node 2 s - q) + (node 1 r - p) * (node 3 s - q)) +
    ((node 2 r - p) * (node 0 s - q) + (node 2 r - p) * (node 1 s - q) +
      (node 2 r - p) * (node 2 s - q) + (node 2 r - p) * (node 3 s - q)) +
    ((node 3 r - p) * (node 0 s - q) + (node 3 r - p) * (node 1 s - q) +
      (node 3 r - p) * (node 2 s - q) + (node 3 r - p) * (node 3 s - q))) +
    ((node 0 r - p) * (node 0 s - q) + (node 1 r - p) * (node 1 s - q) +
      (node 2 r - p) * (node 2 s - q) + (node 3 r - p) * (node 3 s - q))) = _
  ring

theorem productMean_comm (t : Fin 3 → ℝ) (r s : Fin 3) :
    productMean node t r s = productMean node t s r := by
  unfold productMean
  ring

/-- The integral of the product of two distances. -/
theorem polynomIntegral_eq (node : ℕ → Fin 3 → ℝ) (a : Matrix (Fin 3) (Fin 3) ℝ)
    (p q : Fin 3 → ℝ) :
    polynomIntegralTetrahedron Real.sqrt node
        (calcPolynomTetrahedron (p 0) (p 1) (p 2) (q 0) (q 1) (q 2) a) =
      measure 3 node * (1 / 20 * ((∑ k : Fin 4, ∑ l : Fin 4, (node k - q) ⬝ᵥ (a *ᵥ (node l - p))) +
        ∑ k : Fin 4, (node k - q) ⬝ᵥ (a *ᵥ (node k - p)))) := by
  have form : ∀ x y : Fin 3 → ℝ, (x - q) ⬝ᵥ (a *ᵥ (y - p)) =
      ∑ r, ∑ s, a r s * ((x r - q r) * (y s - p s)) := by
    intro x y
    rw [dotProduct]
    refine Finset.sum_congr rfl fun r _ => ?_
    rw [mulVec, dotProduct, Finset.mul_sum]
    refine Finset.sum_congr rfl fun s _ => ?_
    rw [Pi.sub_apply, Pi.sub_apply]
    ring
  have means : 1 / 20 * ((∑ k : Fin 4, ∑ l : Fin 4, (node k - q) ⬝ᵥ (a *ᵥ (node l - p))) +
      ∑ k : Fin 4, (node k - q) ⬝ᵥ (a *ᵥ (node k - p))) =
        ∑ r, ∑ s, a r s * (productMean node (Element.centreOf 3 node) r s -
          Element.centreOf 3 node r * p s - q r * Element.centreOf 3 node s + q r * p s) := by
    have swap : ∀ f : Fin 4 → Fin 3 → Fin 3 → ℝ,
        ∑ k, ∑ r, ∑ s, f k r s = ∑ r, ∑ s, ∑ k, f k r s := by
      intro f
      rw [Finset.sum_comm]
      exact Finset.sum_congr rfl fun r _ => Finset.sum_comm
    have single : ∑ k : Fin 4, (node k - q) ⬝ᵥ (a *ᵥ (node k - p)) =
        ∑ r, ∑ s, a r s * ∑ k : Fin 4, (node k r - q r) * (node k s - p s) := by
      simp only [form, swap, Finset.mul_sum]
    have double : ∑ k : Fin 4, ∑ l : Fin 4, (node k - q) ⬝ᵥ (a *ᵥ (node l - p)) =
        ∑ r, ∑ s, a r s *
          ∑ k : Fin 4, ∑ l : Fin 4, (node k r - q r) * (node l s - p s) := by
      simp only [form, swap, Finset.mul_sum]
    rw [single, double, ← Finset.sum_add_distrib, Finset.mul_sum]
    refine Finset.sum_congr rfl fun r _ => ?_
    rw [← Finset.sum_add_distrib, Finset.mul_sum]
    refine Finset.sum_congr rfl fun s _ => ?_
    rw [← productMean_eq]
    ring
  rw [means]
  simp only [polynomIntegralTetrahedron, calcPolynomTetrahedron, cons_val, Fin.sum_univ_three,
    productMean_comm _ 1 0, productMean_comm _ 2 0, productMean_comm _ 2 1]
  change _ = Element.measureOf Real.sqrt 3 node * _
  ring

theorem delta_eq (nonzero : measure 3 node ≠ 0) {li : ℕ} (inside : li < 4) :
    (basisFunctionTetrahedron Real.sqrt node li).delta = 1 / (3 * measure 3 node) := by
  let side := sideNodes 3 node li
  let normal := Side.normalTriangle Real.sqrt side (Element.centreOf 3 node)
  let centre := Side.centreOf 2 side
  have outer : OuterNormal 3 node li normal := outerNormal_normalTriangle nonzero inside
  have isCentre : centre - node li =
      (1 / 3 : ℝ) • ((side 0 - node li) + (side 1 - node li) + (side 2 - node li)) := by
    ext c
    simp only [centre, Side.centreOf, Finset.sum_range_succ, Finset.sum_range_zero, Pi.sub_apply,
      Pi.smul_apply, Pi.add_apply, smul_eq_mul]
    push_cast
    ring
  have height : normal ⬝ᵥ (centre - node li) = normal ⬝ᵥ (side 0 - node li) := by
    rw [isCentre, dotProduct_smul, dotProduct_add, dotProduct_add,
      outer.distance_eq (show 1 < 3 by decide), outer.distance_eq (show 2 < 3 by decide),
      smul_eq_mul]
    ring
  have expanded : normal 0 * centre 0 + normal 1 * centre 1 + normal 2 * centre 2 -
      normal 0 * node li 0 - normal 1 * node li 1 - normal 2 * node li 2 =
        normal ⬝ᵥ (centre - node li) := by
    rw [vec3_dotProduct]
    simp only [Pi.sub_apply]
    ring
  change 1 / (sideMeasure 3 node li * (normal 0 * centre 0 + normal 1 * centre 1 +
    normal 2 * centre 2 - normal 0 * node li 0 - normal 1 * node li 1 - normal 2 * node li 2)) = _
  rw [expanded, height, ← outer.height_tetrahedron inside]
  rfl

theorem localMatrixTetrahedron_eq (nonzero : measure 3 node ≠ 0)
    (symmetric : (Arma.inv (anisotropy (Element.centreOf 3 node)))ᵀ =
      Arma.inv (anisotropy (Element.centreOf 3 node))) :
    localMatrixTetrahedron Real.sqrt node anisotropy scale =
      scale • gram 3 node (Arma.inv (anisotropy (Element.centreOf 3 node))) := by
  refine copied_eq ?_ fun i j => ?_
  · rw [transpose_smul, gram_transpose, symmetric]
  · -- the polynomial has the factors in the other order
    have swapped := congrFun (congrFun (@gram_transpose 3 node
      (Arma.inv (anisotropy (Element.centreOf 3 node)))) i) j
    rw [symmetric, transpose_apply] at swapped
    rw [delta_eq nonzero i.isLt, delta_eq nonzero j.isLt]
    change scale * (1 / (3 * measure 3 node)) * (1 / (3 * measure 3 node)) *
      polynomIntegralTetrahedron Real.sqrt node (calcPolynomTetrahedron (node i 0) (node i 1)
        (node i 2) (node j 0) (node j 1) (node j 2)
          (Arma.inv (anisotropy (Element.centreOf 3 node)))) = _
    rw [polynomIntegral_eq, Matrix.smul_apply, smul_eq_mul, ← swapped, gram_apply, gramScale]
    change _ = scale * ((1 / ((3 : ℕ) * measure 3 node)) ^ 2 *
      (measure 3 node / (((3 : ℕ) + 1) * ((3 : ℕ) + 2))) *
        ((∑ k : Fin 4, ∑ l : Fin 4, (node k - node j) ⬝ᵥ
          (Arma.inv (anisotropy (Element.centreOf 3 node)) *ᵥ (node l - node i))) +
          ∑ k : Fin 4, (node k - node j) ⬝ᵥ
            (Arma.inv (anisotropy (Element.centreOf 3 node)) *ᵥ (node k - node i))))
    push_cast
    ring

/-! ## Update -/

theorem localMatrix_eq {dim : ℕ} (bounded : dim = 1 ∨ dim = 2 ∨ dim = 3)
    (nonzero : measure dim node ≠ 0)
    (symmetric : (anisotropy (Element.centreOf dim node)).IsHermitian)
    (loc : Matrix (Fin (dim + 1)) (Fin (dim + 1)) ℝ) :
    localMatrix Real.sqrt dim node anisotropy scale loc =
      gram dim node (scale • (anisotropy (Element.centreOf dim node))⁻¹) := by
  have inverse : (Arma.inv (anisotropy (Element.centreOf dim node)))ᵀ =
      Arma.inv (anisotropy (Element.centreOf dim node)) := by
    rw [Arma.inv_eq]
    exact symmetric.inv
  rw [gram_smul, ← Arma.inv_eq]
  rcases bounded with rfl | rfl | rfl
  · exact localMatrixLine_eq nonzero
  · exact localMatrixTriangle_eq nonzero inverse
  · exact localMatrixTetrahedron_eq nonzero inverse

/-- The fluxes of the basis functions through the sides. -/
def UnitFluxes (dim : ℕ) (node : ℕ → Fin 3 → ℝ) : Prop :=
  ∀ side < dim + 1, (∃ normal, OuterNormal dim node side normal) ∧
    ∀ normal, OuterNormal dim node side normal → ∀ function < dim + 1,
      flux dim node function side normal = if function = side then 1 else 0

variable {crossSection conductivity : (Fin 3 → ℝ) → ℝ}

theorem localMatrix_update {dim : ℕ} (bounded : dim = 1 ∨ dim = 2 ∨ dim = 3)
    (nonzero : measure dim node ≠ 0)
    (symmetric : (anisotropy (Element.centreOf dim node)).IsHermitian)
    (loc inv : Matrix (Fin (dim + 1)) (Fin (dim + 1)) ℝ) :
    (update Real.sqrt dim node anisotropy crossSection conductivity loc inv).localMatrix =
      gram dim node ((conductivity (Element.centreOf dim node) *
        crossSection (Element.centreOf dim node))⁻¹ •
          (anisotropy (Element.centreOf dim node))⁻¹) := by
  refine (localMatrix_eq bounded nonzero symmetric loc).trans ?_
  rw [div_div, one_div]

theorem posDef_update {dim : ℕ} (bounded : dim = 1 ∨ dim = 2 ∨ dim = 3)
    (nonzero : measure dim node ≠ 0)
    (posDef : (anisotropy (Element.centreOf dim node)).PosDef)
    (conducts : 0 < conductivity (Element.centreOf dim node))
    (open_ : 0 < crossSection (Element.centreOf dim node))
    (loc inv : Matrix (Fin (dim + 1)) (Fin (dim + 1)) ℝ) :
    (update Real.sqrt dim node anisotropy crossSection conductivity loc
      inv).localMatrix.PosDef := by
  rw [localMatrix_update bounded nonzero posDef.isHermitian]
  exact gram_posDef bounded (independentEdges bounded nonzero)
    ((measure_nonneg bounded).lt_of_ne' nonzero)
    (posDef.inv.smul (inv_pos.mpr (mul_pos conducts open_)))

/-- `update` computes the Gram matrix of the Raviart-Thomas functions with unit fluxes, for the
inverse of the anisotropy over conductivity and cross section. -/
theorem update_gram {dim : ℕ} (bounded : dim = 1 ∨ dim = 2 ∨ dim = 3)
    (nonzero : Element.measureOf Real.sqrt dim node ≠ 0)
    (posDef : (anisotropy (Element.centreOf dim node)).PosDef)
    (conducts : 0 < conductivity (Element.centreOf dim node))
    (open_ : 0 < crossSection (Element.centreOf dim node))
    (loc inv : Matrix (Fin (dim + 1)) (Fin (dim + 1)) ℝ) :
    (update Real.sqrt dim node anisotropy crossSection conductivity loc inv).localMatrix =
        gram dim node ((conductivity (Element.centreOf dim node) *
          crossSection (Element.centreOf dim node))⁻¹ •
            (anisotropy (Element.centreOf dim node))⁻¹) ∧
      UnitFluxes dim node ∧
      (update Real.sqrt dim node anisotropy crossSection conductivity loc inv).localMatrix.IsSymm ∧
      (update Real.sqrt dim node anisotropy crossSection conductivity loc
        inv).localMatrix.PosDef := by
  have definite := posDef_update bounded nonzero posDef conducts open_ loc inv
  refine ⟨localMatrix_update bounded nonzero posDef.isHermitian loc inv, fun side inside => ?_,
    definite.isHermitian, definite⟩
  exact ⟨exists_outerNormal bounded nonzero inside, fun normal outer function small =>
    outer.flux_eq bounded nonzero small inside⟩

/-- The line from the origin along the first axis. -/
def unitLine : ℕ → Fin 3 → ℝ := fun k => ![k, 0, 0]

theorem measure_unitLine : measure 1 unitLine = 1 := by
  change Arma.norm Real.sqrt (unitLine 1 - unitLine 0) = 1
  rw [Arma.norm, vec3_dotProduct]
  simp [unitLine]

theorem update_gram_unitLine :
    (update Real.sqrt 1 unitLine (fun _ => 1) (fun _ => 1) (fun _ => 2) 0 0).localMatrix =
        gram 1 unitLine ((2 * 1 : ℝ)⁻¹ • (1 : Matrix (Fin 3) (Fin 3) ℝ)⁻¹) ∧
      UnitFluxes 1 unitLine ∧
      (update Real.sqrt 1 unitLine (fun _ => 1) (fun _ => 1) (fun _ => 2) 0 0).localMatrix.IsSymm ∧
      (update Real.sqrt 1 unitLine (fun _ => 1) (fun _ => 1) (fun _ => 2) 0 0).localMatrix.PosDef :=
  update_gram (Or.inl rfl) (measure_unitLine.trans_ne one_ne_zero) PosDef.one two_pos one_pos 0 0

/-- The inverse that `update` leaves, unless it reports a singular matrix: that happens when the
determinant is below `NUM_ZERO`. -/
theorem update_inverts {dim : ℕ} (bounded : dim = 1 ∨ dim = 2 ∨ dim = 3)
    (nonzero : Element.measureOf Real.sqrt dim node ≠ 0)
    (posDef : (anisotropy (Element.centreOf dim node)).PosDef)
    (conducts : 0 < conductivity (Element.centreOf dim node))
    (open_ : 0 < crossSection (Element.centreOf dim node))
    (loc inv : Matrix (Fin (dim + 1)) (Fin (dim + 1)) ℝ) :
    let updated := update Real.sqrt dim node anisotropy crossSection conductivity loc inv
    0 < updated.localMatrix.det ∧
      (updated.singular ↔ updated.localMatrix.det < MathFce.numZero) ∧
      (MathFce.numZero ≤ updated.localMatrix.det →
        updated.localMatrix * updated.invLocalMatrix = 1 ∧
          updated.invLocalMatrix * updated.localMatrix = 1) ∧
      ∀ size, 1 ≤ size → size ≤ 4 → ∀ a b : Matrix (Fin size) (Fin size) ℝ,
        (matrixInverse size a b).det = a.det := by
  intro updated
  have positive := (posDef_update bounded nonzero posDef conducts open_ loc inv).det_pos
  have small : dim + 1 ≤ 4 := by omega
  refine ⟨positive, ?_, fun large => ?_, fun size first last => det_matrixInverse first last⟩
  · change decide (|(matrixInverse (dim + 1) updated.localMatrix inv).det| < MathFce.numZero) ↔ _
    rw [det_matrixInverse (Nat.le_add_left 1 dim) small, abs_of_pos positive, decide_eq_true_iff]
  · refine matrixInverse_inverts (Nat.le_add_left 1 dim) small ?_
    rw [abs_of_pos positive]
    exact large.not_gt

theorem update_inverts_unitLine :
    let updated := update Real.sqrt 1 unitLine (fun _ => 1) (fun _ => 1) (fun _ => 2) 0 0
    0 < updated.localMatrix.det ∧
      (updated.singular ↔ updated.localMatrix.det < MathFce.numZero) ∧
      (MathFce.numZero ≤ updated.localMatrix.det →
        updated.localMatrix * updated.invLocalMatrix = 1 ∧
          updated.invLocalMatrix * updated.localMatrix = 1) ∧
      ∀ size, 1 ≤ size → size ≤ 4 → ∀ a b : Matrix (Fin size) (Fin size) ℝ,
        (matrixInverse size a b).det = a.det :=
  update_inverts (Or.inl rfl) (measure_unitLine.trans_ne one_ne_zero) PosDef.one two_pos one_pos 0 0

theorem det_localMatrixLine_unitLine (scale : ℝ) :
    (localMatrixLine Real.sqrt unitLine (fun _ => 1) scale).det = scale ^ 2 / 12 := by
  have direction : Arma.normalised Real.sqrt (unitLine 1 - unitLine 0) = unitLine 1 := by
    have length : Arma.norm Real.sqrt (unitLine 1 - unitLine 0) = 1 := measure_unitLine
    rw [Arma.normalised_eq, length, inv_one, one_smul]
    ext c
    fin_cases c <;> simp [unitLine]
  have unit : unitLine 1 ⬝ᵥ unitLine 1 = 1 := by simp [unitLine]
  have val : scale * (Arma.normalised Real.sqrt (unitLine 1 - unitLine 0) ⬝ᵥ
      (Arma.inv 1 *ᵥ Arma.normalised Real.sqrt (unitLine 1 - unitLine 0))) *
        measure 1 unitLine / 3 = scale / 3 := by
    rw [direction, Arma.inv_eq, inv_one, one_mulVec, unit, measure_unitLine, mul_one, mul_one]
  have filled : localMatrixLine Real.sqrt unitLine (fun _ => 1) scale =
      let val := scale * (Arma.normalised Real.sqrt (unitLine 1 - unitLine 0) ⬝ᵥ
        (Arma.inv 1 *ᵥ Arma.normalised Real.sqrt (unitLine 1 - unitLine 0))) *
          measure 1 unitLine / 3
      !![val, -val / 2; -val / 2, val] := rfl
  rw [filled, val, det_fin_two]
  simp
  ring

/-- The determinant for the conductivity `2 ^ 500` is below `NUM_ZERO`. -/
theorem update_reports_singular :
    ¬ ∀ (dim : ℕ) (node : ℕ → Fin 3 → ℝ) (anisotropy : (Fin 3 → ℝ) → Matrix (Fin 3) (Fin 3) ℝ)
      (crossSection conductivity : (Fin 3 → ℝ) → ℝ)
      (loc inv : Matrix (Fin (dim + 1)) (Fin (dim + 1)) ℝ),
      dim = 1 ∨ dim = 2 ∨ dim = 3 → Element.measureOf Real.sqrt dim node ≠ 0 →
      (anisotropy (Element.centreOf dim node)).PosDef →
      0 < conductivity (Element.centreOf dim node) →
      0 < crossSection (Element.centreOf dim node) →
        (update Real.sqrt dim node anisotropy crossSection conductivity loc inv).singular =
          false := by
  intro never
  have regular := never 1 unitLine (fun _ => 1) (fun _ => 1) (fun _ => 2 ^ 500) 0 0 (Or.inl rfl)
    (measure_unitLine.trans_ne one_ne_zero) PosDef.one (by positivity) one_pos
  have small : |(matrixInverse 2 (localMatrixLine Real.sqrt unitLine (fun _ => 1)
      (1 / 2 ^ 500 / 1)) 0).det| < MathFce.numZero := by
    rw [det_matrixInverse (by decide) (by decide), det_localMatrixLine_unitLine, div_one,
      abs_of_nonneg (by positivity), MathFce.numZero, div_pow, one_pow, ← pow_mul, div_div]
    refine one_div_lt_one_div_of_lt (pow_pos two_pos _) ?_
    have larger : (2 : ℝ) ^ 970 < 2 ^ (500 * 2) := pow_lt_pow_right₀ one_lt_two (by decide)
    have positive : (0 : ℝ) < 2 ^ (500 * 2) := pow_pos two_pos _
    exact larger.trans_le (le_mul_of_one_le_right positive.le (by norm_num))
  exact absurd regular ((decide_eq_true small).trans_ne (by decide))

end MHFEValues

end Flow123d
