import Flow123d.Flow.RaviartThomas

/-!
# Geometry of an element

Independent edges of a non-degenerate element, its outer normals and the heights over its sides.
-/

set_option autoImplicit false

namespace Flow123d

open Flow123d.Library Matrix

namespace Arma

theorem dotProduct_self_nonneg (v : Fin 3 → ℝ) : 0 ≤ v ⬝ᵥ v :=
  Finset.sum_nonneg fun c _ => mul_self_nonneg (v c)

theorem norm_mul_self (v : Fin 3 → ℝ) : norm Real.sqrt v * norm Real.sqrt v = v ⬝ᵥ v :=
  Real.mul_self_sqrt (dotProduct_self_nonneg v)

theorem norm_nonneg (v : Fin 3 → ℝ) : 0 ≤ norm Real.sqrt v := Real.sqrt_nonneg _

theorem norm_eq_zero_iff {v : Fin 3 → ℝ} : norm Real.sqrt v = 0 ↔ v = 0 := by
  rw [norm, Real.sqrt_eq_zero (dotProduct_self_nonneg v), dotProduct_self_eq_zero]

theorem norm_pos {v : Fin 3 → ℝ} (nonzero : v ≠ 0) : 0 < norm Real.sqrt v :=
  (norm_nonneg v).lt_of_ne' fun zero => nonzero (norm_eq_zero_iff.mp zero)

theorem normalised_eq (v : Fin 3 → ℝ) :
    normalised Real.sqrt v = (norm Real.sqrt v)⁻¹ • v := by
  ext c
  rw [normalised, Pi.smul_apply, smul_eq_mul, div_eq_inv_mul]

theorem normalised_dot_self {v : Fin 3 → ℝ} (nonzero : v ≠ 0) :
    normalised Real.sqrt v ⬝ᵥ normalised Real.sqrt v = 1 := by
  have positive := norm_pos nonzero
  rw [normalised_eq, smul_dotProduct, dotProduct_smul, ← norm_mul_self, smul_eq_mul, smul_eq_mul]
  field_simp

end Arma

namespace RaviartThomas

variable {node : ℕ → Fin 3 → ℝ}

/-! ## Independent edges -/

theorem independentEdges_one (nonzero : measure 1 node ≠ 0) : IndependentEdges 1 node := by
  intro y zero
  have edge : node 1 - node 0 ≠ 0 := fun same => nonzero (Arma.norm_eq_zero_iff.mpr same)
  rw [Fin.sum_univ_one] at zero
  ext k
  rw [Subsingleton.elim k 0]
  exact (smul_eq_zero.mp zero).resolve_right edge

theorem independentEdges_two (nonzero : measure 2 node ≠ 0) : IndependentEdges 2 node := by
  intro y zero
  let u := node 1 - node 0
  let v := node 2 - node 0
  have cross : u ⨯₃ v ≠ 0 := by
    intro same
    refine nonzero ?_
    change Arma.norm Real.sqrt (u ⨯₃ v) / 2 = 0
    rw [Arma.norm_eq_zero_iff.mpr same, zero_div]
  have combination : y 0 • u + y 1 • v = 0 := by
    rw [Fin.sum_univ_two] at zero
    exact zero
  have second : y 1 • (u ⨯₃ v) = 0 := by
    have left := congrArg (crossProduct u) combination
    simpa using left
  have first : y 0 • (u ⨯₃ v) = 0 := by
    have right := congrArg (fun w => w ⨯₃ v) combination
    simpa using right
  ext k
  fin_cases k
  · exact (smul_eq_zero.mp first).resolve_right cross
  · exact (smul_eq_zero.mp second).resolve_right cross

theorem independentEdges_three (nonzero : measure 3 node ≠ 0) : IndependentEdges 3 node := by
  intro y zero
  let u := node 1 - node 0
  let v := node 2 - node 0
  let w := node 3 - node 0
  have triple : u ⨯₃ v ⬝ᵥ w ≠ 0 := by
    intro same
    refine nonzero ?_
    change |u ⨯₃ v ⬝ᵥ w| / 6 = 0
    rw [same, abs_zero, zero_div]
  have combination : y 0 • u + y 1 • v + y 2 • w = 0 := by
    rw [Fin.sum_univ_three] at zero
    exact zero
  have cyclic : v ⨯₃ w ⬝ᵥ u = u ⨯₃ v ⬝ᵥ w ∧ w ⨯₃ u ⬝ᵥ v = u ⨯₃ v ⬝ᵥ w := by
    constructor <;> simp only [dotProduct_comm (_ ⨯₃ _)]
    · exact (triple_product_permutation w u v).symm
    · exact triple_product_permutation v w u
  have parts : ∀ a b : Fin 3 → ℝ, y 0 * (a ⨯₃ b ⬝ᵥ u) + y 1 * (a ⨯₃ b ⬝ᵥ v) +
      y 2 * (a ⨯₃ b ⬝ᵥ w) = 0 := by
    intro a b
    have component := congrArg (fun x => a ⨯₃ b ⬝ᵥ x) combination
    simpa [dotProduct_add, dotProduct_smul] using component
  have orthogonal : ∀ a b : Fin 3 → ℝ, a ⨯₃ b ⬝ᵥ a = 0 ∧ a ⨯₃ b ⬝ᵥ b = 0 := by
    intro a b
    rw [dotProduct_comm _ a, dotProduct_comm _ b]
    exact ⟨dot_self_cross a b, dot_cross_self a b⟩
  have first := parts v w
  have second := parts w u
  have third := parts u v
  rw [(orthogonal v w).1, (orthogonal v w).2, cyclic.1] at first
  rw [(orthogonal w u).1, (orthogonal w u).2, cyclic.2] at second
  rw [(orthogonal u v).1, (orthogonal u v).2] at third
  simp only [mul_zero, add_zero, zero_add] at first second third
  ext k
  fin_cases k
  · exact (mul_eq_zero.mp first).resolve_right triple
  · exact (mul_eq_zero.mp second).resolve_right triple
  · exact (mul_eq_zero.mp third).resolve_right triple

theorem independentEdges {dim : ℕ} (bounded : dim = 1 ∨ dim = 2 ∨ dim = 3)
    (nonzero : measure dim node ≠ 0) : IndependentEdges dim node := by
  rcases bounded with rfl | rfl | rfl
  · exact independentEdges_one nonzero
  · exact independentEdges_two nonzero
  · exact independentEdges_three nonzero

theorem measure_nonneg {dim : ℕ} (bounded : dim = 1 ∨ dim = 2 ∨ dim = 3) :
    0 ≤ measure dim node := by
  rcases bounded with rfl | rfl | rfl
  · exact Arma.norm_nonneg _
  · exact div_nonneg (Arma.norm_nonneg _) zero_le_two
  · exact div_nonneg (abs_nonneg _) (by norm_num)

/-! ## Heights -/

/-- The nodes of a side and the opposite one. -/
theorem height_one {normal s a : Fin 3 → ℝ} (unit : normal ⬝ᵥ normal = 1) {y : ℝ}
    (parallel : normal = y • (s - a)) :
    (normal ⬝ᵥ (s - a)) ^ 2 = (s - a) ⬝ᵥ (s - a) := by
  rw [parallel, smul_dotProduct, dotProduct_smul, smul_eq_mul, smul_eq_mul] at unit
  rw [parallel, smul_dotProduct, smul_eq_mul]
  linear_combination ((s - a) ⬝ᵥ (s - a)) * unit

theorem height_two {normal e w : Fin 3 → ℝ} (unit : normal ⬝ᵥ normal = 1)
    (orthogonal : normal ⬝ᵥ e = 0) {x y : ℝ} (coplanar : normal = x • e + y • w) :
    (normal ⬝ᵥ w) ^ 2 * (e ⬝ᵥ e) = (e ⨯₃ w) ⬝ᵥ (e ⨯₃ w) := by
  have self : y * (normal ⬝ᵥ w) = 1 := by
    have product := unit
    nth_rewrite 2 [coplanar] at product
    rw [dotProduct_add, dotProduct_smul, dotProduct_smul, orthogonal] at product
    simpa using product
  have along : x * (e ⬝ᵥ e) + y * (e ⬝ᵥ w) = 0 := by
    rw [coplanar, add_dotProduct, smul_dotProduct, smul_dotProduct, dotProduct_comm w e]
      at orthogonal
    exact orthogonal
  have height : normal ⬝ᵥ w = x * (e ⬝ᵥ w) + y * (w ⬝ᵥ w) := by
    conv_lhs => rw [coplanar]
    rw [add_dotProduct, smul_dotProduct, smul_dotProduct]
    rfl
  rw [cross_dot_cross, dotProduct_comm w e]
  linear_combination (normal ⬝ᵥ w) * (e ⬝ᵥ e) * height + (normal ⬝ᵥ w) * (e ⬝ᵥ w) * along +
    ((e ⬝ᵥ e) * (w ⬝ᵥ w) - (e ⬝ᵥ w) ^ 2) * self

theorem height_three {normal e f w : Fin 3 → ℝ} (unit : normal ⬝ᵥ normal = 1)
    (first : normal ⬝ᵥ e = 0) (second : normal ⬝ᵥ f = 0) :
    (normal ⬝ᵥ w) ^ 2 * ((e ⨯₃ f) ⬝ᵥ (e ⨯₃ f)) = ((e ⨯₃ f) ⬝ᵥ w) ^ 2 := by
  have parallel : e ⨯₃ f = (normal ⬝ᵥ (e ⨯₃ f)) • normal := by
    have outer : normal ⨯₃ (e ⨯₃ f) = 0 := by
      rw [cross_cross_eq_smul_sub_smul', second, dotProduct_comm e, first]
      simp
    have inner := cross_cross_eq_smul_sub_smul' normal normal (e ⨯₃ f)
    rw [outer, map_zero, unit, one_smul] at inner
    exact (sub_eq_zero.mp inner.symm).symm
  have product : (e ⨯₃ f) ⬝ᵥ w = (normal ⬝ᵥ (e ⨯₃ f)) * (normal ⬝ᵥ w) := by
    conv_lhs => rw [parallel]
    rw [smul_dotProduct, smul_eq_mul]
  have square : (e ⨯₃ f) ⬝ᵥ (e ⨯₃ f) = (normal ⬝ᵥ (e ⨯₃ f)) ^ 2 := by
    conv_lhs => rw [parallel]
    rw [smul_dotProduct, dotProduct_smul, unit]
    simp [sq]
  rw [product, square]
  ring

/-- An equation of squares of nonnegative numbers. -/
theorem eq_of_sq_eq {a b : ℝ} (first : 0 ≤ a) (second : 0 ≤ b) (squares : a ^ 2 = b ^ 2) : a = b :=
  (sq_eq_sq₀ first second).mp squares

/-- The span of the edges of a line and of a triangle. -/
theorem exists_of_tangent_one {normal : Fin 3 → ℝ}
    (tangent : normal ∈ Submodule.span ℝ (Set.range fun k : Fin 1 => node (k + 1) - node 0)) :
    ∃ x : ℝ, normal = x • (node 1 - node 0) := by
  obtain ⟨c, combination⟩ := (Submodule.mem_span_range_iff_exists_fun ℝ).mp tangent
  rw [Fin.sum_univ_one] at combination
  exact ⟨c 0, combination.symm⟩

theorem exists_of_tangent_two {normal : Fin 3 → ℝ}
    (tangent : normal ∈ Submodule.span ℝ (Set.range fun k : Fin 2 => node (k + 1) - node 0)) :
    ∃ x y : ℝ, normal = x • (node 1 - node 0) + y • (node 2 - node 0) := by
  obtain ⟨c, combination⟩ := (Submodule.mem_span_range_iff_exists_fun ℝ).mp tangent
  rw [Fin.sum_univ_two] at combination
  exact ⟨c 0, c 1, combination.symm⟩

theorem direction_line (node : ℕ → Fin 3 → ℝ) {side : ℕ} (inside : side < 2) :
    sideNodes 1 node side 0 - node (opposite 1 side) = node 1 - node 0 ∨
      sideNodes 1 node side 0 - node (opposite 1 side) = -(node 1 - node 0) := by
  interval_cases side
  · right
    exact (neg_sub _ _).symm
  · left
    rfl

theorem edges_mem_span (node : ℕ → Fin 3 → ℝ) {side : ℕ} (inside : side < 3) :
    sideNodes 2 node side 1 - sideNodes 2 node side 0 ∈
        Submodule.span ℝ (Set.range fun k : Fin 2 => node (k + 1) - node 0) ∧
      sideNodes 2 node side 0 - node (opposite 2 side) ∈
        Submodule.span ℝ (Set.range fun k : Fin 2 => node (k + 1) - node 0) := by
  have fromFirst : ∀ k < 3, node k - node 0 ∈
      Submodule.span ℝ (Set.range fun k : Fin 2 => node (k + 1) - node 0) := by
    intro k small
    cases k with
    | zero =>
        rw [sub_self]
        exact Submodule.zero_mem _
    | succ k => exact Submodule.subset_span ⟨⟨k, Nat.lt_of_succ_lt_succ small⟩, rfl⟩
  have between : ∀ k < 3, ∀ l < 3, node k - node l ∈
      Submodule.span ℝ (Set.range fun k : Fin 2 => node (k + 1) - node 0) := by
    intro k first l second
    rw [← sub_sub_sub_cancel_right (node k) (node l) (node 0)]
    exact Submodule.sub_mem _ (fromFirst k first) (fromFirst l second)
  interval_cases side
  · exact ⟨between 1 (by decide) 0 (by decide), between 0 (by decide) 2 (by decide)⟩
  · exact ⟨between 2 (by decide) 1 (by decide), between 1 (by decide) 0 (by decide)⟩
  · exact ⟨between 2 (by decide) 0 (by decide), between 0 (by decide) 1 (by decide)⟩

/-- An edge of a triangle and the direction to the opposite node span its plane. -/
theorem exists_edge_combination (node : ℕ → Fin 3 → ℝ) {side : ℕ} (inside : side < 3) (x y : ℝ) :
    ∃ x' y' : ℝ, x • (node 1 - node 0) + y • (node 2 - node 0) =
      x' • (sideNodes 2 node side 1 - sideNodes 2 node side 0) +
        y' • (sideNodes 2 node side 0 - node (opposite 2 side)) := by
  interval_cases side
  · refine ⟨x, -y, ?_⟩
    change _ = x • (node 1 - node 0) + -y • (node 0 - node 2)
    module
  · refine ⟨y, x + y, ?_⟩
    change _ = y • (node 2 - node 1) + (x + y) • (node 1 - node 0)
    module
  · refine ⟨y, -x, ?_⟩
    change _ = y • (node 2 - node 0) + -x • (node 0 - node 1)
    module

theorem cross_edge (node : ℕ → Fin 3 → ℝ) {side : ℕ} (inside : side < 3) :
    (sideNodes 2 node side 1 - sideNodes 2 node side 0) ⨯₃
        (sideNodes 2 node side 0 - node (opposite 2 side)) =
      (node 1 - node 0) ⨯₃ (node 2 - node 0) ∨
    (sideNodes 2 node side 1 - sideNodes 2 node side 0) ⨯₃
        (sideNodes 2 node side 0 - node (opposite 2 side)) =
      -((node 1 - node 0) ⨯₃ (node 2 - node 0)) := by
  interval_cases side
  · right
    change (node 1 - node 0) ⨯₃ (node 0 - node 2) = _
    rw [← neg_sub (node 2), map_neg]
  · right
    change (node 2 - node 1) ⨯₃ (node 1 - node 0) = _
    rw [show node 2 - node 1 = (node 2 - node 0) - (node 1 - node 0) by abel,
      LinearMap.map_sub₂, cross_self, sub_zero, cross_anticomm]
  · left
    change (node 2 - node 0) ⨯₃ (node 0 - node 1) = _
    rw [← neg_sub (node 1), map_neg, cross_anticomm]

/-- The volume from a side of a tetrahedron. -/
theorem triple_side (node : ℕ → Fin 3 → ℝ) {side : ℕ} (inside : side < 4) :
    ((sideNodes 3 node side 1 - sideNodes 3 node side 0) ⨯₃
        (sideNodes 3 node side 2 - sideNodes 3 node side 0) ⬝ᵥ
          (sideNodes 3 node side 0 - node (opposite 3 side))) ^ 2 =
      ((node 1 - node 0) ⨯₃ (node 2 - node 0) ⬝ᵥ (node 3 - node 0)) ^ 2 := by
  rw [sq_eq_sq_iff_eq_or_eq_neg]
  interval_cases side
  · left
    change (node 2 - node 1) ⨯₃ (node 3 - node 1) ⬝ᵥ (node 1 - node 0) = _
    simp only [cross_apply, vec3_dotProduct, Pi.sub_apply, cons_val]
    ring
  · right
    change (node 2 - node 0) ⨯₃ (node 3 - node 0) ⬝ᵥ (node 0 - node 1) = _
    simp only [cross_apply, vec3_dotProduct, Pi.sub_apply, cons_val]
    ring
  · left
    change (node 1 - node 0) ⨯₃ (node 3 - node 0) ⬝ᵥ (node 0 - node 2) = _
    simp only [cross_apply, vec3_dotProduct, Pi.sub_apply, cons_val]
    ring
  · right
    change (node 1 - node 0) ⨯₃ (node 2 - node 0) ⬝ᵥ (node 0 - node 3) = _
    simp only [cross_apply, vec3_dotProduct, Pi.sub_apply, cons_val]
    ring

namespace OuterNormal

variable {side : ℕ} {normal : Fin 3 → ℝ}

/-- The distance from a point in the direction of the normal is the same for all nodes. -/
theorem distance_eq {dim : ℕ} (outer : OuterNormal dim node side normal) {k : ℕ}
    (inside : k < dim) (a : Fin 3 → ℝ) : normal ⬝ᵥ (sideNodes dim node side k - a) =
      normal ⬝ᵥ (sideNodes dim node side 0 - a) := by
  have along := outer.orthogonal k inside 0 (by omega)
  have split : sideNodes dim node side k - a =
      (sideNodes dim node side k - sideNodes dim node side 0) +
        (sideNodes dim node side 0 - a) := by abel
  rw [split, dotProduct_add, along, zero_add]

/-- It is enough to compare with the first node of the side. -/
theorem of_first {dim : ℕ} (unit : normal ⬝ᵥ normal = 1)
    (tangent : normal ∈ Submodule.span ℝ (Set.range fun k : Fin dim => node (k + 1) - node 0))
    (edges : ∀ k < dim, normal ⬝ᵥ (sideNodes dim node side k - sideNodes dim node side 0) = 0)
    (positive : 0 < normal ⬝ᵥ (sideNodes dim node side 0 - node (opposite dim side))) :
    OuterNormal dim node side normal where
  unit := unit
  tangent := tangent
  orthogonal := by
    intro k first l second
    have split : sideNodes dim node side k - sideNodes dim node side l =
        (sideNodes dim node side k - sideNodes dim node side 0) -
          (sideNodes dim node side l - sideNodes dim node side 0) := by abel
    rw [split, dotProduct_sub, edges k first, edges l second, sub_zero]
  outer := by
    intro k inside
    have split : node (opposite dim side) - sideNodes dim node side k =
        -(sideNodes dim node side k - sideNodes dim node side 0) -
          (sideNodes dim node side 0 - node (opposite dim side)) := by abel
    rw [split, dotProduct_sub, dotProduct_neg, edges k inside]
    linarith

theorem height_pos {dim : ℕ} (outer : OuterNormal dim node side normal) (first : 0 < dim) :
    0 < normal ⬝ᵥ (sideNodes dim node side 0 - node (opposite dim side)) := by
  have negative := outer.outer 0 first
  rw [← neg_sub, dotProduct_neg] at negative
  linarith

theorem height_line (outer : OuterNormal 1 node side normal) (inside : side < 2) :
    sideMeasure 1 node side * (normal ⬝ᵥ (sideNodes 1 node side 0 - node (opposite 1 side))) =
      1 * measure 1 node := by
  obtain ⟨x, parallel⟩ := exists_of_tangent_one outer.tangent
  have square : (normal ⬝ᵥ (sideNodes 1 node side 0 - node (opposite 1 side))) ^ 2 =
      measure 1 node ^ 2 := by
    change _ = Arma.norm Real.sqrt (node 1 - node 0) ^ 2
    rw [sq (Arma.norm _ _), Arma.norm_mul_self]
    interval_cases side
    · have turned : normal = (-x) • (node 0 - node 1) := by
        rw [parallel, ← neg_sub (node 1), smul_neg, neg_smul, neg_neg]
      refine (height_one outer.unit turned).trans ?_
      rw [← neg_sub (node 1), neg_dotProduct_neg]
    · exact height_one outer.unit parallel
  rw [one_mul]
  change 1 * _ = _
  rw [one_mul]
  exact eq_of_sq_eq (outer.height_pos Nat.one_pos).le (Arma.norm_nonneg _) square

theorem height_triangle (outer : OuterNormal 2 node side normal) (inside : side < 3) :
    sideMeasure 2 node side * (normal ⬝ᵥ (sideNodes 2 node side 0 - node (opposite 2 side))) =
      2 * measure 2 node := by
  let u := node 1 - node 0
  let v := node 2 - node 0
  let e := sideNodes 2 node side 1 - sideNodes 2 node side 0
  let w := sideNodes 2 node side 0 - node (opposite 2 side)
  have area : 2 * measure 2 node = Arma.norm Real.sqrt (u ⨯₃ v) := by
    change 2 * (Arma.norm Real.sqrt (u ⨯₃ v) / 2) = _
    ring
  have orthogonal : normal ⬝ᵥ e = 0 := outer.orthogonal 1 (by decide) 0 (by decide)
  obtain ⟨x, y, inPlane⟩ := exists_of_tangent_two outer.tangent
  obtain ⟨x', y', inEdges⟩ := exists_edge_combination node inside x y
  have coplanar : normal = x' • e + y' • w := inPlane.trans inEdges
  have cross : e ⨯₃ w = u ⨯₃ v ∨ e ⨯₃ w = -(u ⨯₃ v) := cross_edge node inside
  have square : (sideMeasure 2 node side * (normal ⬝ᵥ w)) ^ 2 =
      Arma.norm Real.sqrt (u ⨯₃ v) ^ 2 := by
    change (Arma.norm Real.sqrt e * _) ^ 2 = _
    rw [mul_pow, sq (Arma.norm _ e), Arma.norm_mul_self, mul_comm,
      height_two outer.unit orthogonal coplanar, sq (Arma.norm _ (u ⨯₃ v)), Arma.norm_mul_self]
    rcases cross with same | turned
    · rw [same]
    · rw [turned, neg_dotProduct_neg]
  rw [area]
  exact eq_of_sq_eq (mul_nonneg (Arma.norm_nonneg _) (outer.height_pos Nat.two_pos).le)
    (Arma.norm_nonneg _) square

theorem height_tetrahedron (outer : OuterNormal 3 node side normal) (inside : side < 4) :
    sideMeasure 3 node side * (normal ⬝ᵥ (sideNodes 3 node side 0 - node (opposite 3 side))) =
      3 * measure 3 node := by
  let e := sideNodes 3 node side 1 - sideNodes 3 node side 0
  let f := sideNodes 3 node side 2 - sideNodes 3 node side 0
  let w := sideNodes 3 node side 0 - node (opposite 3 side)
  have positive := (outer.height_pos (by decide)).le
  have first : normal ⬝ᵥ e = 0 := outer.orthogonal 1 (by decide) 0 (by decide)
  have second : normal ⬝ᵥ f = 0 := outer.orthogonal 2 (by decide) 0 (by decide)
  have area : sideMeasure 3 node side = 1 / 2 * Arma.norm Real.sqrt (e ⨯₃ f) := rfl
  have volume : (3 * measure 3 node) ^ 2 = 1 / 4 * (e ⨯₃ f ⬝ᵥ w) ^ 2 := by
    rw [triple_side node inside]
    change (3 * (|(node 1 - node 0) ⨯₃ (node 2 - node 0) ⬝ᵥ (node 3 - node 0)| / 6)) ^ 2 = _
    rw [mul_pow, div_pow, sq_abs]
    ring
  refine eq_of_sq_eq (mul_nonneg ?_ positive) ?_ ?_
  · rw [area]
    exact mul_nonneg (by norm_num) (Arma.norm_nonneg _)
  · exact mul_nonneg (by norm_num) (measure_nonneg (by decide))
  · rw [volume, ← height_three outer.unit first second, ← Arma.norm_mul_self, area]
    ring

/-- The measure of an element from a side and the height over it. -/
theorem height {dim : ℕ} (bounded : dim = 1 ∨ dim = 2 ∨ dim = 3)
    (outer : OuterNormal dim node side normal) (inside : side < dim + 1) :
    sideMeasure dim node side *
        (normal ⬝ᵥ (sideNodes dim node side 0 - node (opposite dim side))) =
      dim * measure dim node := by
  rcases bounded with rfl | rfl | rfl
  · exact_mod_cast outer.height_line inside
  · exact_mod_cast outer.height_triangle inside
  · exact_mod_cast outer.height_tetrahedron inside

/-- The basis function of a side has a constant normal part on each side. -/
theorem flux_eq_mul {dim : ℕ} (positive : 0 < dim) (outer : OuterNormal dim node side normal)
    (function : ℕ) : flux dim node function side normal =
      sideMeasure dim node side * (1 / (dim * measure dim node) *
        (normal ⬝ᵥ (sideNodes dim node side 0 - node (opposite dim function)))) := by
  refine integral_const fun coordinates sum => ?_
  have each : ∀ k : Fin (dim - 1 + 1),
      normal ⬝ᵥ (sideNodes dim node side k - node (opposite dim function)) =
        normal ⬝ᵥ (sideNodes dim node side 0 - node (opposite dim function)) :=
    fun k => outer.distance_eq (by omega) _
  rw [basis, smul_dotProduct, smul_eq_mul, dotProduct_comm, point_sub sum, dotProduct_sum]
  simp only [dotProduct_smul, each, smul_eq_mul]
  rw [← Finset.sum_mul, sum, one_mul]

/-- The node opposite to another side lies on a side. -/
theorem exists_sideNode {dim : ℕ} (bounded : dim = 1 ∨ dim = 2 ∨ dim = 3) {function side : ℕ}
    (first : function < dim + 1) (second : side < dim + 1) (apart : function ≠ side) :
    ∃ k < dim, RefElement.sideNode dim side k = opposite dim function := by
  have listed : ∀ dim ∈ [1, 2, 3], ∀ function < dim + 1, ∀ side < dim + 1, function ≠ side →
      ∃ k < dim, RefElement.sideNode dim side k = opposite dim function := by decide
  exact listed dim (by simpa using bounded) function first side second apart

/-- A basis function has the flux one through its side and no flux through the others. -/
theorem flux_eq {dim : ℕ} (bounded : dim = 1 ∨ dim = 2 ∨ dim = 3) {function : ℕ}
    (nonzero : measure dim node ≠ 0) (outer : OuterNormal dim node side normal)
    (first : function < dim + 1) (second : side < dim + 1) :
    flux dim node function side normal = if function = side then 1 else 0 := by
  have positive : 0 < dim := by omega
  rw [outer.flux_eq_mul positive]
  split_ifs with same
  · rw [same]
    have cast : (dim : ℝ) ≠ 0 := by exact_mod_cast positive.ne'
    have height := outer.height bounded second
    field_simp
    linear_combination height
  · obtain ⟨k, inside, onSide⟩ := exists_sideNode bounded first second same
    have along := outer.orthogonal 0 positive k inside
    rw [sideNodes, sideNodes, onSide] at along
    rw [sideNodes, along, mul_zero, mul_zero]

end OuterNormal

/-! ## Existence of the normals -/

theorem exists_outerNormal_line (nonzero : measure 1 node ≠ 0) {side : ℕ} (inside : side < 2) :
    ∃ normal, OuterNormal 1 node side normal := by
  let w := sideNodes 1 node side 0 - node (opposite 1 side)
  have edge : node 1 - node 0 ≠ 0 := fun same => nonzero (Arma.norm_eq_zero_iff.mpr same)
  have turned : w = node 1 - node 0 ∨ w = -(node 1 - node 0) := direction_line node inside
  have apart : w ≠ 0 := by
    rcases turned with same | opposed
    · rw [same]
      exact edge
    · rw [opposed]
      exact neg_ne_zero.mpr edge
  refine ⟨Arma.normalised Real.sqrt w, .of_first (Arma.normalised_dot_self apart) ?_ ?_ ?_⟩
  · have member : node 1 - node 0 ∈
        Submodule.span ℝ (Set.range fun k : Fin 1 => node (k + 1) - node 0) :=
      Submodule.subset_span ⟨0, rfl⟩
    rw [Arma.normalised_eq]
    refine Submodule.smul_mem _ _ ?_
    rcases turned with same | opposed
    · rw [same]
      exact member
    · rw [opposed]
      exact Submodule.neg_mem _ member
  · intro k small
    rw [Nat.lt_one_iff.mp small, sub_self, dotProduct_zero]
  · change 0 < Arma.normalised Real.sqrt w ⬝ᵥ w
    rw [Arma.normalised_eq, smul_dotProduct, ← Arma.norm_mul_self, smul_eq_mul]
    have positive := Arma.norm_pos apart
    positivity

theorem exists_outerNormal_triangle (nonzero : measure 2 node ≠ 0) {side : ℕ}
    (inside : side < 3) : ∃ normal, OuterNormal 2 node side normal := by
  let e := sideNodes 2 node side 1 - sideNodes 2 node side 0
  let w := sideNodes 2 node side 0 - node (opposite 2 side)
  let n := (e ⬝ᵥ e) • w - (e ⬝ᵥ w) • e
  have plane := edges_mem_span node inside
  have edge : n ⬝ᵥ e = 0 := by
    rw [sub_dotProduct, smul_dotProduct, smul_dotProduct, dotProduct_comm w e, smul_eq_mul,
      smul_eq_mul]
    ring
  have height : n ⬝ᵥ w = (e ⨯₃ w) ⬝ᵥ (e ⨯₃ w) := by
    rw [sub_dotProduct, smul_dotProduct, smul_dotProduct, cross_dot_cross, dotProduct_comm w e]
    rfl
  have area : 0 < n ⬝ᵥ w := by
    have apart : (node 1 - node 0) ⨯₃ (node 2 - node 0) ≠ 0 := by
      intro same
      refine nonzero ?_
      change Arma.norm Real.sqrt ((node 1 - node 0) ⨯₃ (node 2 - node 0)) / 2 = 0
      rw [Arma.norm_eq_zero_iff.mpr same, zero_div]
    have positive : 0 < Arma.norm Real.sqrt ((node 1 - node 0) ⨯₃ (node 2 - node 0)) :=
      Arma.norm_pos apart
    have square : (e ⨯₃ w) ⬝ᵥ (e ⨯₃ w) = ((node 1 - node 0) ⨯₃ (node 2 - node 0)) ⬝ᵥ
        ((node 1 - node 0) ⨯₃ (node 2 - node 0)) := by
      rcases cross_edge node inside with same | turned
      · exact congrArg (fun v => v ⬝ᵥ v) same
      · exact (congrArg (fun v => v ⬝ᵥ v) turned).trans (neg_dotProduct_neg _ _)
    rw [height, square, ← Arma.norm_mul_self]
    exact mul_pos positive positive
  have apart : n ≠ 0 := by
    intro zero
    rw [zero, zero_dotProduct] at area
    exact lt_irrefl _ area
  have scale := inv_pos.mpr (Arma.norm_pos apart)
  refine ⟨Arma.normalised Real.sqrt n, .of_first (Arma.normalised_dot_self apart) ?_ ?_ ?_⟩
  · rw [Arma.normalised_eq]
    exact Submodule.smul_mem _ _ (Submodule.sub_mem _ (Submodule.smul_mem _ _ plane.2)
      (Submodule.smul_mem _ _ plane.1))
  · intro k small
    rw [Arma.normalised_eq, smul_dotProduct]
    interval_cases k
    · rw [sub_self, dotProduct_zero, smul_zero]
    · exact (congrArg _ edge).trans (smul_zero _)
  · rw [Arma.normalised_eq, smul_dotProduct, smul_eq_mul]
    exact mul_pos scale area

theorem centre_sub (node : ℕ → Fin 3 → ℝ) {side : ℕ} (inside : side < 4) :
    Element.centreOf 3 node - sideNodes 3 node side 0 =
      (1 / 4 : ℝ) • ((sideNodes 3 node side 1 - sideNodes 3 node side 0) +
        (sideNodes 3 node side 2 - sideNodes 3 node side 0) -
          (sideNodes 3 node side 0 - node (opposite 3 side))) := by
  have mean : Element.centreOf 3 node = (1 / 4 : ℝ) • (node 0 + node 1 + node 2 + node 3) := by
    ext c
    simp only [Element.centreOf, Finset.sum_range_succ, Finset.sum_range_zero, Pi.smul_apply,
      Pi.add_apply, smul_eq_mul]
    push_cast
    ring
  rw [mean]
  interval_cases side
  · change _ - node 1 = (1 / 4 : ℝ) • ((node 2 - node 1) + (node 3 - node 1) - (node 1 - node 0))
    module
  · change _ - node 0 = (1 / 4 : ℝ) • ((node 2 - node 0) + (node 3 - node 0) - (node 0 - node 1))
    module
  · change _ - node 0 = (1 / 4 : ℝ) • ((node 1 - node 0) + (node 3 - node 0) - (node 0 - node 2))
    module
  · change _ - node 0 = (1 / 4 : ℝ) • ((node 1 - node 0) + (node 2 - node 0) - (node 0 - node 3))
    module

theorem span_edges_eq_top (nonzero : measure 3 node ≠ 0) :
    Submodule.span ℝ (Set.range fun k : Fin 3 => node (k + 1) - node 0) = ⊤ := by
  have independent : LinearIndependent ℝ fun k : Fin 3 => node (k + 1) - node 0 :=
    Fintype.linearIndependent_iff.mpr fun y zero k =>
      congrFun (independentEdges_three nonzero y zero) k
  exact independent.span_eq_top_of_card_eq_finrank (by simp)

/-- `Side::normal_triangle` is the outer normal. -/
theorem outerNormal_normalTriangle (nonzero : measure 3 node ≠ 0) {side : ℕ} (inside : side < 4) :
    OuterNormal 3 node side
      (Side.normalTriangle Real.sqrt (sideNodes 3 node side) (Element.centreOf 3 node)) := by
  let e := sideNodes 3 node side 1 - sideNodes 3 node side 0
  let f := sideNodes 3 node side 2 - sideNodes 3 node side 0
  let w := sideNodes 3 node side 0 - node (opposite 3 side)
  let sideNormal := Arma.normalised Real.sqrt (e ⨯₃ f)
  have volume : (e ⨯₃ f ⬝ᵥ w) ^ 2 ≠ 0 := by
    rw [triple_side node inside]
    refine pow_ne_zero 2 fun flat => nonzero ?_
    change |(node 1 - node 0) ⨯₃ (node 2 - node 0) ⬝ᵥ (node 3 - node 0)| / 6 = 0
    rw [flat, abs_zero, zero_div]
  have apart : e ⨯₃ f ≠ 0 := by
    intro zero
    rw [zero, zero_dotProduct] at volume
    exact volume (zero_pow two_ne_zero)
  have along : ∀ v, sideNormal ⬝ᵥ v = (Arma.norm Real.sqrt (e ⨯₃ f))⁻¹ * (e ⨯₃ f ⬝ᵥ v) := by
    intro v
    change Arma.normalised Real.sqrt (e ⨯₃ f) ⬝ᵥ v = _
    rw [Arma.normalised_eq, smul_dotProduct, smul_eq_mul]
  have first : sideNormal ⬝ᵥ e = 0 := by
    rw [along, dotProduct_comm, dot_self_cross, mul_zero]
  have second : sideNormal ⬝ᵥ f = 0 := by
    rw [along, dotProduct_comm, dot_cross_self, mul_zero]
  have height : sideNormal ⬝ᵥ w ≠ 0 := by
    rw [along]
    exact mul_ne_zero (inv_ne_zero (Arma.norm_pos apart).ne')
      ((pow_ne_zero_iff two_ne_zero).mp volume)
  have inner : sideNormal ⬝ᵥ (Element.centreOf 3 node - sideNodes 3 node side 0) =
      -(sideNormal ⬝ᵥ w) / 4 := by
    rw [centre_sub node inside, dotProduct_smul, dotProduct_sub, dotProduct_add]
    change (1 / 4 : ℝ) * (sideNormal ⬝ᵥ e + sideNormal ⬝ᵥ f - sideNormal ⬝ᵥ w) = _
    rw [first, second]
    ring
  have everything : ∀ v, v ∈ Submodule.span ℝ (Set.range fun k : Fin 3 => node (k + 1) - node 0) :=
    fun v => by
      rw [span_edges_eq_top nonzero]
      exact Submodule.mem_top
  have edges : ∀ k < 3, sideNormal ⬝ᵥ (sideNodes 3 node side k - sideNodes 3 node side 0) = 0 := by
    intro k small
    interval_cases k
    · rw [sub_self, dotProduct_zero]
    · exact first
    · exact second
  have unit : sideNormal ⬝ᵥ sideNormal = 1 := Arma.normalised_dot_self apart
  change OuterNormal 3 node side (if sideNormal ⬝ᵥ
    (Element.centreOf 3 node - sideNodes 3 node side 0) > 0 then -sideNormal else sideNormal)
  rw [inner]
  split_ifs with inwards
  · refine .of_first ?_ (everything _) ?_ ?_
    · rw [neg_dotProduct_neg, unit]
    · intro k small
      rw [neg_dotProduct, edges k small, neg_zero]
    · rw [neg_dotProduct]
      change 0 < -(sideNormal ⬝ᵥ w)
      linarith
  · refine .of_first unit (everything _) edges ?_
    have nonneg : 0 ≤ sideNormal ⬝ᵥ w := by linarith
    exact nonneg.lt_of_ne' height

theorem exists_outerNormal {dim : ℕ} (bounded : dim = 1 ∨ dim = 2 ∨ dim = 3)
    (nonzero : measure dim node ≠ 0) {side : ℕ} (inside : side < dim + 1) :
    ∃ normal, OuterNormal dim node side normal := by
  rcases bounded with rfl | rfl | rfl
  · exact exists_outerNormal_line nonzero inside
  · exact exists_outerNormal_triangle nonzero inside
  · exact ⟨_, outerNormal_normalTriangle nonzero inside⟩

end RaviartThomas

end Flow123d
