import Flow123d.Transport.MassExchange

/-!
# Conservation of mass by the transport matrix

Summed over the elements and weighted by the pore volumes, the matrix takes what flows out
through the boundary and the boundary vectors add what flows in. These are the fluxes that
the mass balance reports.
-/

set_option autoImplicit false

namespace Flow123d

open Flow123d.Library

namespace BalanceMesh

variable {n nSubst nBcd nBulk : ℕ} (mesh : BalanceMesh n nBcd nBulk)
  {data : TransportData n nSubst} {c : Fin n → ℚ}

/-- The side fluxes sum up to zero on each inner edge. The flux of a neighbouring is that
of its side. -/
def FluxesBalanced (data : TransportData n nSubst) : Prop :=
  ∀ sides, MeshEdge.inner sides ∈ mesh.edges → (sides.map data.sideFlux).sum = 0

theorem side_element {elm : Fin n} {side : ElementSide n} (member : side ∈ mesh.mesh.sides elm) :
    side.side.element = elm := by
  have filtered := (mesh.sides_perm elm).mem_iff.mp member
  exact of_decide_eq_true (List.mem_filter.mp filtered).2

/-! ## Sums over the elements are sums over the edges -/

theorem sum_sides (value : ElementSide n → ℚ) :
    ∑ elm, ((mesh.mesh.sides elm).map value).sum =
      (mesh.edges.map fun edge => (edge.elementSides.map value).sum).sum := by
  rw [← sum_map_flatMap, ← sum_groups _ (fun side : ElementSide n => side.side.element) value]
  exact Finset.sum_congr rfl fun elm _ => ((mesh.sides_perm elm).map value).sum_eq

theorem sum_neighVb (value : TransportSide n → ℚ) :
    ∑ elm, ((mesh.mesh.neighVb elm).map value).sum =
      (mesh.edges.map fun edge =>
        (edge.neighbourings.map fun neighbouring => value neighbouring.2).sum).sum := by
  rw [← sum_map_flatMap, ← sum_groups _ Prod.fst]
  refine Finset.sum_congr rfl fun elm _ => ?_
  rw [((mesh.neighVb_perm elm).map value).sum_eq, List.map_map]
  rfl

theorem sum_boundaries (value : ℕ × TransportSide n → ℚ) :
    (mesh.edges.map fun edge => (edge.boundaries.map value).sum).sum =
      (mesh.boundaries.map value).sum :=
  (sum_map_flatMap mesh.edges MeshEdge.boundaries value).symm

/-! ## The matrix -/

theorem elementRates_sum (nonzero : ∀ elm, mesh.mesh.poreVolume data elm ≠ 0) (elm : Fin n) :
    ((mesh.mesh.elementRates data elm).map (mesh.mesh.massRate data c)).sum =
      ((mesh.mesh.sides elm).map fun side =>
        ((mesh.mesh.sideRates data side).map (mesh.mesh.massRate data c)).sum -
          max (data.sideFlux side.side) 0 * c side.side.element).sum +
      ((mesh.mesh.neighVb elm).map fun side =>
        max (data.sideFlux side) 0 * c side.element).sum := by
  have neigh : ∀ side, ((mesh.mesh.neighRates data elm side).map
      (mesh.mesh.massRate data c)).sum =
        max (data.sideFlux side) 0 * c side.element + max (-data.sideFlux side) 0 * c elm := by
    intro side
    have volume := nonzero elm
    have volume' := nonzero side.element
    simp only [TransportMesh.neighRates, TransportMesh.massRate, List.map_cons, List.map_nil,
      List.sum_cons, List.sum_nil, add_zero]
    field_simp
  have lost : mesh.mesh.massRate data c
      (elm, elm, -(mesh.mesh.outflow data elm / mesh.mesh.poreVolume data elm)) =
        -(mesh.mesh.outflow data elm * c elm) := by
    have volume := nonzero elm
    unfold TransportMesh.massRate
    field_simp
  have out : mesh.mesh.outflow data elm * c elm =
      ((mesh.mesh.sides elm).map fun side =>
        max (data.sideFlux side.side) 0 * c side.side.element).sum +
      ((mesh.mesh.neighVb elm).map fun side => max (-data.sideFlux side) 0 * c elm).sum := by
    unfold TransportMesh.outflow
    rw [add_mul, ← List.sum_map_mul_right, ← List.sum_map_mul_right]
    congr 2
    apply List.map_congr_left
    intro side member
    rw [mesh.side_element member]
  unfold TransportMesh.elementRates
  rw [List.map_append, List.map_append, List.sum_append, List.sum_append, sum_map_flatMap,
    sum_map_flatMap, List.map_congr_left fun side _ => neigh side, List.sum_map_add,
    List.map_cons, List.map_nil, List.sum_singleton, lost, out]
  rw [sum_map_sub]
  ring

theorem edge_sum (nonzero : ∀ elm, mesh.mesh.poreVolume data elm ≠ 0) {edge : MeshEdge n}
    (balanced : ∀ sides, edge = .inner sides → (sides.map data.sideFlux).sum = 0) :
    (edge.elementSides.map fun side =>
        ((mesh.mesh.sideRates data side).map (mesh.mesh.massRate data c)).sum -
          max (data.sideFlux side.side) 0 * c side.side.element).sum +
      (edge.neighbourings.map fun neighbouring =>
        max (data.sideFlux neighbouring.2) 0 * c neighbouring.2.element).sum =
      (edge.boundaries.map fun bcd =>
        -(max (data.sideFlux bcd.2) 0 * c bcd.2.element)).sum := by
  cases edge with
  | boundary bcd side =>
      simp [MeshEdge.elementSides, MeshEdge.sides, MeshEdge.cond, MeshEdge.neighbourings,
        MeshEdge.boundaries, TransportMesh.sideRates]
  | neighbour element side =>
      simp [MeshEdge.elementSides, MeshEdge.sides, MeshEdge.cond, MeshEdge.neighbourings,
        MeshEdge.boundaries, TransportMesh.sideRates]
  | inner sides =>
      have exchange := TransportMesh.innerEdge_exchange (c := c) nonzero sides
        (balanced sides rfl)
      simp only [MeshEdge.elementSides, MeshEdge.sides, MeshEdge.cond, MeshEdge.neighbourings,
        MeshEdge.boundaries, List.map_map, List.map_nil, List.sum_nil, add_zero]
      have split := sum_map_sub sides
        (fun side => ((mesh.mesh.sideRates data ⟨side, none, sides⟩).map
          (mesh.mesh.massRate data c)).sum)
        (fun side => max (data.sideFlux side) 0 * c side.element)
      exact split.trans (sub_eq_zero.mpr exchange)

/-- All rates together take what flows out through the boundary. -/
theorem rates_sum (nonzero : ∀ elm, mesh.mesh.poreVolume data elm ≠ 0)
    (balanced : mesh.FluxesBalanced data) :
    ((mesh.mesh.rates data).map (mesh.mesh.massRate data c)).sum =
      (mesh.boundaries.map fun bcd =>
        -(max (data.sideFlux bcd.2) 0 * c bcd.2.element)).sum := by
  unfold TransportMesh.rates
  rw [sum_map_flatMap, sum_finRange,
    Finset.sum_congr rfl fun elm _ => mesh.elementRates_sum nonzero elm,
    Finset.sum_add_distrib, mesh.sum_sides, mesh.sum_neighVb, ← List.sum_map_add,
    ← mesh.sum_boundaries]
  congr 1
  apply List.map_congr_left
  intro edge member
  exact mesh.edge_sum nonzero fun sides same => balanced sides (same ▸ member)

/-- The entry of the matrix as a rational. -/
def matrixEntry (data : TransportData n nSubst) (i j : Fin n) : ℚ :=
  (((mesh.mesh.rates data).filter fun rate =>
    TransportMesh.Rate.position rate = (i, j)).map fun rate => rate.2.2).sum

theorem matrix_sum (c : Fin n → ℚ) :
    ∑ i, mesh.mesh.poreVolume data i * ∑ j, mesh.matrixEntry data i j * c j =
      ((mesh.mesh.rates data).map (mesh.mesh.massRate data c)).sum := by
  have position : ∀ p : Fin n × Fin n,
      mesh.mesh.poreVolume data p.1 * (mesh.matrixEntry data p.1 p.2 * c p.2) =
        (((mesh.mesh.rates data).filter fun rate =>
          TransportMesh.Rate.position rate = p).map (mesh.mesh.massRate data c)).sum := by
    intro p
    unfold matrixEntry
    rw [← List.sum_map_mul_right, ← List.sum_map_mul_left]
    congr 1
    apply List.map_congr_left
    intro rate member
    have here := of_decide_eq_true (List.mem_filter.mp member).2
    obtain ⟨row, column, value⟩ := rate
    cases here
    unfold TransportMesh.massRate
    ring
  rw [← sum_groups _ TransportMesh.Rate.position, Fintype.sum_prod_type]
  refine Finset.sum_congr rfl fun i _ => ?_
  rw [Finset.mul_sum]
  exact Finset.sum_congr rfl fun j _ => position (i, j)

/-! ## The boundary vectors -/

/-- What flows into the element through its boundary sides per time. -/
def boundaryInflow (data : TransportData n nSubst) (sbi : Fin nSubst)
    (side : ElementSide n) : ℚ :=
  match side.cond with
  | some boundary => max (-data.sideFlux side.side) 0 * data.bcConc boundary sbi
  | none => 0

def boundaryEntry (data : TransportData n nSubst) (sbi : Fin nSubst) (elm : Fin n) : ℚ :=
  ((mesh.mesh.sides elm).map (boundaryInflow data sbi)).sum / mesh.mesh.poreVolume data elm

theorem assembleBoundary_eq {elm : Fin n} (nonzero : mesh.mesh.poreVolume data elm ≠ 0)
    (sbi : Fin nSubst) :
    mesh.mesh.assembleBoundary data sbi elm = .fin (mesh.boundaryEntry data sbi elm) := by
  unfold TransportMesh.assembleBoundary boundaryEntry
  apply foldl_preserves (mesh.mesh.sides elm) _ _
    (fun seen value => value = Double.fin
      ((seen.map (boundaryInflow data sbi)).sum / mesh.mesh.poreVolume data elm))
  · simp
  · rintro seen side remaining _ - rfl
    rw [List.map_append, List.sum_append, List.map_cons, List.map_nil, List.sum_singleton]
    unfold boundaryInflow
    cases side.cond with
    | none => simp
    | some boundary =>
        simp only
        split_ifs with into
        · rw [TransportMesh.relativeFlux_fin nonzero,
            max_eq_left (by linarith : 0 ≤ -data.sideFlux side.side)]
          change Double.fin _ = Double.fin _
          congr 1
          ring
        · rw [max_eq_right (by linarith : -data.sideFlux side.side ≤ 0), zero_mul, add_zero]

theorem boundary_sum (nonzero : ∀ elm, mesh.mesh.poreVolume data elm ≠ 0)
    (sbi : Fin nSubst) :
    ∑ elm, mesh.mesh.poreVolume data elm * mesh.boundaryEntry data sbi elm =
      (mesh.boundaries.map fun bcd =>
        max (-data.sideFlux bcd.2) 0 * data.bcConc bcd.1 sbi).sum := by
  have inflow : ∀ elm, mesh.mesh.poreVolume data elm * mesh.boundaryEntry data sbi elm =
      ((mesh.mesh.sides elm).map (boundaryInflow data sbi)).sum := fun elm =>
    mul_div_cancel₀ _ (nonzero elm)
  rw [Finset.sum_congr rfl fun elm _ => inflow elm, mesh.sum_sides, ← mesh.sum_boundaries]
  congr 1
  apply List.map_congr_left
  intro edge _
  cases edge with
  | boundary bcd side => rfl
  | neighbour element side => exact add_zero 0
  | inner sides =>
      apply List.sum_eq_zero
      intro value member
      obtain ⟨side, inEdge, rfl⟩ := List.mem_map.mp member
      obtain ⟨_, _, rfl⟩ := List.mem_map.mp inEdge
      rfl

end BalanceMesh

end Flow123d
