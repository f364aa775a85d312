import Flow123d.Library.GroupedSums
import Flow123d.Transport.MassBalance
import Flow123d.Transport.TransportMatrix

/-!
# Exchange of mass between the elements

Weighted by the pore volumes, what the matrix takes from an element it gives to others or
through the boundary, if no nonzero entry is overwritten and the fluxes of every inner
edge sum up to zero.
-/

set_option autoImplicit false

namespace Flow123d

open Flow123d.Library

namespace TransportMesh

variable {n nSubst : ℕ} (mesh : TransportMesh n) (data : TransportData n nSubst)

/-! ## Rates -/

/-- The entries of the matrix as rationals. -/
abbrev Rate (n : ℕ) := Fin n × Fin n × ℚ

def Rate.entry (rate : Rate n) : Fin n × Fin n × Double := (rate.1, rate.2.1, .fin rate.2.2)

def Rate.position (rate : Rate n) : Fin n × Fin n := (rate.1, rate.2.1)

def sideRates (side : ElementSide n) : List (Rate n) :=
  match side.cond with
  | none => (side.edge.filter fun other => other ≠ side.side).map fun other =>
      (side.side.element, other.element, mesh.inflowRate data side other)
  | some _ => []

def neighRates (elm : Fin n) (side : TransportSide n) : List (Rate n) :=
  [(elm, side.element, max (data.sideFlux side) 0 / mesh.poreVolume data elm),
    (side.element, elm, max (-data.sideFlux side) 0 / mesh.poreVolume data side.element)]

def elementRates (elm : Fin n) : List (Rate n) :=
  (mesh.sides elm).flatMap (mesh.sideRates data) ++
    (mesh.neighVb elm).flatMap (mesh.neighRates data elm) ++
      [(elm, elm, -(mesh.outflow data elm / mesh.poreVolume data elm))]

def rates : List (Rate n) := (List.finRange n).flatMap (mesh.elementRates data)

/-- No nonzero rate is written to a position before another one: no two elements exchange
mass through several sides, and none with itself. -/
def NothingOverwritten : Prop :=
  (mesh.rates data).Pairwise fun earlier later =>
    Rate.position earlier = Rate.position later → earlier.2.2 = 0

variable {mesh data}

theorem sideEntries_eq (nonzero : ∀ elm, mesh.poreVolume data elm ≠ 0) {elm : Fin n}
    (own : ∀ side ∈ mesh.sides elm, side.side.element = elm) :
    mesh.sideEntries data elm =
      ((mesh.sides elm).flatMap (mesh.sideRates data)).map Rate.entry := by
  rw [List.map_flatMap]
  unfold sideEntries
  apply List.flatMap_congr
  intro side member
  unfold sideRates
  cases side.cond with
  | some boundary => rfl
  | none =>
      simp only [List.map_map]
      apply List.map_congr_left
      intro other inEdge
      rw [inflow_eq (nonzero side.side.element) (List.mem_of_mem_filter inEdge)]
      change _ = (side.side.element, other.element, Double.fin _)
      rw [own side member]

theorem relativeFlux_max {elm : Fin n} (nonzero : mesh.poreVolume data elm ≠ 0) (flux : ℚ) :
    (if 0 < flux then mesh.relativeFlux data elm (.fin flux) else .fin 0) =
      .fin (max flux 0 / mesh.poreVolume data elm) := by
  split_ifs with out
  · rw [relativeFlux_fin nonzero, max_eq_left out.le]
  · rw [max_eq_right (not_lt.mp out), zero_div]

theorem neighEntries_eq (nonzero : ∀ elm, mesh.poreVolume data elm ≠ 0) (elm : Fin n) :
    mesh.neighEntries data elm =
      ((mesh.neighVb elm).flatMap (mesh.neighRates data elm)).map Rate.entry := by
  rw [List.map_flatMap]
  unfold neighEntries
  apply List.flatMap_congr
  intro side _
  have gained := relativeFlux_max (nonzero elm) (data.sideFlux side)
  have lost := relativeFlux_max (nonzero side.element) (-data.sideFlux side)
  simp only [Left.neg_pos_iff] at lost
  simp only [gained, lost]
  rfl

theorem elementEntries_eq (nonzero : ∀ elm, mesh.poreVolume data elm ≠ 0) {elm : Fin n}
    (own : ∀ side ∈ mesh.sides elm, side.side.element = elm) :
    mesh.elementEntries data elm = (mesh.elementRates data elm).map Rate.entry := by
  unfold elementEntries elementRates
  rw [sideEntries_eq nonzero own, neighEntries_eq nonzero, diagonal_eq (nonzero elm),
    List.map_append, List.map_append]
  rfl

/-- Without lost entries the matrix holds the sum of what is written to a position. -/
theorem assembleMatrix_eq (nonzero : ∀ elm, mesh.poreVolume data elm ≠ 0)
    (own : ∀ elm, ∀ side ∈ mesh.sides elm, side.side.element = elm)
    (kept : mesh.NothingOverwritten data) (i j : Fin n) :
    mesh.assembleMatrix data i j = .fin
      (((mesh.rates data).filter fun rate => Rate.position rate = (i, j)).map
        fun rate => rate.2.2).sum := by
  have entries : (List.finRange n).flatMap (mesh.elementEntries data) =
      (mesh.rates data).map Rate.entry := by
    unfold rates
    rw [List.map_flatMap]
    exact List.flatMap_congr fun elm _ => elementEntries_eq nonzero (own elm)
  change ((List.finRange n).flatMap (mesh.elementEntries data)).foldl
    TransportMatrix.setValue TransportMatrix.zero i j = _
  rw [entries, List.foldl_map]
  have sums := foldl_preserves (mesh.rates data)
    (fun matrix rate => TransportMatrix.setValue matrix (Rate.entry rate))
    TransportMatrix.zero
    (fun seen matrix => ∀ i j, matrix i j = .fin
      ((seen.filter fun rate => Rate.position rate = (i, j)).map fun rate => rate.2.2).sum)
    (fun _ _ => rfl)
    (by
      intro seen rate remaining matrix split valid i j
      rw [List.filter_append, List.map_append, List.sum_append]
      by_cases here : Rate.position rate = (i, j)
      · have earlier : ∀ other ∈ seen.filter fun rate => Rate.position rate = (i, j),
            other.2.2 = 0 := by
          intro other member
          obtain ⟨inSeen, same⟩ := List.mem_filter.mp member
          unfold NothingOverwritten at kept
          rw [split] at kept
          exact (List.pairwise_append.mp kept).2.2 other inSeen rate (by simp)
            ((of_decide_eq_true same).trans here.symm)
        have lost : ((seen.filter fun rate => Rate.position rate = (i, j)).map
            fun rate => rate.2.2).sum = 0 := by
          apply List.sum_eq_zero
          intro value member
          obtain ⟨other, inFilter, rfl⟩ := List.mem_map.mp member
          exact earlier other inFilter
        obtain ⟨row, column, value⟩ := rate
        cases here
        rw [lost, zero_add]
        simp [Rate.entry, Rate.position, TransportMatrix.setValue_self]
      · rw [TransportMatrix.setValue_other matrix here, valid i j]
        simp [here])
  exact sums i j

/-! ## The exchange through one edge -/

section Edge

variable {c : Fin n → ℚ}

/-- The mass that a rate moves per time at the concentrations `c`. -/
def massRate (mesh : TransportMesh n) (data : TransportData n nSubst) (c : Fin n → ℚ)
    (rate : Rate n) : ℚ :=
  mesh.poreVolume data rate.1 * rate.2.2 * c rate.2.1

theorem poreVolume_mul_inflowRate (nonzero : ∀ elm, mesh.poreVolume data elm ≠ 0)
    (side : ElementSide n) (other : TransportSide n) :
    mesh.poreVolume data side.side.element * mesh.inflowRate data side other =
      max (-data.sideFlux side.side) 0 * max (data.sideFlux other) 0 /
        edgeOutflow data side.edge := by
  have volume := nonzero side.side.element
  unfold inflowRate
  split_ifs with into
  · obtain ⟨gives, takes⟩ := into
    rw [max_eq_left (by linarith), max_eq_left gives.le]
    by_cases flow : edgeOutflow data side.edge = 0
    · simp [flow]
    · field_simp
  · obtain keeps | out := not_and_or.mp into
    · simp [max_eq_right (not_lt.mp keeps)]
    · rw [max_eq_right (by linarith : -data.sideFlux side.side ≤ 0)]
      simp

theorem sum_filter_ne {side : TransportSide n} (edge : List (TransportSide n))
    (value : TransportSide n → ℚ) (none_ : value side = 0) :
    ((edge.filter fun other => other ≠ side).map value).sum = (edge.map value).sum := by
  induction edge with
  | nil => rfl
  | cons other edge ih =>
      by_cases same : other = side
      · cases same
        simpa [none_] using ih
      · simpa [same] using ih

theorem sideRates_sum (nonzero : ∀ elm, mesh.poreVolume data elm ≠ 0)
    (side : TransportSide n) (edge : List (TransportSide n)) :
    ((mesh.sideRates data ⟨side, none, edge⟩).map (massRate mesh data c)).sum =
      max (-data.sideFlux side) 0 / edgeOutflow data edge *
        (edge.map fun other => max (data.sideFlux other) 0 * c other.element).sum := by
  have term : ∀ other, massRate mesh data c
      (side.element, other.element, mesh.inflowRate data ⟨side, none, edge⟩ other) =
        max (-data.sideFlux side) 0 / edgeOutflow data edge *
          (max (data.sideFlux other) 0 * c other.element) := by
    intro other
    have volume := poreVolume_mul_inflowRate nonzero ⟨side, none, edge⟩ other
    unfold massRate
    rw [volume]
    ring
  have own : max (-data.sideFlux side) 0 / edgeOutflow data edge *
      (max (data.sideFlux side) 0 * c side.element) = 0 := by
    obtain out | into := le_total 0 (data.sideFlux side)
    · simp [max_eq_right (neg_nonpos.mpr out)]
    · simp [max_eq_right into]
  unfold sideRates
  rw [List.map_map, ← List.sum_map_mul_left, ← sum_filter_ne edge _ own]
  congr 1
  exact List.map_congr_left fun other _ => term other

theorem sum_max_neg (edge : List (TransportSide n))
    (balanced : (edge.map data.sideFlux).sum = 0) :
    (edge.map fun side => max (-data.sideFlux side) 0).sum = edgeOutflow data edge := by
  have difference : ∀ edge : List (TransportSide n),
      edgeOutflow data edge - (edge.map fun side => max (-data.sideFlux side) 0).sum =
        (edge.map data.sideFlux).sum := by
    intro edge
    induction edge with
    | nil => simp [edgeOutflow]
    | cons side edge ih =>
        have split : max (data.sideFlux side) 0 - max (-data.sideFlux side) 0 =
            data.sideFlux side := by
          obtain out | into := le_total 0 (data.sideFlux side)
          · rw [max_eq_left out, max_eq_right (neg_nonpos.mpr out), sub_zero]
          · rw [max_eq_right into, max_eq_left (neg_nonneg.mpr into), zero_sub, neg_neg]
        unfold edgeOutflow at ih ⊢
        rw [List.map_cons, List.map_cons, List.map_cons, List.sum_cons, List.sum_cons,
          List.sum_cons]
        linarith
  linarith [difference edge]

/-- What flows out of the sides of an inner edge flows into its other sides. -/
theorem innerEdge_exchange (nonzero : ∀ elm, mesh.poreVolume data elm ≠ 0)
    (edge : List (TransportSide n)) (balanced : (edge.map data.sideFlux).sum = 0) :
    (edge.map fun side =>
      ((mesh.sideRates data ⟨side, none, edge⟩).map (massRate mesh data c)).sum).sum =
      (edge.map fun side => max (data.sideFlux side) 0 * c side.element).sum := by
  have taken := sum_max_neg edge balanced
  rw [List.map_congr_left fun side _ => sideRates_sum nonzero side edge,
    List.sum_map_mul_right]
  simp only [div_eq_mul_inv]
  rw [List.sum_map_mul_right, taken]
  by_cases flow : edgeOutflow data edge = 0
  · have still : ∀ side ∈ edge, max (data.sideFlux side) 0 * c side.element = 0 := by
      intro side member
      have less : data.sideFlux side ≤ edgeOutflow data edge := le_edgeOutflow member
      rw [flow] at less
      rw [max_eq_right less, zero_mul]
    rw [List.sum_eq_zero (by simpa using still), mul_zero]
  · rw [mul_inv_cancel₀ flow, one_mul]

end Edge

end TransportMesh

end Flow123d
