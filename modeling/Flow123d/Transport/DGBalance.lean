import Flow123d.Library.GroupedSums
import Flow123d.Mesh.ElementGraph
import Flow123d.Transport.DGCurrentData
import Flow123d.Transport.DGRowSums

/-!
# Mass balance of the discontinuous Galerkin transport

The rows of the system of a time step add up to the balance of masses, sources and boundary fluxes
that `calc_elem_sources` and `calc_fluxes` compute.
-/

set_option autoImplicit false

namespace Flow123d

open Flow123d.Library Matrix

/-! ## Sides of the boundary -/

namespace AcceptedMesh

variable {setup : AcceptedMesh}

theorem sideAt_of_isSide {si : SideIter} (isSide : setup.mesh.IsSide si) :
    ∃ side, setup.sideAt si = some side ∧ side.iter = si := by
  obtain ⟨ele, lookup, bound⟩ := isSide
  have inside : si.element < setup.mesh.element.length := (List.getElem?_eq_some_iff.mp lookup).1
  have dim : (setup.dim ⟨si.element, inside⟩).val = ele.dim := by
    have same := setup.element_lookup ⟨si.element, inside⟩
    rw [lookup] at same
    cases same
    rfl
  have local_ : si.elIdx < setup.dim ⟨si.element, inside⟩ + 1 := by
    rw [dim]
    exact bound
  refine ⟨⟨⟨si.element, inside⟩, ⟨si.elIdx, local_⟩⟩, ?_, rfl⟩
  rw [sideAt, dif_pos inside, dif_pos local_]

/-- The accessors of an edge lead to all its sides. -/
theorem sides_of_filterMap {edge : Edge} (member : edge ∈ setup.topology.edges)
    {side : setup.Side} (single : edge.sides.filterMap setup.sideAt = [side]) :
    edge.sides = [side.iter] := by
  have each : ∀ sides : List SideIter, (∀ si ∈ sides, setup.mesh.IsSide si) →
      (sides.filterMap setup.sideAt).map Side.iter = sides := by
    intro sides isSide
    induction sides with
    | nil => rfl
    | cons si sides ih =>
        obtain ⟨side, found, same⟩ := sideAt_of_isSide (isSide si List.mem_cons_self)
        rw [List.filterMap_cons_some found, List.map_cons, same,
          ih fun other later => isSide other (List.mem_cons_of_mem _ later)]
  have all := each edge.sides fun si listed =>
    Mesh.isSide_of_listed setup.accepted member listed
  rw [single] at all
  exact all.symm

theorem Side.iter_injective {side other : setup.Side} (same : side.iter = other.iter) :
    side = other := by
  obtain ⟨elm, sid⟩ := side
  obtain ⟨elm', sid'⟩ := other
  have elements : elm = elm' := Fin.ext (congrArg SideIter.element same)
  subst elements
  have sids : sid = sid' := Fin.ext (congrArg SideIter.elIdx same)
  rw [sids]

end AcceptedMesh

namespace TransportDG

section Boundary

variable {K : Type} {dg : TransportDG K}

theorem of_mem_boundarySides {bcd : dg.Side × ℕ} (member : bcd ∈ dg.boundarySides) :
    (∃ edge ∈ dg.topology.edges, edge.sides = [bcd.1.iter]) ∧
      dg.topology.condIdx bcd.1.iter = some bcd.2 := by
  obtain ⟨d, -, listed⟩ := List.mem_flatMap.mp member
  obtain ⟨sides, isEdge, found⟩ := List.mem_filterMap.mp listed
  obtain ⟨edge, inMesh, rfl⟩ := List.mem_map.mp isEdge
  match single : edge.sides.filterMap dg.sideAt, found with
  | [side], found =>
      simp only [boundarySide] at found
      split_ifs at found
      obtain ⟨b, cond, rfl⟩ := Option.map_eq_some_iff.mp found
      exact ⟨⟨edge, inMesh, AcceptedMesh.sides_of_filterMap inMesh single⟩, cond⟩

/-- A boundary belongs to one of the sides that are alone on their edges. -/
theorem boundarySides_unique {bcd other : dg.Side × ℕ} (first : bcd ∈ dg.boundarySides)
    (second : other ∈ dg.boundarySides) (same : other.2 = bcd.2) : other.1 = bcd.1 := by
  obtain ⟨⟨edge, inMesh, alone⟩, cond⟩ := of_mem_boundarySides first
  obtain ⟨-, otherCond⟩ := of_mem_boundarySides second
  obtain ⟨keys, placed⟩ := dg.placed
  have distinct : dg.mesh.DistinctNodes := fun ele member =>
    Mesh.nodup_of_measureSquared (dg.nonDegenerate ele member)
  have onEdge : ∀ {si b bdr}, dg.topology.condIdx si = some b →
      dg.topology.boundary[b]? = some bdr → dg.topology.edgeIdx si = some bdr.edgeIdx := by
    intro si b bdr isCond lookup
    obtain ⟨found, -, again, position, -⟩ := placed.onBoundary si b isCond
    rw [lookup] at again
    cases again
    exact position
  obtain ⟨bdr, -, lookup, -⟩ := placed.onBoundary _ _ cond
  -- both sides lie on the edge of the boundary, which shares a side with the given edge
  obtain ⟨common, atEdge, listed⟩ := (Mesh.valid_topology dg.accepted).definedListed _ _
    (onEdge cond lookup)
  obtain ⟨again, atSame, otherListed⟩ := (Mesh.valid_topology dg.accepted).definedListed _ _
    (onEdge otherCond (same ▸ lookup))
  rw [atEdge] at atSame
  cases atSame
  obtain ⟨k, here⟩ := List.mem_iff_getElem?.mp inMesh
  have subset := Mesh.sides_of_shared distinct dg.accepted atEdge here listed
    (by rw [alone]; exact List.mem_singleton.mpr rfl)
  have single := subset otherListed
  rw [alone] at single
  exact AcceptedMesh.Side.iter_injective (List.mem_singleton.mp single)

end Boundary

variable {K : Type} [Field K] [LinearOrder K] [IsStrictOrderedRing K] {dg : TransportDG K}

namespace EqData

variable (data : EqData dg) (fluxes : SideFluxes K) (sbi : Fin dg.nSubst) (conc : dg.Row → K)

omit [IsStrictOrderedRing K] in
/-- The stored penalty of a boundary is that of its side. -/
theorem storeGamma_of_boundary (gamma : ℕ → K) {bcd : dg.Side × ℕ}
    (member : bcd ∈ dg.boundarySides) :
    data.storeGamma fluxes sbi gamma bcd.2 = data.boundaryGamma fluxes sbi bcd.1 := by
  refine writeAll_of_agree (List.mem_map.mpr ⟨bcd, member, rfl⟩) ?_
  intro write isWrite same
  obtain ⟨other, isOther, rfl⟩ := List.mem_map.mp isWrite
  rw [boundarySides_unique member isOther same]

/-! ## Sums of the right-hand side -/

theorem placeTotal_sources :
    weightedPlaces (fun _ => 1) (data.setSources sbi) =
      (dg.cells.map fun elm => ∑ k ∈ Finset.range (cellQuadrature elm).size,
        data.sourceTerm sbi elm k).sum := by
  unfold setSources
  rw [weightedPlaces_flatMap]
  refine congrArg List.sum (List.map_congr_left fun elm _ => ?_)
  rw [weightedPlaces_partEntries]
  simp only [one_mul]
  rw [Finset.sum_comm]
  refine Finset.sum_congr rfl fun k _ => ?_
  rw [← Finset.mul_sum, sum_cellValue, mul_one]

/-- What the boundary term adds for one side. -/
def inflowSum (gamma : ℕ → K) (bcd : dg.Side × ℕ) : K :=
  if fluxes.sideFlux bcd.1.iter < -fluxes.precision then
    ∑ k ∈ Finset.range (sideQuadrature bcd.1).size,
      gamma bcd.2 * data.bcConc bcd.2 (sidePoint bcd.1 k) sbi * sideJxW bcd.1 k
  else 0

theorem placeTotal_boundary (gamma : ℕ → K) :
    weightedPlaces (fun _ => 1) (data.setBoundaryConditions fluxes sbi gamma) =
      (dg.boundarySides.map (data.inflowSum fluxes sbi gamma)).sum := by
  unfold setBoundaryConditions
  rw [weightedPlaces_flatMap]
  induction dg.boundarySides with
  | nil => rfl
  | cons bcd others ih =>
      rw [List.map_cons, List.sum_cons, ← ih, inflowSum]
      split_ifs with inflow
      · have kept : decide (fluxes.sideFlux bcd.1.iter < -fluxes.precision) = true :=
          decide_eq_true inflow
        simp only [List.filter_cons, kept, if_true, List.map_cons, List.sum_cons,
          weightedPlaces_partEntries]
        congr 1
        simp only [one_mul]
        rw [Finset.sum_comm]
        refine Finset.sum_congr rfl fun k _ => ?_
        rw [← Finset.mul_sum, sum_sideValue, mul_one]
      · have dropped : decide (fluxes.sideFlux bcd.1.iter < -fluxes.precision) = false :=
          decide_eq_false inflow
        simp only [List.filter_cons, dropped, Bool.false_eq_true, if_false, zero_add]

/-! ## The balance -/

/-- The masses in all regions. -/
def totalMass : K := ∑ region, (data.calcElemSources sbi conc).mass region

def totalSources : K := ∑ region, (data.calcElemSources sbi conc).srcBalance region

/-- The fluxes through all parts of the boundary. -/
def totalFlux (gamma : ℕ → K) : K :=
  ∑ region, (data.calcFluxes fluxes sbi conc gamma).balance region

omit [IsStrictOrderedRing K] in
theorem totalMass_eq : data.totalMass sbi conc = (dg.cells.map (data.massSum conc)).sum := by
  simp only [totalMass, calcElemSources, sum_addValues, List.map_map, Pi.zero_apply,
    Finset.sum_const_zero, zero_add]
  rfl

omit [IsStrictOrderedRing K] in
theorem totalSources_eq :
    data.totalSources sbi conc = (dg.cells.map (data.sourcesSum sbi conc)).sum := by
  simp only [totalSources, calcElemSources, sum_addValues, List.map_map, Pi.zero_apply,
    Finset.sum_const_zero, zero_add]
  rfl

omit [IsStrictOrderedRing K] in
theorem totalFlux_eq (gamma : ℕ → K) : data.totalFlux fluxes sbi conc gamma =
    (dg.boundarySides.map (data.massFlux fluxes sbi conc gamma)).sum := by
  simp only [totalFlux, calcFluxes, sum_addValues, List.map_map, Pi.zero_apply,
    Finset.sum_const_zero, zero_add]
  rfl

/-- The flux through a side: what the matrix takes from it, less the right-hand side. -/
theorem massFlux_eq {bcd : dg.Side × ℕ} (member : bcd ∈ dg.boundarySides) (before : ℕ → K) :
    let gamma := data.storeGamma fluxes sbi before
    data.massFlux fluxes sbi conc gamma bcd =
      ∑ k ∈ Finset.range (sideQuadrature bcd.1).size,
        data.boundaryFlux fluxes sbi bcd.1 * sideConc conc bcd.1 k * sideJxW bcd.1 k -
          data.inflowSum fluxes sbi gamma bcd := by
  intro gamma
  have stored : gamma bcd.2 = data.boundaryGamma fluxes sbi bcd.1 :=
    data.storeGamma_of_boundary fluxes sbi before member
  unfold massFlux inflowSum boundaryFlux
  split_ifs with inflow
  · rw [← Finset.sum_sub_distrib]
    refine Finset.sum_congr rfl fun k _ => ?_
    rw [stored]
    ring
  · rw [sub_zero]
    exact Finset.sum_congr rfl fun k _ => zero_add _

/-- What leaves the system through its matrix and comes in by its right-hand side. -/
theorem rowTotal_stiffness (before : ℕ → K) :
    weightedPlaces (fun _ => 1) (data.setSources sbi ++
        data.setBoundaryConditions fluxes sbi (data.storeGamma fluxes sbi before)) -
      weightedSum (fun _ => 1) conc (data.assembleStiffnessMatrix fluxes sbi) =
        data.totalSources sbi conc -
          data.totalFlux fluxes sbi conc (data.storeGamma fluxes sbi before) := by
  have sources : data.totalSources sbi conc =
      weightedPlaces (fun _ => 1) (data.setSources sbi) -
        weightedSum (fun _ => 1) conc (data.assembleVolumeIntegrals fluxes sbi) := by
    rw [totalSources_eq, placeTotal_sources, rowTotal_volume, ← sum_map_sub]
    refine congrArg List.sum (List.map_congr_left fun elm _ => ?_)
    rw [← Finset.sum_sub_distrib]
    refine Finset.sum_congr rfl fun k _ => ?_
    unfold sourceTerm
    ring
  have flux : data.totalFlux fluxes sbi conc (data.storeGamma fluxes sbi before) =
      weightedSum (fun _ => 1) conc (data.assembleFluxesBoundary fluxes sbi) -
        weightedPlaces (fun _ => 1) (data.setBoundaryConditions fluxes sbi
          (data.storeGamma fluxes sbi before)) := by
    rw [totalFlux_eq, placeTotal_boundary, rowTotal_boundary, ← sum_map_sub]
    exact congrArg List.sum (List.map_congr_left fun bcd member =>
      data.massFlux_eq fluxes sbi conc member before)
  unfold assembleStiffnessMatrix
  rw [weightedPlaces_append, weightedSum_append, weightedSum_append, weightedSum_append,
    rowTotal_elementElement, rowTotal_elementSide, sources, flux]
  ring

end EqData

/-! ## Time steps -/

def System.Solved (system : System dg) (solution : dg.Row → K) : Prop :=
  system.matrix *ᵥ solution = system.rhs

omit [LinearOrder K] [IsStrictOrderedRing K] in
theorem sum_mulVec (entries : List (dg.Row × dg.Row × K)) (conc : dg.Row → K) :
    ∑ row, (addMatrixValues 0 entries *ᵥ conc) row = weightedSum (fun _ => 1) conc entries := by
  rw [← sum_weight_mulVec]
  simp only [one_mul]

omit [LinearOrder K] [IsStrictOrderedRing K] in
theorem sum_places (entries : List (dg.Row × K)) :
    ∑ row, addValues 0 entries row = weightedPlaces (fun _ => 1) entries := by
  rw [← sum_weight_addValues]
  simp only [one_mul]

namespace State

variable {state : State dg} {call : Call dg} {solver : System dg → dg.Row → K}

/-- The mass changes by what the sources bring and the boundary takes. -/
def Balances (solver : System dg → dg.Row → K) (state : State dg) (call : Call dg) : Prop :=
  let after := state.updateSolution solver call
  ∀ sbi, after.data.totalMass sbi (after.solution sbi) -
      state.data.totalMass sbi (state.solution sbi) =
    call.dt * (after.data.totalSources sbi (after.solution sbi) -
      after.data.totalFlux after.fluxes sbi (after.solution sbi) (after.gamma sbi))

/-- The solver solves the systems of the call. -/
def Solves (solver : System dg → dg.Row → K) (state : State dg) (call : Call dg) : Prop :=
  ∀ sbi, let system := (state.prepare call).system call.dt sbi
    system.Solved (solver system)

/-- The data do not change, and after the first call neither the porosity nor the cross section
is reported as changed. -/
structure Keeps (state : State dg) (call : Call dg) : Prop where
  data : call.data = state.data
  unreported : state.allocationDone = true →
    call.changed.porM = false ∧ call.changed.crossSection = false

omit [Field K] [LinearOrder K] [IsStrictOrderedRing K] in
theorem honest_of_same (same : call.data = state.data) : call.Honest state.data := by
  constructor <;> exact fun _ => congrArg _ same

omit [Field K] [LinearOrder K] [IsStrictOrderedRing K] in
theorem Keeps.meets (keeps : state.Keeps call) : state.Meets call where
  porM := fun done => (keeps.unreported done).1
  crossSection := fun done =>
    ⟨(keeps.unreported done).2, congrArg EqData.crossSection keeps.data⟩
  sourcesSigma := fun _ => .inr (congrArg EqData.sourcesSigma keeps.data)
  dispersion := fun _ => .inr ⟨congrArg EqData.dispL keeps.data,
    congrArg EqData.dispT keeps.data, congrArg EqData.diffM keeps.data⟩

omit [IsStrictOrderedRing K] in
theorem Reached.mono {allowed other : State dg → Call dg → Prop}
    (weaker : ∀ state call, allowed state call → other state call)
    (reached : Reached allowed solver state) : Reached other solver state := by
  induction reached with
  | create data fluxes solution => exact .create data fluxes solution
  | velocity _ fluxes ih => exact .velocity ih fluxes
  | update _ honest permitted ih => exact .update ih honest (weaker _ _ permitted)

/-- The sum of the rows of a step that is solved with current objects. -/
theorem balances_of_assembled (same : call.data = state.data)
    (assembled : (state.prepare call).Assembled call.data state.fluxes) (step : call.dt ≠ 0)
    (solves : Solves solver state call) : Balances solver state call := by
  intro sbi
  obtain ⟨data, fluxes, solution⟩ := prepare_sameInputs state call
  have current : (state.updateSolution solver call).data = call.data := data
  have velocity : (state.updateSolution solver call).fluxes = state.fluxes := fluxes
  have gamma : (state.updateSolution solver call).gamma sbi =
      call.data.storeGamma state.fluxes sbi 0 := congrFun assembled.gamma sbi
  have rows := congrArg (fun vector : dg.Row → K => ∑ row, vector row) (solves sbi)
  have solved : (state.updateSolution solver call).solution sbi =
      solver ((state.prepare call).system call.dt sbi) := rfl
  rw [← solved] at rows
  simp only [system, assembled.massMatrix, assembled.stiffnessMatrix, assembled.rhs,
    Option.getD_some, solution, Matrix.add_mulVec, Matrix.smul_mulVec, Pi.add_apply,
    Pi.smul_apply, smul_eq_mul, Finset.sum_add_distrib, ← Finset.mul_sum, sum_mulVec,
    sum_places, EqData.rowTotal_mass, ← EqData.totalMass_eq _ sbi] at rows
  have balance := call.data.rowTotal_stiffness state.fluxes sbi
    ((state.updateSolution solver call).solution sbi) 0
  have unit : call.dt * (1 / call.dt) = 1 := mul_one_div_cancel step
  rw [current, velocity, gamma, ← balance, ← same]
  linear_combination call.dt * rows -
    (call.data.totalMass sbi ((state.updateSolution solver call).solution sbi) -
      call.data.totalMass sbi (state.solution sbi)) * unit

/-- With data that are constant and not reported as changed, every step of a run is balanced. -/
theorem reached_balances (reached : Reached Keeps solver state) (keeps : state.Keeps call)
    (step : call.dt ≠ 0) (solves : Solves solver state call) : Balances solver state call :=
  balances_of_assembled keeps.data
    (reached_assembled (reached.mono fun _ _ kept => kept.meets) (honest_of_same keeps.data)
      keeps.meets) step solves

/-! ## The line element -/

def lineRow : line.Row := ⟨⟨0, by decide⟩, ⟨0, by decide⟩⟩

/-- The exact solution of a system with one row. -/
def lineSolver (system : System line) : line.Row → ℚ :=
  fun row => system.rhs row / system.matrix lineRow lineRow

theorem solved_line (system : System line) (pivot : system.matrix lineRow lineRow ≠ 0) :
    system.Solved (lineSolver system) := by
  have single : ∀ row : line.Row, row = lineRow := by decide
  funext row
  rw [single row, mulVec, dotProduct, Finset.sum_eq_single lineRow]
  · exact mul_div_cancel₀ _ pivot
  · exact fun other _ apart => absurd (single other) apart
  · exact fun outside => absurd (Finset.mem_univ lineRow) outside

theorem reached_balances_line : Balances lineSolver
    ((initial (lineData 1 1) lineFluxes 0).updateSolution lineSolver (lineCall 1 1 false))
    (lineCall 1 1 false) :=
  reached_balances (.update (.create _ _ _) (honest_of_same rfl) ⟨rfl, nofun⟩)
    ⟨rfl, fun _ => ⟨rfl, rfl⟩⟩ one_ne_zero fun _ => solved_line _ (by decide +kernel +revert)

/-- The porosity of the line is reported as changed at the second call. -/
theorem not_always_balances :
    ¬ ∀ (solver : System line → line.Row → ℚ) (state : State line) (call : Call line),
      Reached (fun state call => call.data = state.data) solver state →
        call.data = state.data → call.dt ≠ 0 → Solves solver state call →
          Balances solver state call := by
  intro always
  have balance := always lineSolver
    ((initial (lineData 1 1) lineFluxes 0).updateSolution lineSolver (lineCall 1 1 true))
    (lineCall 1 1 true) (.update (.create _ _ _) (honest_of_same rfl) rfl) rfl one_ne_zero
    (fun _ => solved_line _ (by decide +kernel +revert)) ⟨0, by decide⟩
  revert balance
  decide +kernel

end State

end TransportDG

end Flow123d
