import Flow123d.Flow.SteadyBlocks

/-!
# Fluxes through the boundary

The equations of all elements and of all inner edges add up to the conservation of mass: what
flows through sides with a boundary is what the sources give.
-/

set_option autoImplicit false

namespace Flow123d

open Flow123d.Library

namespace FlowMesh

variable (mesh : FlowMesh)

/-- A boundary is one of the whole edge, and no coupling is on such an edge. -/
structure Bounded : Prop where
  onEdge : ∀ side other : mesh.Side, mesh.edgeIdx side = mesh.edgeIdx other →
    mesh.cond side = none → mesh.cond other = none
  onNeighbour : ∀ elm, ∀ ngh ∈ mesh.neighVb elm, ∀ side : mesh.Side,
    mesh.edgeIdx side = ngh.edgeIdx → mesh.cond side = none

/-- The rows that are added up: those of elements and of edges without a boundary. -/
def balanceRow : mesh.Row → ℚ
  | .side _ => 0
  | .element _ => 1
  | .edge edge => if (mesh.edgeSides edge).all fun side => (mesh.cond side).isNone then 1 else 0

variable {mesh}

theorem Bounded.balanceRow_edge (bounded : mesh.Bounded) (side : mesh.Side) :
    mesh.balanceRow (.edge (mesh.edgeIdx side)) =
      if mesh.cond side = none then 1 else 0 := by
  refine if_congr ?_ rfl rfl
  rw [List.all_eq_true]
  constructor
  · intro all
    exact Option.isNone_iff_eq_none.mp (all side ((mesh.mem_edgeSides _ _).mpr rfl))
  · intro open_ other listed
    have same := (mesh.mem_edgeSides _ _).mp listed
    exact Option.isNone_iff_eq_none.mpr (bounded.onEdge side other same.symm open_)

theorem Bounded.balanceRow_neighbour (bounded : mesh.Bounded) {elm : mesh.Element}
    {ngh : FlowNeighbour mesh.nElements mesh.nEdges mesh.Side}
    (member : ngh ∈ mesh.neighVb elm) : mesh.balanceRow (.edge ngh.edgeIdx) = 1 := by
  refine if_pos (List.all_eq_true.mpr fun side listed => ?_)
  exact Option.isNone_iff_eq_none.mpr
    (bounded.onNeighbour elm ngh member side ((mesh.mem_edgeSides _ _).mp listed))

end FlowMesh

namespace FlowData

variable {mesh : FlowMesh} (data : FlowData mesh) (x : mesh.Row → ℚ)

/-- The flux through a side with a boundary. -/
def boundaryFlux (x : mesh.Row → ℚ) (side : mesh.Side) : ℚ :=
  if mesh.cond side = none then 0 else x (.side side)

/-- `measure * cross_section * water_source_density`. -/
def elementSource (elm : mesh.Element) : ℚ :=
  mesh.measure elm * data.crossSection elm * data.waterSourceDensity elm

variable {data} {x}

theorem balance_conditionMatrix (bounded : mesh.Bounded) (side : mesh.Side) :
    weightedSum mesh.balanceRow x (data.conditionMatrix side) = 0 := by
  cases cond : mesh.cond side with
  | none => simp [conditionMatrix, cond, weightedSum]
  | some b =>
      refine weightedSum_of_forall fun entry member => ?_
      rw [(data.mem_conditionMatrix member).1, bounded.balanceRow_edge, cond]
      rfl

theorem balance_conditionRhs (bounded : mesh.Bounded) (side : mesh.Side) :
    weightedPlaces mesh.balanceRow (data.conditionRhs side) = 0 := by
  cases cond : mesh.cond side with
  | none => simp [conditionRhs, cond, weightedPlaces]
  | some b =>
      have onEdge := bounded.balanceRow_edge side
      simp only [cond, reduceCtorEq, if_false] at onEdge
      cases type : data.bcType b <;>
        simp [conditionRhs, cond, type, weightedPlaces, onEdge]

/-- The blocks `B` and `C'` of a side leave its flux where it has a boundary. -/
theorem balance_sideMatrix (bounded : mesh.Bounded) (side : mesh.Side) :
    weightedSum mesh.balanceRow x (data.sideMatrix side) =
      x (.side side) - boundaryFlux x side := by
  have ofSide : mesh.balanceRow (.side side) = 0 := rfl
  unfold sideMatrix boundaryFlux
  rw [weightedSum_append, balance_conditionMatrix bounded, zero_add]
  simp only [weightedSum, List.map_cons, List.map_nil, List.sum_cons, List.sum_nil, ofSide,
    bounded.balanceRow_edge, zero_mul, zero_add, add_zero]
  by_cases cond : mesh.cond side = none
  · simp [cond, cVal, isDirichlet]
  · simp [cond]

theorem balance_divergence (elm : mesh.Element) :
    weightedSum mesh.balanceRow x (divergenceEntries elm) =
      -((mesh.sides elm).map fun side => x (.side side)).sum := by
  unfold divergenceEntries
  rw [weightedSum_append]
  simp only [weightedSum, List.map_map, Function.comp_def, FlowMesh.balanceRow, one_mul,
    neg_one_mul, zero_mul, sum_map_neg]
  simp

theorem balance_localEntries (elm : mesh.Element) :
    weightedSum mesh.balanceRow x (data.localEntries elm) = 0 := by
  refine weightedSum_of_forall fun entry member => ?_
  simp only [localEntries, List.mem_flatMap, List.mem_map] at member
  obtain ⟨i, _, j, _, rfl⟩ := member
  rfl

theorem balance_neighbourMatrix (bounded : mesh.Bounded) {elm : mesh.Element}
    {ngh : FlowNeighbour mesh.nElements mesh.nEdges mesh.Side}
    (member : ngh ∈ mesh.neighVb elm) :
    weightedSum mesh.balanceRow x (data.neighbourMatrix elm ngh) = 0 := by
  have ofElement : mesh.balanceRow (.element elm) = 1 := rfl
  simp only [neighbourMatrix, weightedSum, List.map_cons, List.map_nil, List.sum_cons,
    List.sum_nil, ofElement, bounded.balanceRow_neighbour member]
  ring

theorem balance_elementMatrix (bounded : mesh.Bounded) (elm : mesh.Element) :
    weightedSum mesh.balanceRow x (data.elementMatrix elm) =
      -((mesh.sides elm).map (boundaryFlux x)).sum := by
  have couplings : ((mesh.neighVb elm).map fun ngh =>
      weightedSum mesh.balanceRow x (data.neighbourMatrix elm ngh)).sum = 0 := by
    refine List.sum_eq_zero fun value member => ?_
    obtain ⟨ngh, isNgh, rfl⟩ := List.mem_map.mp member
    exact balance_neighbourMatrix bounded isNgh
  have diagonal : weightedSum mesh.balanceRow x
      [((.element elm, .element elm, 0) : mesh.MatrixEntry)] = 0 := by
    simp [weightedSum]
  unfold elementMatrix
  rw [weightedSum_append, weightedSum_append, weightedSum_append, weightedSum_append,
    weightedSum_flatMap, weightedSum_flatMap, couplings, diagonal, balance_localEntries,
    balance_divergence]
  simp only [balance_sideMatrix bounded, sum_map_sub]
  ring

theorem balance_elementRhs (bounded : mesh.Bounded) (elm : mesh.Element) :
    weightedPlaces mesh.balanceRow (data.elementRhs elm) = -data.elementSource elm := by
  have conditions : ((mesh.sides elm).map fun side =>
      weightedPlaces mesh.balanceRow (data.conditionRhs side)).sum = 0 := by
    refine List.sum_eq_zero fun value member => ?_
    obtain ⟨side, _, rfl⟩ := List.mem_map.mp member
    exact balance_conditionRhs bounded side
  have gravity : weightedPlaces mesh.balanceRow ((mesh.sides elm).map fun side =>
      (FlowMesh.Row.side side, data.sideRhs side)) = 0 := by
    refine weightedPlaces_of_forall fun entry member => ?_
    obtain ⟨side, _, rfl⟩ := List.mem_map.mp member
    rfl
  unfold elementRhs
  rw [weightedPlaces_append, weightedPlaces_append, weightedPlaces_flatMap, conditions, gravity]
  simp only [weightedPlaces, FlowMesh.balanceRow, elementSource, List.map_cons, List.map_nil,
    List.sum_cons, List.sum_nil]
  ring

/-- Every solution lets as much flow through the boundary as the sources give. -/
theorem sum_boundaryFlux (bounded : mesh.Bounded)
    (solves : (DarcyFlowMHSteady.assembledMatrix data).mulVec x =
      DarcyFlowMHSteady.assembledRhs data) :
    ∑ side, boundaryFlux x side = ∑ elm, data.elementSource elm := by
  have rows : ∑ row, mesh.balanceRow row *
      (DarcyFlowMHSteady.assembledMatrix data).mulVec x row =
        ∑ row, mesh.balanceRow row * DarcyFlowMHSteady.assembledRhs data row := by
    rw [solves]
  unfold DarcyFlowMHSteady.assembledMatrix DarcyFlowMHSteady.assembledRhs at rows
  rw [sum_weight_mulVec, sum_weight_addValues, weightedSum_flatMap,
    weightedPlaces_flatMap] at rows
  simp only [balance_elementMatrix bounded, balance_elementRhs bounded, sum_map_neg,
    neg_inj] at rows
  rw [← mesh.sum_sides, rows, sum_finRange]

end FlowData

end Flow123d
