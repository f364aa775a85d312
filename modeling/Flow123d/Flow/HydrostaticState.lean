import Flow123d.Flow.AcceptedMesh
import Mathlib.Tactic.LinearCombination

/-!
# The hydrostatic state

The piezometric head of water at rest is constant. The assembly evaluates the third coordinate
at the centres of elements, sides, boundary elements and elements of lower dimension, and these
agree wherever an equation compares two of them.
-/

set_option autoImplicit false

namespace Flow123d

open Flow123d.Library

namespace FlowMesh

variable (mesh : FlowMesh)

/-- The centres agree on every edge, with the given centres of the boundary elements. -/
structure Level (boundaryCentre : ℕ → Option ℚ) : Prop where
  onEdge : ∀ side other : mesh.Side, mesh.edgeIdx side = mesh.edgeIdx other →
    mesh.sideCentre side = mesh.sideCentre other
  onBoundary : ∀ (side : mesh.Side) b, mesh.cond side = some b →
    boundaryCentre b = some (mesh.sideCentre side)
  onNeighbour : ∀ elm, ∀ ngh ∈ mesh.neighVb elm, mesh.edgeIdx ngh.side = ngh.edgeIdx ∧
    mesh.sideCentre ngh.side = mesh.elementCentre elm

/-- Zero fluxes and the constant piezometric head `c`. -/
def hydrostaticState (c : ℚ) : mesh.Row → ℚ
  | .side _ => 0
  | .element elm => c - mesh.elementCentre elm
  | .edge edge => (mesh.edgeSides edge).head?.elim 0 fun side => c - mesh.sideCentre side

variable {mesh}

theorem Level.edge_pressure {boundaryCentre : ℕ → Option ℚ} (level : mesh.Level boundaryCentre)
    (c : ℚ) (side : mesh.Side) :
    mesh.hydrostaticState c (.edge (mesh.edgeIdx side)) = c - mesh.sideCentre side := by
  have listed := (mesh.mem_edgeSides (mesh.edgeIdx side) side).mpr rfl
  cases sides : mesh.edgeSides (mesh.edgeIdx side) with
  | nil => simp [sides] at listed
  | cons first rest =>
      have same := (mesh.mem_edgeSides (mesh.edgeIdx side) first).mp (by simp [sides])
      simp [hydrostaticState, sides, level.onEdge first side same]

end FlowMesh

namespace FlowData

variable {mesh : FlowMesh} (data : FlowData mesh)

/-- The data of water at rest: no sources, and conditions that hold for it. -/
structure AtRest (boundaryCentre : ℕ → Option ℚ) (c : ℚ) : Prop where
  noSources : ∀ elm, data.waterSourceDensity elm = 0
  known : ∀ b z, boundaryCentre b = some z → data.bcType b ≠ .totalFlux
  pressure : ∀ b z, boundaryCentre b = some z →
    data.bcType b = .dirichlet ∨ data.bcType b = .robin → data.bcPressure b = c - z
  flux : ∀ b z, boundaryCentre b = some z → data.bcType b = .neumann → data.bcFlux b = 0

variable {data} {boundaryCentre : ℕ → Option ℚ} {c : ℚ}

theorem AtRest.supported (rest : data.AtRest boundaryCentre c)
    (level : mesh.Level boundaryCentre) : data.supported = true := by
  unfold FlowData.supported
  refine List.all_eq_true.mpr fun elm _ => List.all_eq_true.mpr fun side _ => ?_
  cases cond : mesh.cond side with
  | none => rfl
  | some b =>
      exact decide_eq_true (rest.known b _ (level.onBoundary side b cond))

/-- The condition of a side holds on its edge. -/
theorem AtRest.condition (rest : data.AtRest boundaryCentre c)
    (level : mesh.Level boundaryCentre) (side : mesh.Side) (row : mesh.Row) :
    rowSum (data.conditionMatrix side) (mesh.hydrostaticState c) row =
      placeSum (data.conditionRhs side) row := by
  unfold conditionMatrix conditionRhs
  cases cond : mesh.cond side with
  | none => rfl
  | some b =>
      have centre := level.onBoundary side b cond
      have edge := level.edge_pressure c side
      cases type : data.bcType b with
      | none => simp [type, placeSum]
      | totalFlux => simp [type, placeSum]
      | dirichlet =>
          have pressure := rest.pressure b _ centre (.inl type)
          simp [type, rowSum, placeSum, edge, pressure]
      | neumann =>
          simp [type, placeSum, rest.flux b _ centre type]
      | robin =>
          have pressure := rest.pressure b _ centre (.inr type)
          simp only [type, rowSum, placeSum, edge, pressure, List.map_cons, List.map_nil,
            List.sum_cons, List.sum_nil]
          congr 2
          ring

/-- The gravity term balances the pressures of the element and the edge. -/
theorem AtRest.gravity (rest : data.AtRest boundaryCentre c)
    (level : mesh.Level boundaryCentre) (side : mesh.Side) :
    data.cVal side * (c - mesh.sideCentre side) - (c - mesh.elementCentre side.1) =
      data.sideRhs side := by
  unfold cVal sideRhs isDirichlet
  cases cond : mesh.cond side with
  | none => simp
  | some b =>
      by_cases type : data.bcType b = .dirichlet
      · simp [type, rest.pressure b _ (level.onBoundary side b cond) (.inl type)]
      · simp [type]

theorem coupling_rowSum (level : mesh.Level boundaryCentre) (elm : mesh.Element)
    {ngh : FlowNeighbour mesh.nElements mesh.nEdges mesh.Side} (member : ngh ∈ mesh.neighVb elm)
    (row : mesh.Row) :
    rowSum (data.neighbourMatrix elm ngh) (mesh.hydrostaticState c) row = 0 := by
  obtain ⟨own, centre⟩ := level.onNeighbour elm ngh member
  have edge : mesh.hydrostaticState c (.edge ngh.edgeIdx) = c - mesh.elementCentre elm := by
    rw [← own, level.edge_pressure, centre]
  have element : mesh.hydrostaticState c (.element elm) = c - mesh.elementCentre elm := rfl
  unfold neighbourMatrix
  rw [rowSum_cons, rowSum_cons, rowSum_cons, rowSum_cons, rowSum_nil]
  simp only [edge, element]
  by_cases ofElement : FlowMesh.Row.element elm = row <;>
    by_cases ofEdge : FlowMesh.Row.edge ngh.edgeIdx = row <;>
      simp [ofElement, ofEdge]

theorem localEntries_rowSum (elm : mesh.Element) (row : mesh.Row) :
    rowSum (data.localEntries elm) (mesh.hydrostaticState c) row = 0 := by
  unfold rowSum localEntries
  refine List.sum_eq_zero fun value member => ?_
  simp only [List.mem_map, List.mem_flatMap] at member
  obtain ⟨_, ⟨i, _, j, _, rfl⟩, rfl⟩ := member
  simp [FlowMesh.hydrostaticState]

theorem divergence_rowSum (elm : mesh.Element) (row : mesh.Row) :
    rowSum (divergenceEntries elm) (mesh.hydrostaticState c) row =
      ((mesh.sides elm).map fun side =>
        if FlowMesh.Row.side side = row then -(c - mesh.elementCentre elm) else 0).sum := by
  unfold divergenceEntries rowSum
  rw [List.map_append, List.sum_append, List.map_map, List.map_map]
  simp [Function.comp_def, FlowMesh.hydrostaticState]

theorem AtRest.side (rest : data.AtRest boundaryCentre c) (level : mesh.Level boundaryCentre)
    (side : mesh.Side) (row : mesh.Row) :
    rowSum (data.sideMatrix side) (mesh.hydrostaticState c) row =
      placeSum (data.conditionRhs side) row +
        if FlowMesh.Row.side side = row then data.cVal side * (c - mesh.sideCentre side)
          else 0 := by
  have flux : mesh.hydrostaticState c (.side side) = 0 := rfl
  unfold sideMatrix
  rw [rowSum_append, rest.condition level, rowSum_cons, rowSum_cons, rowSum_nil]
  simp only [flux, level.edge_pressure, mul_zero, ite_self, add_zero]

/-- What an element adds to a row of the equations holds at rest. -/
theorem AtRest.element (rest : data.AtRest boundaryCentre c)
    (level : mesh.Level boundaryCentre) (elm : mesh.Element) (row : mesh.Row) :
    rowSum (data.elementMatrix elm) (mesh.hydrostaticState c) row =
      placeSum (data.elementRhs elm) row := by
  have diagonal : rowSum [((.element elm, .element elm, 0) : mesh.MatrixEntry)]
      (mesh.hydrostaticState c) row = 0 := by
    rw [rowSum_cons, rowSum_nil, zero_mul, ite_self, add_zero]
  have couplings : ((mesh.neighVb elm).map fun ngh => rowSum (data.neighbourMatrix elm ngh)
      (mesh.hydrostaticState c) row).sum = 0 := by
    refine List.sum_eq_zero fun value member => ?_
    obtain ⟨ngh, isNgh, rfl⟩ := List.mem_map.mp member
    exact coupling_rowSum level elm isNgh row
  have gravity : ∀ side ∈ mesh.sides elm,
      (if FlowMesh.Row.side side = row then data.cVal side * (c - mesh.sideCentre side) else 0) +
        (if FlowMesh.Row.side side = row then -(c - mesh.elementCentre elm) else 0) =
          if FlowMesh.Row.side side = row then data.sideRhs side else 0 := by
    intro side isSide
    have ofElement : side.1 = elm := FlowMesh.mem_sides.mp isSide
    by_cases here : FlowMesh.Row.side side = row
    · rw [if_pos here, if_pos here, if_pos here, ← rest.gravity level side, ofElement]
      ring
    · rw [if_neg here, if_neg here, if_neg here, add_zero]
  have noSource : placeSum [((.element elm, -1 * mesh.measure elm * data.crossSection elm *
      data.waterSourceDensity elm) : mesh.VectorEntry)] row = 0 := by
    simp [placeSum, rest.noSources]
  unfold elementMatrix elementRhs
  rw [rowSum_append, rowSum_append, rowSum_append, rowSum_append, rowSum_flatMap,
    rowSum_flatMap, diagonal, couplings, localEntries_rowSum, divergence_rowSum,
    placeSum_append, placeSum_append, placeSum_flatMap, noSource]
  simp only [rest.side level, List.sum_map_add, add_zero]
  rw [add_assoc, ← List.sum_map_add, List.map_congr_left gravity]
  unfold placeSum
  rw [List.map_map]
  rfl

/-- The equations hold at rest. -/
theorem AtRest.equations (rest : data.AtRest boundaryCentre c)
    (level : mesh.Level boundaryCentre) :
    (DarcyFlowMHSteady.assembledMatrix data).mulVec (mesh.hydrostaticState c) =
      DarcyFlowMHSteady.assembledRhs data := by
  funext row
  unfold DarcyFlowMHSteady.assembledMatrix DarcyFlowMHSteady.assembledRhs
  rw [addMatrixValues_mulVec, Matrix.zero_mulVec, addValues_apply, rowSum_flatMap,
    placeSum_flatMap]
  simp only [rest.element level]

end FlowData

/-! ## Accepted meshes -/

namespace AcceptedMesh

variable (setup : AcceptedMesh)

theorem level (measures : Measures) :
    (setup.flowMesh measures).Level setup.boundaryCentre := by
  obtain ⟨keys, placed⟩ := setup.placed
  have onEdge : ∀ side other : setup.Side, side.edgeIdx = other.edgeIdx →
      setup.mesh.centre (setup.mesh.sideNodes side.iter) =
        setup.mesh.centre (setup.mesh.sideNodes other.iter) := by
    intro side other same
    have first := (placed.onEdge _ _ side.edgeIdx_eq).2
    have second := (placed.onEdge _ _ other.edgeIdx_eq).2
    rw [same] at first
    exact setup.mesh.centre_perm (first.perm second)
  refine ⟨fun side other same => congrFun (onEdge side other same) 2, ?_, ?_⟩
  · intro side b cond
    obtain ⟨bdr, bc_ele, boundary, edge, element, keyed⟩ := placed.onBoundary _ b cond
    have own := (placed.onEdge _ _ edge).2
    have centre := setup.mesh.centre_perm (keyed.perm own)
    simp only [boundaryCentre, boundary, element, Option.bind_some, bind, centre]
    rfl
  · intro (elm : Fin setup.mesh.element.length) ngh (member : ngh ∈ setup.neighVb elm)
    obtain ⟨listed, ofElement⟩ := List.mem_filter.mp member
    obtain ⟨stored, isStored, rfl⟩ := List.mem_pmap.mp listed
    obtain ⟨edge, si, lower, found, first, own, element, keyed⟩ :=
      placed.onNeighbour stored isStored
    have iter : (neighbourSide stored isStored).iter = si :=
      neighbourSide_iter isStored (by simp [Topology.firstSide, found, first])
    have edgeIdx := (neighbourSide stored isStored).edgeIdx_eq
    rw [iter, own] at edgeIdx
    have here : elm.val = stored.element := congrArg Fin.val (of_decide_eq_true ofElement).symm
    have sameElement := setup.element_lookup elm
    rw [here, element] at sameElement
    refine ⟨Fin.ext (Option.some.inj edgeIdx).symm, ?_⟩
    have nodes := keyed.perm (placed.onEdge _ _ own).2
    change setup.mesh.centre (setup.mesh.sideNodes (neighbourSide stored isStored).iter) 2 = _
    rw [iter, ← setup.mesh.centre_perm nodes, Option.some.inj sameElement]
    rfl

/-- The hydrostatic state satisfies every equation, for all conductivities, anisotropies,
cross sections and transition coefficients. -/
theorem hydrostatic_reproduced (measures : Measures)
    (data : FlowData (setup.flowMesh measures)) (c : ℚ)
    (rest : data.AtRest setup.boundaryCentre c) :
    ∃ system, DarcyFlowMHSteady.assemblySteadyMhMatrix data = .ok system ∧
      ∃ state : (setup.flowMesh measures).Row → ℚ,
        (∀ side : setup.Side, state (.side side) = 0 ∧
          state (.edge side.edgeIdx) =
            c - setup.mesh.centre (setup.mesh.sideNodes side.iter) 2) ∧
        (∀ elm, state (.element elm) = c - setup.mesh.centre (setup.element elm).nodes 2) ∧
          system.matrix.mulVec state = system.rhs := by
  have level := setup.level measures
  refine ⟨⟨DarcyFlowMHSteady.assembledMatrix data, DarcyFlowMHSteady.assembledRhs data⟩,
    if_pos (rest.supported level), (setup.flowMesh measures).hydrostaticState c,
    fun side => ⟨rfl, level.edge_pressure c side⟩, fun _ => rfl, rest.equations level⟩

/-- A tilted triangle with a fracture on its first side and a boundary element on another. -/
def tilted : AcceptedMesh :=
  let mesh : Mesh :=
    { nodeVector := [![0, 0, 0], ![1, 0, 1], ![0, 1, 2]]
      element := [⟨1, 2, ![0, 1, 2], Element.triangle_dimLe⟩, ⟨2, 1, ![0, 1], Element.line_dimLe⟩]
      bcElements := [⟨3, 1, ![1, 2], Element.line_dimLe⟩]
      bulkDim := by simp }
  { mesh := mesh
    topology := mesh.makeNeighboursAndEdges.toOption.getD mesh.initialTopology
    accepted := rfl
    nonDegenerate := by unfold Mesh.NonDegenerate; decide +kernel }

/-- Conditions of all known types on the tilted triangle. -/
def tiltedData : FlowData (tilted.flowMesh ⟨fun _ => 1, fun _ => 1, fun _ => 1⟩) where
  crossSection := fun _ => 2
  storativity := fun _ => 1
  initPressure := fun _ => 0
  waterSourceDensity := fun _ => 0
  sigma := fun _ => 3
  bcType := fun b => [.dirichlet, .robin, .neumann].getD b .none
  bcPressure := fun b => 5 - (tilted.boundaryCentre b).getD 0
  bcFlux := fun _ => 0
  bcRobinSigma := fun _ => 1
  localMatrix := fun _ i j => if i = j then 1 else 0

theorem hydrostatic_reproduced_tilted :
    ∃ system, DarcyFlowMHSteady.assemblySteadyMhMatrix tiltedData = .ok system ∧
      ∃ state : (tilted.flowMesh ⟨fun _ => 1, fun _ => 1, fun _ => 1⟩).Row → ℚ,
        (∀ side : tilted.Side, state (.side side) = 0 ∧
          state (.edge side.edgeIdx) =
            5 - tilted.mesh.centre (tilted.mesh.sideNodes side.iter) 2) ∧
        (∀ elm, state (.element elm) =
          5 - tilted.mesh.centre (tilted.element elm).nodes 2) ∧
          system.matrix.mulVec state = system.rhs :=
  tilted.hydrostatic_reproduced _ tiltedData 5
    { noSources := fun _ => rfl
      known := by
        intro b z _
        unfold tiltedData
        rcases b with _ | _ | _ | b <;> simp
      pressure := by
        intro b z centre _
        simp [tiltedData, centre]
      flux := fun _ _ _ _ => rfl }

end AcceptedMesh

end Flow123d
