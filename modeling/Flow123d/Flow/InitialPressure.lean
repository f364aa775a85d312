import Mathlib.Analysis.Convex.Combination
import Flow123d.Flow.AcceptedMesh
import Flow123d.Flow.UnsteadyTimeTerm
import Flow123d.Mesh.SideNodes

/-!
# Initial pressure on the edges

`DarcyFlowLMH_Unsteady` adds to every edge the pressure of an element divided by the number of its
sides, once for each side that lies on the edge. The weights of an edge have the sum one only if
the edge has as many sides as each of its elements.
-/

set_option autoImplicit false

namespace Flow123d

open Flow123d.Library

namespace FlowMesh

variable (mesh : FlowMesh)

/-- Sum of the weights that an edge gets. -/
def edgeWeight (edge : mesh.Edge) : ℚ :=
  ((mesh.edgeSides edge).map fun side => (1 : ℚ) / mesh.nSides side.1).sum

end FlowMesh

namespace DarcyFlowLMHUnsteady

variable {mesh : FlowMesh} (data : FlowData mesh)

/-- The initial pressures of the elements that have a side on the edge. -/
def adjacentPressures (edge : mesh.Edge) : Set ℚ :=
  {pressure | ∃ side, mesh.edgeIdx side = edge ∧ data.initPressure side.1 = pressure}

theorem initialSolution_edge (edge : mesh.Edge) :
    initialSolution data (.edge edge) =
      ((mesh.edgeSides edge).map fun side =>
        data.initPressure side.1 / mesh.nSides side.1).sum := by
  unfold initialSolution
  rw [addValues_apply, placeSum_flatMap, mesh.sum_edgeSides, ← mesh.sum_sides, Pi.zero_apply,
    zero_add]
  congr 2
  funext elm
  unfold initialEntries placeSum FlowMesh.sides
  simp only [List.map_map, Function.comp_def, FlowMesh.Row.edge.injEq]

/-- A constant pressure is multiplied by the weight of the edge. -/
theorem initialSolution_constant {data : FlowData mesh} {c : ℚ}
    (constant : ∀ elm, data.initPressure elm = c) (edge : mesh.Edge) :
    initialSolution data (.edge edge) = c * mesh.edgeWeight edge := by
  rw [initialSolution_edge, FlowMesh.edgeWeight, ← List.sum_map_mul_left]
  apply congrArg List.sum
  apply List.map_congr_left
  intro side _
  rw [constant, mul_one_div]

theorem initialSolution_mem_convexHull {edge : mesh.Edge} (weight : mesh.edgeWeight edge = 1) :
    initialSolution data (.edge edge) ∈ convexHull ℚ (adjacentPressures data edge) := by
  rw [FlowMesh.edgeWeight, ← List.sum_toFinset _ (mesh.edgeSides_nodup edge)] at weight
  rw [initialSolution_edge, ← List.sum_toFinset _ (mesh.edgeSides_nodup edge)]
  have combined : ∑ side ∈ (mesh.edgeSides edge).toFinset,
      ((1 : ℚ) / mesh.nSides side.1) • data.initPressure side.1 ∈
        convexHull ℚ (adjacentPressures data edge) := by
    apply (convex_convexHull ℚ _).sum_mem
    · intro side _
      exact one_div_nonneg.mpr (Nat.cast_nonneg _)
    · exact weight
    · intro side member
      apply subset_convexHull ℚ
      exact ⟨side, (mesh.mem_edgeSides edge side).mp (List.mem_toFinset.mp member), rfl⟩
  have sameTerms : ∀ side : mesh.Side, ((1 : ℚ) / mesh.nSides side.1) • data.initPressure side.1 =
      data.initPressure side.1 / mesh.nSides side.1 := by
    intro side
    rw [smul_eq_mul, one_div_mul_eq_div]
  simpa only [sameTerms] using combined

/-- Data with the same pressure on every element. -/
def constantPressure (mesh : FlowMesh) (c : ℚ) : FlowData mesh where
  crossSection := fun _ => 1
  storativity := fun _ => 0
  initPressure := fun _ => c
  waterSourceDensity := fun _ => 0
  sigma := fun _ => 0
  bcType := fun _ => .none
  bcPressure := fun _ => 0
  bcFlux := fun _ => 0
  bcRobinSigma := fun _ => 0
  localMatrix := fun _ _ _ => 0

theorem initialSolution_one (edge : mesh.Edge) :
    initialSolution (constantPressure mesh 1) (.edge edge) = mesh.edgeWeight edge := by
  have constant : ∀ elm, (constantPressure mesh 1).initPressure elm = 1 := fun _ => rfl
  rw [initialSolution_constant constant, one_mul]

theorem edgeWeight_of_convexHull {edge : mesh.Edge}
    (convex : initialSolution (constantPressure mesh 1) (.edge edge) ∈
      convexHull ℚ (adjacentPressures (constantPressure mesh 1) edge)) :
    mesh.edgeWeight edge = 1 := by
  have only : adjacentPressures (constantPressure mesh 1) edge ⊆ {1} := by
    intro pressure adjacent
    obtain ⟨_, _, same⟩ := adjacent
    exact same.symm
  have inside := convexHull_min only (convex_singleton 1) convex
  rw [Set.mem_singleton_iff, initialSolution_one] at inside
  exact inside

/-- For every pressure the values on the edges are convex combinations, or, for every constant
one, the constant, exactly when the weights of every edge have the sum one. -/
theorem initialPressure_convex_iff (mesh : FlowMesh) :
    ((∀ (data : FlowData mesh) (edge : mesh.Edge),
        initialSolution data (.edge edge) ∈ convexHull ℚ (adjacentPressures data edge)) ↔
      ∀ edge, mesh.edgeWeight edge = 1) ∧
    ((∀ (data : FlowData mesh) (c : ℚ), (∀ elm, data.initPressure elm = c) →
        ∀ edge : mesh.Edge, initialSolution data (.edge edge) = c) ↔
      ∀ edge, mesh.edgeWeight edge = 1) := by
  constructor
  · constructor
    · intro convex edge
      exact edgeWeight_of_convexHull (convex (constantPressure mesh 1) edge)
    · intro weights data edge
      exact initialSolution_mem_convexHull data (weights edge)
  · constructor
    · intro reproduced edge
      have one := reproduced (constantPressure mesh 1) 1 (fun _ => rfl) edge
      rw [initialSolution_one] at one
      exact one
    · intro weights data c constant edge
      rw [initialSolution_constant constant, weights edge, mul_one]

end DarcyFlowLMHUnsteady

/-! ## The sides of an edge -/

namespace AcceptedMesh

variable (setup : AcceptedMesh) (measures : Measures)

/-- Elements with sides on one edge have the same dimension. -/
theorem dim_eq_of_edgeIdx_eq {side other : setup.Side} (same : side.edgeIdx = other.edgeIdx) :
    setup.dim side.1 = setup.dim other.1 := by
  obtain ⟨keys, placed⟩ := setup.placed
  have first := (placed.onEdge _ _ side.edgeIdx_eq).2
  have second := (placed.onEdge _ _ other.edgeIdx_eq).2
  rw [← same] at second
  have length : ∀ side : setup.Side,
      (setup.mesh.sideNodes side.iter).length = (setup.element side.1).dim := by
    intro side
    have lookup := setup.element_lookup side.1
    have positive := setup.mesh.bulkDim _ (List.mem_of_getElem? lookup)
    rw [Mesh.sideNodes, Side.iter, lookup]
    exact Element.length_side_nodes positive side.2.isLt
  apply Fin.ext
  change (setup.element side.1).dim = (setup.element other.1).dim
  rw [← length side, ← length other, (first.perm second).length_eq]

/-- The weights have the sum one on an edge with sides, as many as each of its elements has. -/
theorem edgeWeight_eq_one_iff (edge : (setup.flowMesh measures).Edge) :
    (setup.flowMesh measures).edgeWeight edge = 1 ↔
      (setup.flowMesh measures).edgeSides edge ≠ [] ∧
        ∀ side ∈ (setup.flowMesh measures).edgeSides edge,
          ((setup.flowMesh measures).edgeSides edge).length =
            (setup.flowMesh measures).nSides side.1 := by
  have weight : ∀ side ∈ (setup.flowMesh measures).edgeSides edge,
      (setup.flowMesh measures).edgeWeight edge =
        ((setup.flowMesh measures).edgeSides edge).length /
          (setup.flowMesh measures).nSides side.1 := by
    intro side member
    have sameTerm : ∀ other ∈ (setup.flowMesh measures).edgeSides edge,
        (1 : ℚ) / (setup.flowMesh measures).nSides other.1 =
          1 / (setup.flowMesh measures).nSides side.1 := by
      intro other otherMember
      have onEdge := ((setup.flowMesh measures).mem_edgeSides edge side).mp member
      have otherOnEdge := ((setup.flowMesh measures).mem_edgeSides edge other).mp otherMember
      have dim : setup.dim other.1 = setup.dim side.1 :=
        setup.dim_eq_of_edgeIdx_eq (otherOnEdge.trans onEdge.symm)
      rw [FlowMesh.nSides, FlowMesh.nSides]
      exact congrArg (fun d : Fin 4 => (1 : ℚ) / ((d + 1 : ℕ) : ℚ)) dim
    rw [FlowMesh.edgeWeight, List.map_congr_left sameTerm, List.map_const', List.sum_replicate,
      nsmul_eq_mul, mul_one_div]
  have nonzero : ∀ side : (setup.flowMesh measures).Side,
      ((setup.flowMesh measures).nSides side.1 : ℚ) ≠ 0 := by
    intro side
    exact Nat.cast_ne_zero.mpr (Nat.succ_ne_zero _)
  constructor
  · intro one
    constructor
    · intro empty
      rw [FlowMesh.edgeWeight, empty] at one
      exact zero_ne_one one
    · intro side member
      rw [weight side member, div_eq_one_iff_eq (nonzero side)] at one
      exact_mod_cast one
  · intro full
    obtain ⟨nonempty, counts⟩ := full
    obtain ⟨side, member⟩ := List.exists_mem_of_ne_nil _ nonempty
    rw [weight side member, div_eq_one_iff_eq (nonzero side)]
    exact_mod_cast counts side member

end AcceptedMesh

/-! ### One line -/

def singleLine : AcceptedMesh :=
  let mesh : Mesh :=
    { nodeVector := [![0, 0, 0], ![1, 0, 0]]
      element := [⟨1, 1, ![0, 1], Element.line_dimLe⟩]
      bcElements := []
      bulkDim := Mesh.unitLine.bulkDim }
  { mesh := mesh
    topology := mesh.makeNeighboursAndEdges.toOption.getD mesh.initialTopology
    accepted := AcceptedMesh.unitLine_accepted
    nonDegenerate := AcceptedMesh.unitLine_nonDegenerate }

/-- The pressure one on the line gives one half on both ends. -/
theorem initialPressure_not_convex :
    ¬ ∀ (data : FlowData (singleLine.flowMesh ⟨fun _ => 1, fun _ => 1, fun _ => 1⟩))
        (edge : (singleLine.flowMesh ⟨fun _ => 1, fun _ => 1, fun _ => 1⟩).Edge),
      DarcyFlowLMHUnsteady.initialSolution data (.edge edge) ∈
        convexHull ℚ (DarcyFlowLMHUnsteady.adjacentPressures data edge) := by
  intro convex
  have weight := DarcyFlowLMHUnsteady.edgeWeight_of_convexHull
    (convex (DarcyFlowLMHUnsteady.constantPressure _ 1) ⟨0, by decide +kernel⟩)
  exact absurd weight (by decide +kernel)

end Flow123d
