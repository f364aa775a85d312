import Flow123d.Flow.DarcyFlowMH
import Flow123d.Mesh.PlacedSides

/-!
# The mesh of the assembly

What the assembly reads of a mesh after `Mesh::make_neighbours_and_edges`: the accessors of
sides, boundaries and neighbours. The measures of elements are square roots, so that they are
parameters.
-/

set_option autoImplicit false

namespace Flow123d

open Flow123d.Library

namespace Mesh

/-- `Element::centre` and `Side::centre`. -/
def centre (mesh : Mesh) (nodes : List ℕ) : Point := fun i =>
  (nodes.map fun n => mesh.point n i).sum / nodes.length

theorem centre_perm (mesh : Mesh) {nodes others : List ℕ} (perm : nodes.Perm others) :
    mesh.centre nodes = mesh.centre others := by
  funext i
  unfold centre
  rw [(perm.map _).sum_eq, perm.length_eq]

end Mesh

/-- `Edge::side(0)`. -/
def Topology.firstSide (topology : Topology) (k : ℕ) : Option SideIter :=
  topology.edges[k]?.bind fun edge => edge.side.head?.join

structure AcceptedMesh where
  mesh : Mesh
  topology : Topology
  accepted : mesh.makeNeighboursAndEdges = .ok topology
  nonDegenerate : mesh.NonDegenerate

/-- The values of `measure` of elements, sides and boundary elements. -/
structure Measures where
  element : ℕ → ℚ
  side : SideIter → ℚ
  boundary : ℕ → ℚ

namespace AcceptedMesh

theorem unitLine_accepted : Mesh.unitLine.makeNeighboursAndEdges =
    .ok (Mesh.unitLine.makeNeighboursAndEdges.toOption.getD Mesh.unitLine.initialTopology) := rfl

theorem unitLine_nonDegenerate : Mesh.unitLine.NonDegenerate := by
  unfold Mesh.NonDegenerate
  decide +kernel

variable (setup : AcceptedMesh)

theorem placed : ∃ keys, setup.topology.Placed setup.mesh keys :=
  make_neighbours_and_edges_placed setup.nonDegenerate setup.accepted

/-- Every side has an edge. -/
theorem onEdge {si : SideIter} (isSide : setup.mesh.IsSide si) :
    ∃ k, setup.topology.edgeIdx si = some k ∧ k < setup.topology.edges.length := by
  obtain ⟨middle, boundary, sides⟩ := bind_ok setup.accepted
  obtain ⟨extension, closed⟩ := side_loop_spec (boundary_loop_spec boundary).1 sides
  obtain ⟨k, defined⟩ := Option.isSome_iff_exists.mp (closed si isSide)
  obtain ⟨edge, lookup, _⟩ := extension.valid.definedListed si k defined
  exact ⟨k, defined, (List.getElem?_eq_some_iff.mp lookup).1⟩

/-! ## Elements and sides -/

def element (elm : Fin setup.mesh.element.length) : Element := setup.mesh.element.get elm

theorem element_lookup (elm : Fin setup.mesh.element.length) :
    setup.mesh.element[elm.val]? = some (setup.element elm) :=
  List.getElem?_eq_getElem elm.isLt

def dim (elm : Fin setup.mesh.element.length) : Fin 4 :=
  ⟨(setup.element elm).dim, Nat.lt_succ_of_le (setup.element elm).dimLe⟩

abbrev Side : Type := (elm : Fin setup.mesh.element.length) × Fin (setup.dim elm + 1)

variable {setup}

def Side.iter (side : setup.Side) : SideIter := ⟨side.1, side.2⟩

theorem Side.isSide (side : setup.Side) : setup.mesh.IsSide side.iter :=
  ⟨setup.element side.1, setup.element_lookup side.1, side.2.isLt⟩

/-- A side of the mesh as a pair of an element and a local index. -/
def toSide (si : SideIter) (isSide : setup.mesh.IsSide si) : setup.Side :=
  have inside : si.element < setup.mesh.element.length := by
    obtain ⟨ele, lookup, _⟩ := isSide
    exact (List.getElem?_eq_some_iff.mp lookup).1
  ⟨⟨si.element, inside⟩, ⟨si.elIdx, by
    obtain ⟨ele, lookup, bound⟩ := isSide
    rw [setup.element_lookup ⟨si.element, inside⟩] at lookup
    cases lookup
    exact bound⟩⟩

@[simp] theorem toSide_iter (si : SideIter) (isSide : setup.mesh.IsSide si) :
    (toSide si isSide).iter = si := rfl

def Side.edgeIdx (side : setup.Side) : Fin setup.topology.edges.length :=
  ⟨(setup.topology.edgeIdx side.iter).get (by
    obtain ⟨k, defined, _⟩ := setup.onEdge side.isSide
    rw [defined]
    rfl), by
    obtain ⟨k, defined, bound⟩ := setup.onEdge side.isSide
    simpa only [defined, Option.get_some] using bound⟩

theorem Side.edgeIdx_eq (side : setup.Side) :
    setup.topology.edgeIdx side.iter = some side.edgeIdx.val := (Option.some_get _).symm

/-! ## Couplings -/

theorem neighbour_spec {ngh : Neighbour} (member : ngh ∈ setup.topology.vbNeighbours) :
    ngh.element < setup.mesh.element.length ∧
      ngh.edgeIdx < setup.topology.edges.length ∧
        ∃ si, setup.topology.firstSide ngh.edgeIdx = some si ∧ setup.mesh.IsSide si := by
  obtain ⟨keys, placed⟩ := setup.placed
  obtain ⟨edge, si, lower, found, first, own, element, _⟩ := placed.onNeighbour ngh member
  refine ⟨(List.getElem?_eq_some_iff.mp element).1, placed.neighbour_lt member, si, ?_,
    (placed.onEdge si _ own).1⟩
  simp [Topology.firstSide, found, first]

/-- `Neighbour::side`. -/
def neighbourSide (ngh : Neighbour) (member : ngh ∈ setup.topology.vbNeighbours) :
    setup.Side :=
  have defined : (setup.topology.firstSide ngh.edgeIdx).isSome := by
    obtain ⟨_, _, si, first, _⟩ := neighbour_spec member
    rw [first]
    rfl
  toSide ((setup.topology.firstSide ngh.edgeIdx).get defined) (by
    obtain ⟨_, _, si, first, isSide⟩ := neighbour_spec member
    simpa only [first, Option.get_some] using isSide)

theorem neighbourSide_iter {ngh : Neighbour} (member : ngh ∈ setup.topology.vbNeighbours)
    {si : SideIter} (first : setup.topology.firstSide ngh.edgeIdx = some si) :
    (neighbourSide ngh member).iter = si := by
  simp [neighbourSide, first]

def neighbour (ngh : Neighbour) (member : ngh ∈ setup.topology.vbNeighbours) :
    FlowNeighbour setup.mesh.element.length setup.topology.edges.length setup.Side :=
  { element := ⟨ngh.element, (neighbour_spec member).1⟩
    edgeIdx := ⟨ngh.edgeIdx, (neighbour_spec member).2.1⟩
    side := neighbourSide ngh member }

variable (setup)

/-- `Element::neigh_vb`, as `Mesh::element_to_neigh_vb` fills it. -/
def neighVb (elm : Fin setup.mesh.element.length) :
    List (FlowNeighbour setup.mesh.element.length setup.topology.edges.length setup.Side) :=
  (setup.topology.vbNeighbours.pmap neighbour fun _ member => member).filter
    (·.element = elm)

def edgeSides (edge : Fin setup.topology.edges.length) : List setup.Side :=
  ((List.finRange setup.mesh.element.length).flatMap fun elm =>
    (List.finRange (setup.dim elm + 1)).map fun i => (⟨elm, i⟩ : setup.Side)).filter
      (·.edgeIdx = edge)

def flowMesh (measures : Measures) : FlowMesh where
  nElements := setup.mesh.element.length
  nEdges := setup.topology.edges.length
  dim := setup.dim
  measure := fun elm => measures.element elm
  elementCentre := fun elm => setup.mesh.centre (setup.element elm).nodes 2
  sideCentre := fun side => setup.mesh.centre (setup.mesh.sideNodes (Side.iter side)) 2
  sideMeasure := fun side => measures.side (Side.iter side)
  edgeIdx := Side.edgeIdx
  cond := fun side => setup.topology.condIdx (Side.iter side)
  boundaryMeasure := measures.boundary
  neighVb := setup.neighVb
  edgeSides := setup.edgeSides
  edgeSides_nodup := by
    intro edge
    refine List.Nodup.filter _ ?_
    rw [List.nodup_flatMap]
    refine ⟨fun elm _ => (List.nodup_finRange _).map fun i j same => ?_, ?_⟩
    · exact eq_of_heq (Sigma.mk.inj same).2
    · refine (List.nodup_finRange _).imp fun {elm other} different side first second => ?_
      obtain ⟨_, _, rfl⟩ := List.mem_map.mp first
      obtain ⟨_, _, same⟩ := List.mem_map.mp second
      exact different (congrArg Sigma.fst same).symm
  mem_edgeSides := by
    intro edge side
    unfold edgeSides
    rw [List.mem_filter, decide_eq_true_eq, and_iff_right]
    exact List.mem_flatMap.mpr ⟨side.1, List.mem_finRange _, List.mem_map.mpr
      ⟨side.2, List.mem_finRange _, rfl⟩⟩

/-- The centre of the boundary element that `Side::cond` leads to. -/
def boundaryCentre (b : ℕ) : Option ℚ := do
  let bdr ← setup.topology.boundary[b]?
  let bc_ele ← setup.topology.bcElements[bdr.bcEleIdx]?
  some (setup.mesh.centre bc_ele.nodes 2)

end AcceptedMesh

end Flow123d
