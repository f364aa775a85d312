import Flow123d.Mesh.SideNodes

/-!
# Sides, boundaries and couplings of an edge

The topology setup puts the sides of an edge, its boundary element and the element of lower
dimension on it on the same nodes. The edges of boundaries and of couplings are different.
-/

set_option autoImplicit false

namespace Flow123d

open Flow123d.Library

/-- `Side::cond_idx`. -/
def Topology.condIdx (topology : Topology) (si : SideIter) : Option ℕ :=
  (topology.boundaryIdx si.element).bind fun array => array[si.elIdx]?.join

/-- Every edge has a list of nodes, given in `keys`. -/
def Keyed (keys : List (List ℕ)) (k : ℕ) (nodes : List ℕ) : Prop :=
  ∃ key, keys[k]? = some key ∧ nodes.Perm key

namespace Keyed

variable {keys : List (List ℕ)} {k : ℕ} {nodes others : List ℕ}

theorem append (keyed : Keyed keys k nodes) (more : List (List ℕ)) :
    Keyed (keys ++ more) k nodes := by
  obtain ⟨key, lookup, perm⟩ := keyed
  have bound := (List.getElem?_eq_some_iff.mp lookup).1
  exact ⟨key, by rw [List.getElem?_append_left bound, lookup], perm⟩

theorem last (keys : List (List ℕ)) (perm : nodes.Perm others) :
    Keyed (keys ++ [others]) keys.length nodes :=
  ⟨others, List.getElem?_concat_length, perm⟩

theorem perm (keyed : Keyed keys k nodes) (other : Keyed keys k others) :
    nodes.Perm others := by
  obtain ⟨key, lookup, first⟩ := keyed
  obtain ⟨again, same, second⟩ := other
  rw [lookup] at same
  cases same
  exact first.trans second.symm

end Keyed

/-- The boundaries have edges of their own, and every side of such an edge knows its boundary. -/
structure Topology.Bounded (mesh : Mesh) (topology : Topology) : Prop where
  edgeLt : ∀ bdr ∈ topology.boundary, bdr.edgeIdx < topology.edges.length
  distinct : (topology.boundary.map Boundary.edgeIdx).Nodup
  arrays : ∀ i elem array, mesh.element[i]? = some elem →
    topology.boundaryIdx i = some array → array.length = elem.nSides
  covered : ∀ si b bdr, topology.boundary[b]? = some bdr →
    topology.edgeIdx si = some bdr.edgeIdx → topology.condIdx si = some b
  coupled : ∀ ngh ∈ topology.vbNeighbours, ∀ bdr ∈ topology.boundary,
    bdr.edgeIdx ≠ ngh.edgeIdx

/-- The sides of an edge, its boundary element and the element of lower dimension on it have
the nodes of the edge. -/
structure Topology.Placed (mesh : Mesh) (keys : List (List ℕ)) (topology : Topology) : Prop
    extends topology.Bounded mesh where
  length : keys.length = topology.edges.length
  onEdge : ∀ si k, topology.edgeIdx si = some k →
    mesh.IsSide si ∧ Keyed keys k (mesh.sideNodes si)
  onBoundary : ∀ si b, topology.condIdx si = some b → ∃ bdr bc_ele,
    topology.boundary[b]? = some bdr ∧ topology.edgeIdx si = some bdr.edgeIdx ∧
      topology.bcElements[bdr.bcEleIdx]? = some bc_ele ∧ Keyed keys bdr.edgeIdx bc_ele.nodes
  onNeighbour : ∀ ngh ∈ topology.vbNeighbours, ∃ edge si lower,
    topology.edges[ngh.edgeIdx]? = some edge ∧ edge.side.head? = some (some si) ∧
      topology.edgeIdx si = some ngh.edgeIdx ∧ mesh.element[ngh.element]? = some lower ∧
        Keyed keys ngh.edgeIdx lower.nodes

namespace Topology

variable {mesh : Mesh} {keys : List (List ℕ)} {topology : Topology}

/-! ### Boundary indices -/

/-- Setting a boundary index changes the index of this side only. -/
theorem condIdx_set_boundary_idx_of_ne (topology : Topology) (elem : Element)
    {si other : SideIter} (elsewhere : other ≠ si) (b : ℕ) :
    (topology.setBoundaryIdx elem si b).condIdx other = topology.condIdx other := by
  by_cases element : other.element = si.element
  · have otherIdx : si.elIdx ≠ other.elIdx := by
      intro sameIdx
      cases other
      cases si
      exact elsewhere (congrArg₂ SideIter.mk element sameIdx.symm)
    simp only [condIdx, setBoundaryIdx, element, Function.update_self, Option.bind_some,
      List.getElem?_set_ne otherIdx]
    cases array : topology.boundaryIdx si.element with
    | none =>
        simp only [Option.getD_none, List.getElem?_replicate, Option.bind_none]
        split <;> rfl
    | some values => rfl
  · simp [condIdx, setBoundaryIdx, Function.update_of_ne element]

theorem condIdx_set_boundary_idx_self (topology : Topology) (elem : Element) (si : SideIter)
    (b : ℕ) :
    (topology.setBoundaryIdx elem si b).condIdx si =
      if si.elIdx < ((topology.boundaryIdx si.element).getD
        (List.replicate elem.nSides none)).length then some b else none := by
  simp only [condIdx, setBoundaryIdx, Function.update_self, Option.bind_some]
  split_ifs with inside
  · rw [List.getElem?_set_self inside]
    rfl
  · rw [List.getElem?_eq_none (by simpa using inside)]
    rfl

namespace Bounded

theorem boundary_unique (bounded : topology.Bounded mesh) {b other : ℕ} {bdr found : Boundary}
    (first : topology.boundary[b]? = some bdr) (second : topology.boundary[other]? = some found)
    (same : bdr.edgeIdx = found.edgeIdx) : b = other := by
  have inside := (List.getElem?_eq_some_iff.mp first).1
  refine (List.getElem?_inj (by simpa using inside) bounded.distinct).mp ?_
  rw [List.getElem?_map, List.getElem?_map, first, second, Option.map_some, Option.map_some, same]

theorem add_edge (bounded : topology.Bounded mesh) (allocated : ℕ) :
    (topology.addEdge allocated).Bounded mesh where
  edgeLt := by
    intro bdr member
    have before := bounded.edgeLt bdr member
    simp only [addEdge, List.length_append, List.length_singleton]
    omega
  distinct := bounded.distinct
  arrays := bounded.arrays
  covered := bounded.covered
  coupled := bounded.coupled

/-- The boundary on the last edge, which has no side yet. -/
theorem add_boundary (bounded : topology.Bounded mesh) (allocated : ℕ) {boundary : Boundary}
    (last : boundary.edgeIdx = topology.edges.length)
    (fresh : ∀ si, topology.edgeIdx si ≠ some topology.edges.length)
    (free : ∀ ngh ∈ topology.vbNeighbours, ngh.edgeIdx ≠ topology.edges.length) :
    ((topology.addEdge allocated).addBoundary boundary).Bounded mesh where
  edgeLt := by
    intro bdr member
    obtain before | here := List.mem_append.mp member
    · exact (bounded.add_edge allocated).edgeLt bdr before
    · rw [List.mem_singleton.mp here, last]
      simp [addBoundary, addEdge]
  distinct := by
    have unused : boundary.edgeIdx ∉ topology.boundary.map Boundary.edgeIdx := by
      intro used
      obtain ⟨bdr, member, same⟩ := List.mem_map.mp used
      have before := bounded.edgeLt bdr member
      omega
    simp only [addBoundary, addEdge, List.map_append, List.map_cons, List.map_nil]
    exact bounded.distinct.append (List.nodup_singleton _) (by simpa using unused)
  arrays := bounded.arrays
  covered := by
    intro si b bdr found own
    simp only [addBoundary, addEdge] at found own
    rw [List.getElem?_append] at found
    split_ifs at found with before
    · exact bounded.covered si b bdr found own
    · have here := List.mem_of_getElem? found
      rw [List.mem_singleton.mp here, last] at own
      exact absurd own (fresh si)
  coupled := by
    intro ngh member bdr isBoundary
    obtain before | here := List.mem_append.mp isBoundary
    · exact bounded.coupled ngh member bdr before
    · rw [List.mem_singleton.mp here, last]
      exact (free ngh member).symm

theorem add_neighbour (bounded : topology.Bounded mesh) {ngh : Neighbour}
    (bare : ∀ bdr ∈ topology.boundary, bdr.edgeIdx ≠ ngh.edgeIdx) :
    ({ topology with vbNeighbours := topology.vbNeighbours ++ [ngh] } : Topology).Bounded
      mesh where
  edgeLt := bounded.edgeLt
  distinct := bounded.distinct
  arrays := bounded.arrays
  covered := bounded.covered
  coupled := by
    intro other member bdr isBoundary
    obtain before | last := List.mem_append.mp member
    · exact bounded.coupled other before bdr isBoundary
    · rw [List.mem_singleton.mp last]
      exact bare bdr isBoundary

/-- Connecting a side, with a change of its boundary index. -/
theorem connect_with (bounded : topology.Bounded mesh) {k : ℕ} {si : SideIter}
    {after : Topology}
    (same : after = { topology.connect k si with boundaryIdx := after.boundaryIdx })
    (others : ∀ other, other ≠ si → after.condIdx other = topology.condIdx other)
    (own : ∀ b bdr, topology.boundary[b]? = some bdr → bdr.edgeIdx = k →
      after.condIdx si = some b)
    (arrays : ∀ i elem array, mesh.element[i]? = some elem →
      after.boundaryIdx i = some array → array.length = elem.nSides) :
    after.Bounded mesh where
  edgeLt := by
    rw [same]
    simpa [connect] using bounded.edgeLt
  distinct := by
    rw [same]
    exact bounded.distinct
  arrays := arrays
  covered := by
    intro other b bdr found onEdge
    rw [same] at found onEdge
    by_cases here : other = si
    · subst here
      exact own b bdr found (by simpa [connect, eq_comm] using onEdge)
    · rw [others other here]
      exact bounded.covered other b bdr found
        (by simpa [connect, Function.update_of_ne here] using onEdge)
  coupled := by
    rw [same]
    exact bounded.coupled

end Bounded

/-! ### Nodes -/

theorem placed_initial (mesh : Mesh) : mesh.initialTopology.Placed mesh [] := by
  refine ⟨⟨?_, ?_, ?_, ?_, ?_⟩, ?_, ?_, ?_, ?_⟩ <;> simp [Mesh.initialTopology, condIdx]

theorem Placed.neighbour_lt (placed : topology.Placed mesh keys) {ngh : Neighbour}
    (member : ngh ∈ topology.vbNeighbours) : ngh.edgeIdx < topology.edges.length := by
  obtain ⟨_, _, _, found, _⟩ := placed.onNeighbour ngh member
  exact (List.getElem?_eq_some_iff.mp found).1

theorem Placed.edge_lt (placed : topology.Placed mesh keys) {si : SideIter} {k : ℕ}
    (defined : topology.edgeIdx si = some k) : k < topology.edges.length := by
  obtain ⟨_, key, lookup, _⟩ := placed.onEdge si k defined
  exact placed.length ▸ (List.getElem?_eq_some_iff.mp lookup).1

/-- The edge has neither a boundary nor a coupling. -/
structure Free (topology : Topology) (k : ℕ) : Prop where
  boundary : ∀ bdr ∈ topology.boundary, bdr.edgeIdx ≠ k
  coupling : ∀ ngh ∈ topology.vbNeighbours, ngh.edgeIdx ≠ k

theorem Placed.free_last (placed : topology.Placed mesh keys) (allocated : ℕ) :
    (topology.addEdge allocated).Free topology.edges.length where
  boundary := fun bdr member => (placed.edgeLt bdr member).ne
  coupling := fun _ member => (placed.neighbour_lt member).ne

theorem Placed.add_edge (placed : topology.Placed mesh keys) (allocated : ℕ)
    (nodes : List ℕ) : (topology.addEdge allocated).Placed mesh (keys ++ [nodes]) where
  toBounded := placed.toBounded.add_edge allocated
  length := by simp [addEdge, placed.length]
  onEdge := by
    intro si k defined
    obtain ⟨isSide, keyed⟩ := placed.onEdge si k defined
    exact ⟨isSide, keyed.append _⟩
  onBoundary := by
    intro si b defined
    obtain ⟨bdr, bc_ele, boundary, edge, element, keyed⟩ := placed.onBoundary si b defined
    exact ⟨bdr, bc_ele, boundary, edge, element, keyed.append _⟩
  onNeighbour := by
    intro ngh member
    obtain ⟨edge, si, lower, found, first, own, element, keyed⟩ :=
      placed.onNeighbour ngh member
    have bound := (List.getElem?_eq_some_iff.mp found).1
    refine ⟨edge, si, lower, ?_, first, own, element, keyed.append _⟩
    rw [addEdge, List.getElem?_append_left bound, found]

/-- A new edge with a boundary on it. -/
theorem Placed.add_boundary (placed : topology.Placed mesh keys) (allocated : ℕ)
    (nodes : List ℕ) (boundary : Boundary) (last : boundary.edgeIdx = topology.edges.length) :
    ((topology.addEdge allocated).addBoundary boundary).Placed mesh (keys ++ [nodes]) where
  toBounded := placed.toBounded.add_boundary allocated last
    (fun _ defined => absurd (placed.edge_lt defined) (lt_irrefl _))
    (placed.free_last allocated).coupling
  length := (placed.add_edge allocated nodes).length
  onEdge := (placed.add_edge allocated nodes).onEdge
  onBoundary := by
    intro si b defined
    obtain ⟨bdr, bc_ele, found, rest⟩ :=
      (placed.add_edge allocated nodes).onBoundary si b defined
    have bound := (List.getElem?_eq_some_iff.mp found).1
    refine ⟨bdr, bc_ele, ?_, rest⟩
    rw [Topology.addBoundary, List.getElem?_append_left bound, found]
  onNeighbour := (placed.add_edge allocated nodes).onNeighbour

theorem Placed.add_bc_element (placed : topology.Placed mesh keys) (bc_ele : Element) :
    ({ topology with bcElements := topology.bcElements ++ [bc_ele] } : Topology).Placed mesh
      keys where
  toBounded := ⟨placed.edgeLt, placed.distinct, placed.arrays, placed.covered, placed.coupled⟩
  length := placed.length
  onEdge := placed.onEdge
  onBoundary := by
    intro si b defined
    obtain ⟨bdr, other, found, edge, element, keyed⟩ := placed.onBoundary si b defined
    have bound := (List.getElem?_eq_some_iff.mp element).1
    refine ⟨bdr, other, found, edge, ?_, keyed⟩
    rw [List.getElem?_append_left bound, element]
  onNeighbour := placed.onNeighbour

theorem Placed.add_neighbour (placed : topology.Placed mesh keys) {ngh : Neighbour}
    {edge : Edge} {si : SideIter} {lower : Element}
    (bare : ∀ bdr ∈ topology.boundary, bdr.edgeIdx ≠ ngh.edgeIdx)
    (found : topology.edges[ngh.edgeIdx]? = some edge)
    (first : edge.side.head? = some (some si))
    (own : topology.edgeIdx si = some ngh.edgeIdx)
    (element : mesh.element[ngh.element]? = some lower)
    (keyed : Keyed keys ngh.edgeIdx lower.nodes) :
    ({ topology with vbNeighbours := topology.vbNeighbours ++ [ngh] } : Topology).Placed mesh
      keys where
  toBounded := placed.toBounded.add_neighbour bare
  length := placed.length
  onEdge := placed.onEdge
  onBoundary := placed.onBoundary
  onNeighbour := by
    intro other member
    obtain before | last := List.mem_append.mp member
    · exact placed.onNeighbour other before
    · rw [List.mem_singleton.mp last]
      exact ⟨edge, si, lower, found, first, own, element, keyed⟩

/-- The edge and the side are no part of a coupling. -/
def Uncoupled (topology : Topology) (k : ℕ) (si : SideIter) : Prop :=
  ∀ ngh ∈ topology.vbNeighbours, ngh.edgeIdx ≠ k ∧ topology.edgeIdx si ≠ some ngh.edgeIdx

/-- Connecting a side, with a change of its boundary index. -/
theorem Placed.connect_with (placed : topology.Placed mesh keys) {k : ℕ} {si : SideIter}
    (isSide : mesh.IsSide si) (keyed : Keyed keys k (mesh.sideNodes si))
    (uncoupled : topology.Uncoupled k si) {after : Topology} (bounded : after.Bounded mesh)
    (same : after = { topology.connect k si with boundaryIdx := after.boundaryIdx })
    (others : ∀ other, other ≠ si → after.condIdx other = topology.condIdx other)
    (own : ∀ b, after.condIdx si = some b → ∃ bdr bc_ele,
      topology.boundary[b]? = some bdr ∧ bdr.edgeIdx = k ∧
        topology.bcElements[bdr.bcEleIdx]? = some bc_ele ∧ Keyed keys k bc_ele.nodes) :
    after.Placed mesh keys where
  toBounded := bounded
  length := by
    rw [same]
    simp [connect, placed.length]
  onEdge := by
    intro other position defined
    rw [same] at defined
    by_cases here : other = si
    · subst here
      obtain rfl : k = position := by simpa [connect] using defined
      exact ⟨isSide, keyed⟩
    · exact placed.onEdge other position
        (by simpa [connect, Function.update_of_ne here] using defined)
  onBoundary := by
    intro other b defined
    by_cases here : other = si
    · subst here
      obtain ⟨bdr, bc_ele, boundary, edge, element, nodes⟩ := own b defined
      refine ⟨bdr, bc_ele, ?_, ?_, ?_, edge ▸ nodes⟩
      · rw [same]
        exact boundary
      · rw [same]
        simp [connect, edge]
      · rw [same]
        exact element
    · obtain ⟨bdr, bc_ele, boundary, edge, element, nodes⟩ :=
        placed.onBoundary other b ((others other here).symm.trans defined)
      refine ⟨bdr, bc_ele, ?_, ?_, ?_, nodes⟩
      · rw [same]
        exact boundary
      · rw [same]
        simpa [connect, Function.update_of_ne here] using edge
      · rw [same]
        exact element
  onNeighbour := by
    intro ngh member
    rw [same] at member
    obtain ⟨elsewhere, notOwn⟩ := uncoupled ngh member
    obtain ⟨edge, other, lower, found, first, edgeIdx, element, nodes⟩ :=
      placed.onNeighbour ngh member
    have here : other ≠ si := by
      rintro rfl
      exact notOwn edgeIdx
    refine ⟨edge, other, lower, ?_, first, ?_, element, nodes⟩
    · rw [same]
      simpa [connect, List.getElem?_modify, elsewhere.symm] using found
    · rw [same]
      simpa [connect, Function.update_of_ne here] using edgeIdx

theorem Placed.connect_open (placed : topology.Placed mesh keys) {k : ℕ} {si : SideIter}
    (isSide : mesh.IsSide si) (keyed : Keyed keys k (mesh.sideNodes si))
    (free : topology.Free k) (undefined : topology.edgeIdx si = none) :
    (topology.connect k si).Placed mesh keys := by
  have bounded : (topology.connect k si).Bounded mesh :=
    placed.toBounded.connect_with rfl (fun _ _ => rfl)
      (fun b bdr found own => absurd own (free.boundary bdr (List.mem_of_getElem? found)))
      placed.arrays
  refine placed.connect_with isSide keyed ?_ bounded rfl (fun _ _ => rfl) ?_
  · intro ngh member
    exact ⟨free.coupling ngh member, by simp [undefined]⟩
  · intro b defined
    obtain ⟨bdr, _, _, edge, _⟩ := placed.onBoundary si b defined
    rw [undefined] at edge
    cases edge

theorem Placed.connect_boundary (placed : topology.Placed mesh keys) {k b : ℕ} {si : SideIter}
    {elem : Element} (lookup : mesh.element[si.element]? = some elem)
    (inside : si.elIdx < elem.nSides) (keyed : Keyed keys k (mesh.sideNodes si))
    (uncoupled : topology.Uncoupled k si) {bdr : Boundary} {bc_ele : Element}
    (boundary : topology.boundary[b]? = some bdr) (edge : bdr.edgeIdx = k)
    (element : topology.bcElements[bdr.bcEleIdx]? = some bc_ele)
    (nodes : Keyed keys k bc_ele.nodes) :
    ((topology.connect k si).setBoundaryIdx elem si b).Placed mesh keys := by
  have length : ((topology.boundaryIdx si.element).getD
      (List.replicate elem.nSides none)).length = elem.nSides := by
    cases array : topology.boundaryIdx si.element with
    | none => simp
    | some values => exact placed.arrays _ _ _ lookup array
  have self : ((topology.connect k si).setBoundaryIdx elem si b).condIdx si = some b := by
    rw [condIdx_set_boundary_idx_self]
    exact if_pos (length.symm ▸ inside)
  have others : ∀ other, other ≠ si →
      ((topology.connect k si).setBoundaryIdx elem si b).condIdx other =
        topology.condIdx other := fun other elsewhere =>
    condIdx_set_boundary_idx_of_ne _ elem elsewhere b
  have bounded : ((topology.connect k si).setBoundaryIdx elem si b).Bounded mesh := by
    refine placed.toBounded.connect_with rfl others ?_ ?_
    · intro other bdr' found own
      have sameBoundary : other = b := by
        exact placed.boundary_unique found boundary (own.trans edge.symm)
      rw [sameBoundary, self]
    · intro i other array found stored
      by_cases here : i = si.element
      · subst here
        rw [lookup] at found
        cases found
        simp only [setBoundaryIdx, Function.update_self, Option.some.injEq] at stored
        rw [← stored, List.length_set]
        exact length
      · exact placed.arrays i other array found
          (by simpa [setBoundaryIdx, connect, Function.update_of_ne here] using stored)
  refine placed.connect_with ⟨elem, lookup, inside⟩ keyed uncoupled bounded rfl others ?_
  intro found defined
  rw [self] at defined
  cases defined
  exact ⟨bdr, bc_ele, boundary, edge, element, nodes⟩

end Topology

/-! ## The loops -/

theorem make_outer_edge_placed {mesh : Mesh} {topology : Topology} {ele : Element} {si : SideIter}
    (placed : ∃ keys, topology.Placed mesh keys) (undefined : topology.edgeIdx si = none)
    (lookup : mesh.element[si.element]? = some ele) (bound : si.elIdx < ele.nSides) :
    ∃ keys, (makeOuterEdge topology ele si).Placed mesh keys := by
  obtain ⟨keys, placed⟩ := placed
  have positive := mesh.bulkDim ele (List.mem_of_getElem? lookup)
  have nodes : mesh.sideNodes si = ele.sideNodes si.elIdx := by
    simp [Mesh.sideNodes, lookup]
  have keyed : Keyed (keys ++ [mesh.sideNodes si]) topology.edges.length (mesh.sideNodes si) :=
    placed.length ▸ Keyed.last keys (.refl _)
  let bc_ele : Element :=
    { id := -(topology.boundary.length : ℤ)
      dim := ele.dim - 1
      node := fun ni => (ele.sideNodes si.elIdx).getD ni 0
      dimLe := (Nat.sub_le _ _).trans ele.dimLe }
  have sameNodes : bc_ele.nodes = mesh.sideNodes si := by
    rw [nodes]
    exact ofFn_getD (by
      rw [Element.length_side_nodes positive bound]
      exact Nat.sub_add_cancel positive)
  have started := (placed.add_bc_element bc_ele).add_boundary 1 (mesh.sideNodes si)
    ⟨topology.edges.length, topology.bcElements.length⟩ rfl
  refine ⟨_, started.connect_boundary lookup bound keyed ?_
    List.getElem?_concat_length rfl List.getElem?_concat_length (sameNodes ▸ keyed)⟩
  intro ngh member
  exact ⟨(placed.neighbour_lt member).ne,
    by simp [Topology.addBoundary, Topology.addEdge, undefined]⟩

section Loops

variable {mesh : Mesh} (nonDegenerate : mesh.NonDegenerate)
include nonDegenerate

/-- The state of the loop that connects the sides under one boundary element. -/
structure UnderBoundary (mesh : Mesh) (bc_ele : Element × ℕ) (k b : ℕ)
    (keys : List (List ℕ)) (topology : Topology) : Prop where
  placed : topology.Placed mesh keys
  uncoupled : topology.vbNeighbours = []
  bcElements : topology.bcElements = mesh.bcElements
  boundary : topology.boundary[b]? = some ⟨k, bc_ele.2⟩

theorem UnderBoundary.step {bc_ele : Element × ℕ} {k b isect : ℕ} {keys : List (List ℕ)}
    {topology : Topology} (before : UnderBoundary mesh bc_ele k b keys topology)
    (listed : mesh.bcElements[bc_ele.2]? = some bc_ele.1) (keyed : Keyed keys k bc_ele.1.nodes)
    (dim : mesh.element[isect]?.map (·.dim) = some (bc_ele.1.dim + 1)) :
    UnderBoundary mesh bc_ele k b keys
      (connectBoundarySide mesh bc_ele.1.nodes k b topology isect) := by
  rcases connect_boundary_side_cases mesh bc_ele.1.nodes k b topology isect with
    same | ⟨elem, ecs, connects⟩
  · rw [same]
    exact before
  have inside := List.mem_range.mp (List.mem_of_find?_eq_some connects.found)
  have onSide := List.find?_some connects.found
  simp only [connects.lookup, Option.map_some, Option.some.injEq] at dim
  have perm := (nonDegenerate.side_perm connects.lookup inside onSide
    (by rw [bc_ele.1.length_nodes, dim])).2
  obtain ⟨key, atEdge, same⟩ := keyed
  have uncoupled : topology.Uncoupled k ⟨isect, ecs⟩ := by
    intro ngh member
    rw [before.uncoupled] at member
    cases member
  rw [connects.after]
  exact ⟨before.placed.connect_boundary connects.lookup inside
    ⟨key, atEdge, perm.trans same⟩ uncoupled before.boundary rfl
    (by rw [before.bcElements, listed]) ⟨key, atEdge, same⟩, before.uncoupled,
    before.bcElements, before.boundary⟩

/-- What holds in the loop over the boundary elements. -/
structure BoundaryPlaced (mesh : Mesh) (topology : Topology) : Prop where
  placed : ∃ keys, topology.Placed mesh keys
  uncoupled : topology.vbNeighbours = []
  bcElements : topology.bcElements = mesh.bcElements

theorem BoundaryPlaced.step {topology after : Topology} {bc_ele : Element × ℕ}
    (before : BoundaryPlaced mesh topology)
    (listed : mesh.bcElements[bc_ele.2]? = some bc_ele.1)
    (ran : boundaryElementStep mesh topology bc_ele = .ok after) :
    BoundaryPlaced mesh after := by
  obtain ⟨keys, placed⟩ := before.placed
  rcases boundary_element_step_cases ran with ⟨-, rfl⟩ | ⟨-, rfl⟩
  · exact before
  have keyed : Keyed (keys ++ [bc_ele.1.nodes]) topology.edges.length bc_ele.1.nodes :=
    placed.length ▸ Keyed.last keys (.refl _)
  have loop := foldl_preserves (mesh.boundaryElements bc_ele.1)
    (connectBoundarySide mesh bc_ele.1.nodes topology.edges.length
      topology.boundary.length) _
    (fun _ state => UnderBoundary mesh bc_ele topology.edges.length
      topology.boundary.length (keys ++ [bc_ele.1.nodes]) state)
    ⟨placed.add_boundary (mesh.boundaryElements bc_ele.1).length bc_ele.1.nodes _ rfl,
      before.uncoupled, before.bcElements, List.getElem?_concat_length⟩
    (by
      intro seen item remaining state split invariant
      have member : item ∈ mesh.boundaryElements bc_ele.1 := by rw [split]; simp
      rw [Mesh.boundaryElements, ofDim, List.mem_filter] at member
      exact invariant.step nonDegenerate listed keyed (of_decide_eq_true member.2))
  exact ⟨⟨_, loop.placed⟩, loop.uncoupled, loop.bcElements⟩

theorem boundary_loop_placed {topology : Topology}
    (ran : mesh.bcElements.zipIdx.foldlM (boundaryElementStep mesh)
      mesh.initialTopology = .ok topology) : ∃ keys, topology.Placed mesh keys := by
  have loop := foldlM_preserves ran (fun _ state => BoundaryPlaced mesh state)
    ⟨⟨[], Topology.placed_initial mesh⟩, rfl, rfl⟩
    (by
      intro seen row remaining state after split invariant stepped
      have member : row ∈ mesh.bcElements.zipIdx := by rw [split]; simp
      exact invariant.step nonDegenerate (List.mk_mem_zipIdx_iff_getElem?.mp member) stepped)
  exact loop.placed

/-- The side of the item that gets an edge has the nodes looked for. -/
theorem open_side_perm {topology : Topology} {isect ecs : ℕ} {elem : Element}
    {nodes : List ℕ} (lookup : mesh.element[isect]? = some elem)
    (length : nodes.length = elem.dim)
    (found : openSide topology isect elem nodes = some ecs) :
    mesh.IsSide ⟨isect, ecs⟩ ∧ (mesh.sideNodes ⟨isect, ecs⟩).Perm nodes := by
  have holds := List.find?_some found
  simp only [Bool.and_eq_true] at holds
  exact nonDegenerate.side_perm lookup
    (List.mem_range.mp (List.mem_of_find?_eq_some found)) holds.2 length

theorem connect_inner_side_placed {topology : Topology} {keys : List (List ℕ)} {k isect : ℕ}
    {nodes : List ℕ} (placed : topology.Placed mesh keys) (keyed : Keyed keys k nodes)
    (free : topology.Free k) (dim : mesh.element[isect]?.map (·.dim) = some nodes.length) :
    let after := connectInnerSide mesh nodes k topology isect
    after.Placed mesh keys ∧ after.Free k := by
  intro after
  rcases connect_inner_side_cases mesh nodes k topology isect with
    unchanged | ⟨elem, ecs, finds, connected⟩
  · rw [show after = topology from unchanged]
    exact ⟨placed, free⟩
  · rw [show after = _ from connected]
    simp only [finds.lookup, Option.map_some, Option.some.injEq] at dim
    obtain ⟨isSide, perm⟩ := open_side_perm nonDegenerate finds.lookup dim.symm finds.found
    obtain ⟨key, atEdge, same⟩ := keyed
    exact ⟨placed.connect_open isSide ⟨key, atEdge, perm.trans same⟩ free
      (open_side_undefined finds.found), ⟨free.boundary, free.coupling⟩⟩

theorem connect_neighbour_side_placed {topology : Topology} {isect ngh_element_idx : ℕ}
    {nodes : List ℕ} {lower : Element} (placed : ∃ keys, topology.Placed mesh keys)
    (element : mesh.element[ngh_element_idx]? = some lower) (same : lower.nodes.Perm nodes)
    (dim : mesh.element[isect]?.map (·.dim) = some nodes.length) :
    ∃ keys, (connectNeighbourSide mesh nodes ngh_element_idx topology isect).Placed mesh
      keys := by
  obtain ⟨keys, placed⟩ := placed
  rcases connect_neighbour_side_cases mesh nodes ngh_element_idx topology isect with
    unchanged | ⟨elem, ecs, finds, coupled⟩
  · exact ⟨keys, by rw [unchanged]; exact placed⟩
  simp only [finds.lookup, Option.map_some, Option.some.injEq] at dim
  obtain ⟨isSide, perm⟩ := open_side_perm nonDegenerate finds.lookup dim.symm finds.found
  have connected := (placed.add_edge 1 nodes).connect_open isSide
    (placed.length ▸ Keyed.last keys perm)
    (placed.free_last 1) (open_side_undefined finds.found)
  have pushed : ((topology.addEdge 1).connect topology.edges.length
      ⟨isect, ecs⟩).edges[topology.edges.length]? =
        some (Edge.push ⟨0, [none]⟩ ⟨isect, ecs⟩) := by
    simp [Topology.connect, Topology.addEdge]
  rw [coupled]
  refine ⟨keys ++ [nodes], connected.add_neighbour (placed.free_last 1).boundary
    pushed rfl ?_ element (placed.length ▸ Keyed.last keys same)⟩
  simp [Topology.connect]

theorem side_step_placed {topology after : Topology} {si : SideIter}
    (placed : ∃ keys, topology.Placed mesh keys) (isSide : mesh.IsSide si)
    (ran : sideStep mesh topology si = .ok after) : ∃ keys, after.Placed mesh keys := by
  rcases side_step_cases ran with ⟨rfl, -⟩ | ⟨ele, found, searches, result⟩
  · exact placed
  obtain ⟨other, lookup, bound⟩ := isSide
  rw [searches.lookup] at lookup
  cases lookup
  have positive := mesh.bulkDim ele (List.mem_of_getElem? searches.lookup)
  have length := Element.length_side_nodes positive bound
  have dims : ∀ seen item remaining, found.1 = seen ++ item :: remaining →
      mesh.element[item]?.map (·.dim) = some (ele.sideNodes si.elIdx).length := by
    intro seen item remaining split
    have member : item ∈ found.1 := by rw [split]; simp
    rw [find_lower_dim_element_eq searches.searched, ofDim, List.mem_filter] at member
    rw [length]
    exact of_decide_eq_true member.2
  cases result with
  | coupled ngh_element_idx lower =>
      obtain ⟨listed, elem, element, dim⟩ :=
        find_lower_dim_element_some searches.searched lower
      have same : elem.nodes.Perm (ele.sideNodes si.elIdx) := by
        obtain ⟨other, again, subset⟩ := (mem_intersection mesh.element
          (ele.side_nodes_ne_nil positive bound)).mp listed
        rw [element] at again
        cases again
        have distinct :=
          Element.nodup_side_nodes (nonDegenerate.nodup searches.lookup) positive bound
        refine ((distinct.subperm subset).perm_of_length_le ?_).symm
        rw [elem.length_nodes, length, dim]
      exact foldl_preserves found.1 _ topology
        (fun _ state => ∃ keys, state.Placed mesh keys) placed
        fun seen item remaining state split before =>
          connect_neighbour_side_placed nonDegenerate before element same
            (dims seen item remaining split)
  | outer lower alone =>
      exact make_outer_edge_placed placed searches.undefined searches.lookup bound
  | inner lower several =>
      obtain ⟨keys, placed⟩ := placed
      have loop := foldl_preserves found.1
        (connectInnerSide mesh (ele.sideNodes si.elIdx) topology.edges.length)
        (topology.addEdge found.1.length)
        (fun _ state => state.Placed mesh (keys ++ [ele.sideNodes si.elIdx]) ∧
          state.Free topology.edges.length)
        ⟨placed.add_edge _ _, placed.free_last _⟩
        fun seen item remaining state split before =>
          connect_inner_side_placed nonDegenerate before.1
            (placed.length ▸ Keyed.last keys (.refl _)) before.2
            (dims seen item remaining split)
      exact ⟨_, loop.1⟩

/-- Every successful setup puts the sides, the boundary elements and the couplings of an edge
on the same nodes. -/
theorem make_neighbours_and_edges_placed {topology : Topology}
    (ran : mesh.makeNeighboursAndEdges = .ok topology) : ∃ keys, topology.Placed mesh keys := by
  obtain ⟨middle, boundary, sides⟩ := bind_ok ran
  exact foldlM_preserves sides (fun _ state => ∃ keys, state.Placed mesh keys)
    (boundary_loop_placed nonDegenerate boundary)
    fun seen si remaining state after split before stepped =>
      side_step_placed nonDegenerate before (Mesh.mem_sides.mp (by rw [split]; simp)) stepped

end Loops

end Flow123d
