import Flow123d.La.SparseGraphProperties
import Flow123d.Library.Fold
import Flow123d.Mesh.SharedSides

/-!
# Graph of connected elements

`Partitioning::make_element_connection_graph`. Every processor inserts the edges of its own
elements.
-/

set_option autoImplicit false

namespace Flow123d

open Flow123d.Library

/-- The used entries of the array `side_`. None of them may be NULL. -/
def Edge.sideList (edge : Edge) : Option (List SideIter) := (edge.side.take edge.nSides).mapM id

namespace Partitioning

inductive PartitionGraphType where
  | any_neighboring
  | any_weight_lower_dim_cuts
  | same_dimension_neighboring
deriving DecidableEq

/-- The pairs for one side of an element: the element with all others on the edge of the side. -/
def sidePairs (topology : Topology) (si : SideIter) : Option (List (ℕ × ℕ)) := do
  let k ← topology.edgeIdx si
  let edg ← topology.edges[k]?
  let sides ← edg.sideList
  return (sides.filter fun other => other.element ≠ si.element).map fun other =>
    (si.element, other.element)

/-- The pairs for one neighbour of an element of lower dimension. -/
def neighPairs (topology : Topology) (neigh_vb : Neighbour) : Option (List (ℕ × ℕ)) := do
  let edg ← topology.edges[neigh_vb.edgeIdx]?
  let sides ← edg.sideList
  return sides.flatMap fun other =>
    [(neigh_vb.element, other.element), (other.element, neigh_vb.element)]

/-- Connections from the lower dimension to the higher one. -/
def couplingPairs (topology : Topology) (neigh_on : Bool) (idx : ℕ) :
    Option (List (List (ℕ × ℕ))) :=
  if neigh_on then (topology.vbNeighbours.filter (·.element = idx)).mapM (neighPairs topology)
  else some []

/-- The pairs of the calls `set_edge` for one element. -/
def elementPairs (topology : Topology) (neigh_on : Bool) (ele : Element × ℕ) :
    Option (List (ℕ × ℕ)) := do
  let bySides ← ((List.range ele.1.nSides).map (SideIter.mk ele.2)).mapM (sidePairs topology)
  let byNeighs ← couplingPairs topology neigh_on ele.2
  return bySides.flatten ++ byNeighs.flatten

def setEdges (graph : SparseGraph) (pairs : List (ℕ × ℕ)) : SparseGraph :=
  pairs.foldl (fun graph pair => graph.setEdge pair.1 pair.2 1) graph

/-- What one processor inserts before the graph is finalized. -/
def makeElementConnectionGraph (mesh : Mesh) (topology : Topology)
    (graph_type : PartitionGraphType) (edistr : Distribution) (myp : ℕ) : Option SparseGraph := do
  let neigh_on := graph_type ≠ .same_dimension_neighboring
  let pairs ← (mesh.element.zipIdx.filter fun ele => edistr.isOnProc ele.2 myp).mapM
    (elementPairs topology neigh_on)
  return setEdges (SparseGraph.empty edistr) pairs.flatten

/-- Some processor has inserted the edge. -/
def Inserted (edistr : Distribution) (graphs : ℕ → Option SparseGraph) (a b : ℕ) : Prop :=
  ∃ proc < edistr.np, ∃ graph, graphs proc = some graph ∧
    ∃ owner, ∃ edge ∈ graph.adjOfProc owner, edge.from_ = a ∧ edge.to_ = b

/-- The elements have sides on one edge of the mesh. -/
def ShareEdge (topology : Topology) (a b : ℕ) : Prop :=
  ∃ edge ∈ topology.edges, ∃ si ∈ edge.sides, ∃ other ∈ edge.sides,
    si.element = a ∧ other.element = b

/-- The first element is the lower one of a coupling, the second has a side on its edge. -/
def Coupled (topology : Topology) (a b : ℕ) : Prop :=
  ∃ neigh_vb ∈ topology.vbNeighbours, neigh_vb.element = a ∧
    ∃ edge, topology.edges[neigh_vb.edgeIdx]? = some edge ∧ ∃ si ∈ edge.sides, si.element = b

/-- The graph of the elements that are connected by an edge or, where these count, by a
coupling. -/
structure ConnectsElements (topology : Topology) (edistr : Distribution) (neigh_on : Bool)
    (graphs : ℕ → Option SparseGraph) : Prop where
  returns : ∀ proc, (graphs proc).isSome
  loopFree : ∀ a, ¬ Inserted edistr graphs a a
  symmetric : ∀ a b, Inserted edistr graphs a b → Inserted edistr graphs b a
  pairs : ∀ a b, Inserted edistr graphs a b ↔
    a ≠ b ∧ (ShareEdge topology a b ∨
      (neigh_on = true ∧ (Coupled topology a b ∨ Coupled topology b a)))

end Partitioning

/-! ## Elements on a coupling -/

/-- The edge of a coupling has one side, of an element that is one dimension higher. -/
def Neighbour.Couples (mesh : Mesh) (edges : List Edge) (ngh : Neighbour) : Prop :=
  ∃ si elem lower, edges[ngh.edgeIdx]? = some ⟨1, [some si]⟩ ∧
    mesh.element[si.element]? = some elem ∧ mesh.element[ngh.element]? = some lower ∧
    elem.dim = lower.dim + 1

/-- The sides with edges are sides of the mesh, and the couplings go between dimensions. -/
structure Topology.Joins (mesh : Mesh) (topology : Topology) : Prop where
  isSide : ∀ si, (topology.edgeIdx si).isSome → mesh.IsSide si
  couples : ∀ ngh ∈ topology.vbNeighbours, ngh.Couples mesh topology.edges

section Joins

variable {mesh : Mesh} {topology after : Topology}

theorem Neighbour.Couples.extended {edges later : List Edge} {ngh : Neighbour}
    (couples : ngh.Couples mesh edges) (kept : edges <+: later) : ngh.Couples mesh later := by
  obtain ⟨si, elem, lower, lookup, element, lowerElement, dim⟩ := couples
  obtain ⟨more, rfl⟩ := kept
  refine ⟨si, elem, lower, ?_, element, lowerElement, dim⟩
  rw [List.getElem?_append_left (List.getElem?_eq_some_iff.mp lookup).1, lookup]

theorem Topology.isSide_connect {si : SideIter} (k : ℕ) (side : mesh.IsSide si)
    (isSide : ∀ si, (topology.edgeIdx si).isSome → mesh.IsSide si) :
    ∀ other, ((topology.connect k si).edgeIdx other).isSome → mesh.IsSide other := by
  intro other defined
  by_cases same : other = si
  · exact same ▸ side
  · refine isSide other ?_
    simpa [Topology.connect, Function.update_of_ne same] using defined

theorem connect_boundary_side_isSide (sideNodes : List ℕ) (k bdr_idx isect : ℕ)
    (isSide : ∀ si, (topology.edgeIdx si).isSome → mesh.IsSide si) :
    ∀ si, ((connectBoundarySide mesh sideNodes k bdr_idx topology isect).edgeIdx si).isSome →
      mesh.IsSide si := by
  rcases connect_boundary_side_cases mesh sideNodes k bdr_idx topology isect with same | connects
  · rw [same]
    exact isSide
  · obtain ⟨elem, ecs, connects⟩ := connects
    rw [connects.after]
    exact Topology.isSide_connect k connects.isSide isSide

theorem connect_boundary_side_vb_neighbours (sideNodes : List ℕ) (k bdr_idx isect : ℕ) :
    (connectBoundarySide mesh sideNodes k bdr_idx topology isect).vbNeighbours =
      topology.vbNeighbours := by
  rcases connect_boundary_side_cases mesh sideNodes k bdr_idx topology isect with same | connects
  · rw [same]
  · obtain ⟨elem, ecs, connects⟩ := connects
    rw [connects.after]
    rfl

theorem boundary_loop_kept
    (ran : mesh.bcElements.zipIdx.foldlM (boundaryElementStep mesh)
      mesh.initialTopology = .ok topology) :
    topology.vbNeighbours = [] ∧ ∀ si, (topology.edgeIdx si).isSome → mesh.IsSide si := by
  refine foldlM_preserves ran
    (fun _ state => state.vbNeighbours = [] ∧
      ∀ si, (state.edgeIdx si).isSome → mesh.IsSide si)
    ⟨rfl, fun _ defined => by cases defined⟩ ?_
  intro seen bc_ele remaining state next _ invariant stepped
  rcases boundary_element_step_cases stepped with ⟨-, rfl⟩ | ⟨-, rfl⟩
  · exact invariant
  · refine foldl_preserves _ _ _ (fun _ (state : Topology) => state.vbNeighbours = [] ∧
      ∀ si, (state.edgeIdx si).isSome → mesh.IsSide si) invariant ?_
    intro seen item remaining state _ before
    exact ⟨(connect_boundary_side_vb_neighbours _ _ _ item).trans before.1,
      connect_boundary_side_isSide _ _ _ item before.2⟩

theorem boundary_loop_joins
    (ran : mesh.bcElements.zipIdx.foldlM (boundaryElementStep mesh)
      mesh.initialTopology = .ok topology) : topology.Joins mesh := by
  obtain ⟨uncoupled, isSide⟩ := boundary_loop_kept ran
  exact ⟨isSide, fun ngh member => by rw [uncoupled] at member; cases member⟩

theorem connect_inner_side_joins (sideNodes : List ℕ) (k isect : ℕ)
    (isSide : ∀ si, (topology.edgeIdx si).isSome → mesh.IsSide si) :
    (∀ si, ((connectInnerSide mesh sideNodes k topology isect).edgeIdx si).isSome →
      mesh.IsSide si) ∧ (connectInnerSide mesh sideNodes k topology isect).vbNeighbours =
        topology.vbNeighbours := by
  rcases connect_inner_side_cases mesh sideNodes k topology isect with same | connects
  · rw [same]
    exact ⟨isSide, rfl⟩
  · obtain ⟨elem, ecs, finds, after⟩ := connects
    rw [after]
    exact ⟨Topology.isSide_connect k finds.isSide isSide, rfl⟩

theorem connect_neighbour_side_joins {sideNodes : List ℕ} {ngh_element_idx isect : ℕ}
    {lower : Element} (joins : topology.Joins mesh)
    (lowerElement : mesh.element[ngh_element_idx]? = some lower)
    (dim : ∀ elem, mesh.element[isect]? = some elem → elem.dim = lower.dim + 1) :
    (connectNeighbourSide mesh sideNodes ngh_element_idx topology isect).Joins mesh := by
  have kept : topology.edges <+:
      (connectNeighbourSide mesh sideNodes ngh_element_idx topology isect).edges :=
    connect_neighbour_side_extends sideNodes ngh_element_idx isect List.prefix_rfl
  rcases connect_neighbour_side_cases mesh sideNodes ngh_element_idx topology isect with
    same | connects
  · rw [same]
    exact joins
  · obtain ⟨elem, ecs, finds, after⟩ := connects
    rw [after] at kept ⊢
    constructor
    · exact Topology.isSide_connect _ finds.isSide joins.isSide
    · intro ngh member
      rcases List.mem_append.mp member with before | new
      · exact (joins.couples ngh before).extended kept
      · rw [List.mem_singleton.mp new]
        refine ⟨⟨isect, ecs⟩, elem, lower, ?_, finds.lookup, lowerElement,
          dim elem finds.lookup⟩
        simp [Topology.couple, Topology.connect, Topology.addEdge, Edge.push]

theorem side_step_joins {si : SideIter} (joins : topology.Joins mesh) (side : mesh.IsSide si)
    (ran : sideStep mesh topology si = .ok after) : after.Joins mesh := by
  have kept := side_step_extends ran
  rcases side_step_cases ran with ⟨rfl, -⟩ | ⟨ele, found, searches, result⟩
  · exact joins
  cases result with
  | coupled ngh_element_idx lower =>
      obtain ⟨-, elem, lowerElement, dim⟩ := find_lower_dim_element_some searches.searched lower
      refine foldl_preserves found.1 _ topology (fun _ state => state.Joins mesh) joins ?_
      intro seen item remaining state split before
      refine connect_neighbour_side_joins before lowerElement fun other lookup => ?_
      have member : item ∈ found.1 := by rw [split]; simp
      rw [find_lower_dim_element_eq searches.searched, ofDim, List.mem_filter, lookup] at member
      have sameDim := of_decide_eq_true member.2
      simp only [Option.map_some, Option.some.injEq] at sameDim
      omega
  | outer lower alone =>
      exact ⟨Topology.isSide_connect _ side joins.isSide,
        fun ngh member => (joins.couples ngh member).extended kept⟩
  | inner lower several =>
      obtain ⟨isSide, same⟩ := foldl_preserves found.1
        (connectInnerSide mesh (ele.sideNodes si.elIdx) topology.edges.length)
        (topology.addEdge found.1.length)
        (fun _ (state : Topology) => (∀ si, (state.edgeIdx si).isSome → mesh.IsSide si) ∧
          state.vbNeighbours = topology.vbNeighbours) ⟨joins.isSide, rfl⟩
        fun _ item _ _ _ before =>
          ⟨(connect_inner_side_joins _ _ item before.1).1,
            (connect_inner_side_joins _ _ item before.1).2.trans before.2⟩
      exact ⟨isSide, fun ngh member => (joins.couples ngh (same ▸ member)).extended kept⟩

theorem make_neighbours_and_edges_joins
    (ran : mesh.makeNeighboursAndEdges = .ok topology) : topology.Joins mesh := by
  obtain ⟨middle, boundary, sides⟩ := bind_ok ran
  exact foldlM_preserves sides (fun _ state => state.Joins mesh) (boundary_loop_joins boundary)
    fun _ si _ _ _ split before stepped =>
      side_step_joins before (Mesh.mem_sides.mp (by rw [split]; simp)) stepped

end Joins

/-! ## Edges that a side is on -/

section Edges

variable {mesh : Mesh} {topology : Topology}

theorem Edge.WellFormed.sideList {edge : Edge} (valid : edge.WellFormed) :
    edge.sideList = some edge.sides := by
  have used : edge.side.take edge.nSides = edge.sides.map some := by
    rw [valid.prefixUsed, valid.countUsed]
    exact List.take_left' (by simp)
  exact mapM_id_eq_some.mpr used

/-- Every side has an edge that lists it. -/
theorem Mesh.exists_edge (ran : mesh.makeNeighboursAndEdges = .ok topology) {si : SideIter}
    (side : mesh.IsSide si) : ∃ k edge, topology.edgeIdx si = some k ∧
      topology.edges[k]? = some edge ∧ si ∈ edge.sides := by
  obtain ⟨middle, boundary, sides⟩ := bind_ok ran
  obtain ⟨valid, -⟩ := boundary_loop_spec boundary
  obtain ⟨extension, closed⟩ := side_loop_spec valid sides
  obtain ⟨k, defined⟩ := Option.isSome_iff_exists.mp (closed si side)
  obtain ⟨edge, lookup, member⟩ := extension.valid.definedListed si k defined
  exact ⟨k, edge, defined, lookup, member⟩

theorem Mesh.valid_topology (ran : mesh.makeNeighboursAndEdges = .ok topology) :
    topology.Valid := by
  obtain ⟨middle, boundary, sides⟩ := bind_ok ran
  exact (side_loop_spec (boundary_loop_spec boundary).1 sides).1.valid

theorem Mesh.isSide_of_listed (ran : mesh.makeNeighboursAndEdges = .ok topology) {edge : Edge}
    (member : edge ∈ topology.edges) {si : SideIter} (listed : si ∈ edge.sides) :
    mesh.IsSide si :=
  (make_neighbours_and_edges_joins ran).isSide si ((Mesh.valid_topology ran).listedDefined si
    (List.mem_flatMap.mpr ⟨edge, member, listed⟩))

/-- The elements do not repeat nodes, or no side lies under two boundary elements. -/
def Mesh.Simple (mesh : Mesh) : Prop := mesh.DistinctNodes ∨ mesh.BoundaryElementsApart

theorem Mesh.Simple.sides_of_shared (simple : mesh.Simple)
    (ran : mesh.makeNeighboursAndEdges = .ok topology) {k l : ℕ} {edge other : Edge}
    (here : topology.edges[k]? = some edge) (there : topology.edges[l]? = some other)
    {shared : SideIter} (first : shared ∈ edge.sides) (second : shared ∈ other.sides) :
    edge.sides ⊆ other.sides := by
  rcases simple with distinct | apart
  · exact Mesh.sides_of_shared distinct ran here there first second
  · have side := Mesh.isSide_of_listed ran (List.mem_of_getElem? here) first
    have once := ((Mesh.sidesOnEdges_iff ran).mpr apart).once shared side
    by_cases same : k = l
    · rw [same, there] at here
      cases here
      exact List.Subset.refl _
    · have twice := Topology.two_le_count_listed same here there first second
      omega

end Edges

/-! ## The graph -/

namespace Partitioning

section Pairs

variable {mesh : Mesh} {topology : Topology}

theorem exists_sidePairs (ran : mesh.makeNeighboursAndEdges = .ok topology) (si : SideIter)
    (side : mesh.IsSide si) :
    ∃ k : ℕ, ∃ edge : Edge, topology.edges[k]? = some edge ∧ si ∈ edge.sides ∧
      sidePairs topology si = some ((edge.sides.filter fun other =>
        other.element ≠ si.element).map fun other => (si.element, other.element)) := by
  obtain ⟨k, edge, defined, lookup, member⟩ := Mesh.exists_edge ran side
  have sides := ((Mesh.valid_topology ran).wellFormed edge (List.mem_of_getElem? lookup)).sideList
  exact ⟨k, edge, lookup, member, by simp [sidePairs, defined, lookup, sides]⟩

theorem exists_neighPairs {ngh : Neighbour} (couples : ngh.Couples mesh topology.edges) :
    ∃ si, topology.edges[ngh.edgeIdx]? = some ⟨1, [some si]⟩ ∧ ngh.element ≠ si.element ∧
      (∃ lower, mesh.element[ngh.element]? = some lower) ∧
      (∃ elem, mesh.element[si.element]? = some elem) ∧
      neighPairs topology ngh =
        some [(ngh.element, si.element), (si.element, ngh.element)] := by
  obtain ⟨si, elem, lower, lookup, element, lowerElement, dim⟩ := couples
  refine ⟨si, lookup, fun same => ?_, ⟨lower, lowerElement⟩, ⟨elem, element⟩,
    by simp [neighPairs, lookup, Edge.sideList]⟩
  rw [same, element] at lowerElement
  cases lowerElement
  omega

theorem elementPairs_isSome (ran : mesh.makeNeighboursAndEdges = .ok topology) (neigh_on : Bool)
    {ele : Element} {idx : ℕ} (element : mesh.element[idx]? = some ele) :
    (elementPairs topology neigh_on (ele, idx)).isSome := by
  obtain ⟨bySides, sidesRan⟩ := exists_mapM (sidePairs topology)
    ((List.range ele.nSides).map (SideIter.mk idx)) (by
      intro si member
      obtain ⟨s, bound, rfl⟩ := List.mem_map.mp member
      obtain ⟨k, edge, -, -, pairs⟩ :=
        exists_sidePairs ran ⟨idx, s⟩ ⟨ele, element, List.mem_range.mp bound⟩
      exact Option.isSome_iff_exists.mpr ⟨_, pairs⟩)
  obtain ⟨byNeighs, neighsRan⟩ := exists_mapM (neighPairs topology)
    (topology.vbNeighbours.filter (·.element = idx)) (by
      intro ngh member
      have listed := (List.mem_filter.mp member).1
      obtain ⟨si, -, -, -, -, pairs⟩ :=
        exists_neighPairs ((make_neighbours_and_edges_joins ran).couples ngh listed)
      exact Option.isSome_iff_exists.mpr ⟨_, pairs⟩)
  cases neigh_on <;> simp [elementPairs, couplingPairs, sidesRan, neighsRan]

/-- The pairs of an element: those of its sides and those of its couplings. -/
theorem mem_elementPairs {neigh_on : Bool} {ele : Element × ℕ} {pairs : List (ℕ × ℕ)}
    (ran : elementPairs topology neigh_on ele = some pairs) {pair : ℕ × ℕ} :
    pair ∈ pairs ↔
      (∃ s < ele.1.nSides, ∃ ofSide, sidePairs topology ⟨ele.2, s⟩ = some ofSide ∧
        pair ∈ ofSide) ∨
      (neigh_on = true ∧ ∃ ngh ∈ topology.vbNeighbours, ngh.element = ele.2 ∧
        ∃ ofNeigh, neighPairs topology ngh = some ofNeigh ∧ pair ∈ ofNeigh) := by
  obtain ⟨bySides, sidesRan, ran⟩ := Option.bind_eq_some_iff.mp ran
  obtain ⟨byNeighs, neighsRan, ran⟩ := Option.bind_eq_some_iff.mp ran
  cases ran
  rw [List.mem_append, List.mem_flatten, List.mem_flatten]
  refine or_congr ?_ ?_
  · simp only [mem_mapM sidesRan, List.mem_map, List.mem_range]
    constructor
    · rintro ⟨ofSide, ⟨_, ⟨s, bound, rfl⟩, found⟩, member⟩
      exact ⟨s, bound, ofSide, found, member⟩
    · rintro ⟨s, bound, ofSide, found, member⟩
      exact ⟨ofSide, ⟨_, ⟨s, bound, rfl⟩, found⟩, member⟩
  · cases neigh_on with
    | false =>
        cases neighsRan
        simp
    | true =>
        simp only [mem_mapM neighsRan, List.mem_filter, decide_eq_true_eq, true_and]
        constructor
        · rintro ⟨ofNeigh, ⟨ngh, ⟨listed, same⟩, found⟩, member⟩
          exact ⟨ngh, listed, same, ofNeigh, found, member⟩
        · rintro ⟨ngh, listed, same, ofNeigh, found, member⟩
          exact ⟨ofNeigh, ⟨ngh, ⟨listed, same⟩, found⟩, member⟩

/-- The pair is one of some element of the mesh. -/
def Requested (mesh : Mesh) (topology : Topology) (neigh_on : Bool) (a b : ℕ) : Prop :=
  ∃ idx ele pairs, mesh.element[idx]? = some ele ∧
    elementPairs topology neigh_on (ele, idx) = some pairs ∧ (a, b) ∈ pairs

/-- The pairs of an element are connected. -/
theorem Requested.connects (ran : mesh.makeNeighboursAndEdges = .ok topology) {neigh_on : Bool}
    {a b : ℕ} (requested : Requested mesh topology neigh_on a b) :
    a ≠ b ∧ (ShareEdge topology a b ∨
      (neigh_on = true ∧ (Coupled topology a b ∨ Coupled topology b a))) := by
  obtain ⟨idx, ele, pairs, element, found, member⟩ := requested
  rcases (mem_elementPairs found).mp member with ofSide | ofNeigh
  · obtain ⟨s, bound, ofSide, sideRan, listed⟩ := ofSide
    obtain ⟨k, edge, lookup, own, pairs⟩ :=
      exists_sidePairs ran ⟨idx, s⟩ ⟨ele, element, bound⟩
    rw [pairs, Option.some.injEq] at sideRan
    rw [← sideRan] at listed
    obtain ⟨other, kept, same⟩ := List.mem_map.mp listed
    obtain ⟨inside, apart⟩ := List.mem_filter.mp kept
    cases same
    exact ⟨(of_decide_eq_true apart).symm,
      .inl ⟨edge, List.mem_of_getElem? lookup, _, own, other, inside, rfl, rfl⟩⟩
  · obtain ⟨on, ngh, inside, rfl, ofNeigh, neighRan, listed⟩ := ofNeigh
    obtain ⟨si, lookup, apart, -, -, pairs⟩ :=
      exists_neighPairs ((make_neighbours_and_edges_joins ran).couples ngh inside)
    rw [pairs, Option.some.injEq] at neighRan
    have coupled : Coupled topology ngh.element si.element :=
      ⟨ngh, inside, rfl, _, lookup, si, by simp [Edge.sides], rfl⟩
    simp only [← neighRan, List.mem_cons, Prod.mk.injEq, List.not_mem_nil, or_false] at listed
    rcases listed with ⟨rfl, rfl⟩ | ⟨rfl, rfl⟩
    · exact ⟨apart, .inr ⟨on, .inl coupled⟩⟩
    · exact ⟨apart.symm, .inr ⟨on, .inr coupled⟩⟩

theorem requested_of_coupled (ran : mesh.makeNeighboursAndEdges = .ok topology) {neigh_on : Bool}
    (on : neigh_on = true) {a b : ℕ} (coupled : Coupled topology a b) :
    Requested mesh topology neigh_on a b ∧ Requested mesh topology neigh_on b a := by
  obtain ⟨ngh, inside, rfl, edge, lookup, si, member, rfl⟩ := coupled
  obtain ⟨only, again, -, ⟨lower, lowerElement⟩, -, pairs⟩ :=
    exists_neighPairs ((make_neighbours_and_edges_joins ran).couples ngh inside)
  rw [lookup] at again
  cases again
  have same : si = only := by simpa [Edge.sides] using member
  obtain ⟨all, allRan⟩ := Option.isSome_iff_exists.mp
    (elementPairs_isSome ran neigh_on lowerElement)
  have listed : ∀ pair ∈ [(ngh.element, only.element), (only.element, ngh.element)],
      pair ∈ all := fun pair member =>
    (mem_elementPairs allRan).mpr (.inr ⟨on, ngh, inside, rfl, _, pairs, member⟩)
  rw [same]
  exact ⟨⟨ngh.element, lower, all, lowerElement, allRan, listed _ (by simp)⟩,
    ⟨ngh.element, lower, all, lowerElement, allRan, listed _ (by simp)⟩⟩

/-- The side is listed by its own edge, which lists the same sides as the given one. -/
theorem requested_of_shareEdge (simple : mesh.Simple)
    (ran : mesh.makeNeighboursAndEdges = .ok topology) (neigh_on : Bool) {a b : ℕ}
    (apart : a ≠ b) (share : ShareEdge topology a b) : Requested mesh topology neigh_on a b := by
  obtain ⟨edge, inMesh, si, own, other, listed, rfl, rfl⟩ := share
  have side := Mesh.isSide_of_listed ran inMesh own
  obtain ⟨l, lookup⟩ := List.mem_iff_getElem?.mp inMesh
  obtain ⟨k, another, anotherLookup, anotherOwn, pairs⟩ := exists_sidePairs ran si side
  have inAnother := simple.sides_of_shared ran lookup anotherLookup own anotherOwn listed
  obtain ⟨ele, element, bound⟩ := side
  obtain ⟨all, allRan⟩ := Option.isSome_iff_exists.mp (elementPairs_isSome ran neigh_on element)
  refine ⟨si.element, ele, all, element, allRan, (mem_elementPairs allRan).mpr
    (.inl ⟨si.elIdx, bound, _, pairs, List.mem_map.mpr ⟨other, ?_, rfl⟩⟩)⟩
  exact List.mem_filter.mpr ⟨inAnother, decide_eq_true apart.symm⟩

theorem requested_iff (simple : mesh.Simple) (ran : mesh.makeNeighboursAndEdges = .ok topology)
    (neigh_on : Bool) (a b : ℕ) : Requested mesh topology neigh_on a b ↔
      a ≠ b ∧ (ShareEdge topology a b ∨
        (neigh_on = true ∧ (Coupled topology a b ∨ Coupled topology b a))) := by
  refine ⟨Requested.connects ran, ?_⟩
  rintro ⟨apart, share | ⟨on, coupled | coupled⟩⟩
  · exact requested_of_shareEdge simple ran neigh_on apart share
  · exact (requested_of_coupled ran on coupled).1
  · exact (requested_of_coupled ran on coupled).2

theorem Requested.lt (ran : mesh.makeNeighboursAndEdges = .ok topology) {neigh_on : Bool}
    {a b : ℕ} (requested : Requested mesh topology neigh_on a b) : a < mesh.element.length := by
  have joins := make_neighbours_and_edges_joins ran
  rcases (requested.connects ran).2 with share | ⟨-, coupled | coupled⟩
  · obtain ⟨edge, inMesh, si, own, other, listed, rfl, rfl⟩ := share
    obtain ⟨ele, element, -⟩ := Mesh.isSide_of_listed ran inMesh own
    exact (List.getElem?_eq_some_iff.mp element).1
  · obtain ⟨ngh, inside, rfl, -⟩ := coupled
    obtain ⟨si, -, -, ⟨lower, lowerElement⟩, -⟩ := exists_neighPairs (joins.couples ngh inside)
    exact (List.getElem?_eq_some_iff.mp lowerElement).1
  · obtain ⟨ngh, inside, -, edge, lookup, si, member, rfl⟩ := coupled
    obtain ⟨ele, element, -⟩ := Mesh.isSide_of_listed ran (List.mem_of_getElem? lookup) member
    exact (List.getElem?_eq_some_iff.mp element).1

end Pairs

section Graph

variable {graph : SparseGraph}

theorem mem_setEdge {a : ℕ} (inside : a < graph.vtxDistr.size) (b weight : ℤ)
    (edge : SparseGraph.Edge) :
    (∃ owner, edge ∈ (graph.setEdge a b weight).adjOfProc owner) ↔
      (∃ owner, edge ∈ graph.adjOfProc owner) ∨ edge = ⟨a, b, weight⟩ := by
  obtain ⟨proc, found⟩ := Option.isSome_iff_exists.mp (Distribution.get_proc_isSome inside)
  simp only [SparseGraph.setEdge, found]
  constructor
  · rintro ⟨owner, member⟩
    by_cases here : owner = proc
    · rw [here, Function.update_self] at member
      rcases List.mem_cons.mp member with new | old
      · exact .inr new
      · exact .inl ⟨proc, old⟩
    · rw [Function.update_of_ne here] at member
      exact .inl ⟨owner, member⟩
  · rintro (⟨owner, member⟩ | rfl)
    · by_cases here : owner = proc
      · refine ⟨proc, ?_⟩
        rw [Function.update_self]
        exact List.mem_cons_of_mem _ (here ▸ member)
      · refine ⟨owner, ?_⟩
        rwa [Function.update_of_ne here]
    · refine ⟨proc, ?_⟩
      rw [Function.update_self]
      exact List.mem_cons_self

theorem mem_setEdges (graph : SparseGraph) {pairs : List (ℕ × ℕ)}
    (inside : ∀ pair ∈ pairs, pair.1 < graph.vtxDistr.size) (edge : SparseGraph.Edge) :
    (∃ owner, edge ∈ (setEdges graph pairs).adjOfProc owner) ↔
      (∃ owner, edge ∈ graph.adjOfProc owner) ∨ ∃ pair ∈ pairs, edge = ⟨pair.1, pair.2, 1⟩ := by
  induction pairs generalizing graph with
  | nil => simp [setEdges]
  | cons pair pairs ih =>
      have rest := @ih (graph.setEdge pair.1 pair.2 1) fun other member => by
        rw [SparseGraph.set_edge_vtx_distr]
        exact inside other (List.mem_cons_of_mem _ member)
      change (∃ owner, edge ∈ (setEdges (graph.setEdge pair.1 pair.2 1) pairs).adjOfProc owner) ↔ _
      rw [rest, mem_setEdge (inside pair List.mem_cons_self)]
      simp [or_assoc]

end Graph

section Processors

variable {mesh : Mesh} {topology : Topology} {edistr : Distribution}

/-- What a processor inserts are the pairs of its elements. -/
theorem exists_graph (ran : mesh.makeNeighboursAndEdges = .ok topology)
    (size : edistr.size = mesh.element.length) (graph_type : PartitionGraphType) (proc : ℕ) :
    ∃ graph, makeElementConnectionGraph mesh topology graph_type edistr proc = some graph ∧
      ∀ a b : ℕ, (∃ owner, ∃ edge ∈ graph.adjOfProc owner, edge.from_ = a ∧ edge.to_ = b) ↔
        ∃ idx ele pairs, mesh.element[idx]? = some ele ∧ edistr.isOnProc idx proc = true ∧
          elementPairs topology (graph_type ≠ .same_dimension_neighboring) (ele, idx) =
            some pairs ∧ (a, b) ∈ pairs := by
  obtain ⟨all, allRan⟩ := exists_mapM
    (elementPairs topology (graph_type ≠ .same_dimension_neighboring))
    (mesh.element.zipIdx.filter fun ele => edistr.isOnProc ele.2 proc) (by
      intro ele member
      exact elementPairs_isSome ran _
        (List.mk_mem_zipIdx_iff_getElem?.mp (List.mem_filter.mp member).1))
  refine ⟨_, by rw [makeElementConnectionGraph, allRan]; rfl, fun a b => ?_⟩
  have listed : ∀ pair : ℕ × ℕ, pair ∈ all.flatten ↔
      ∃ idx ele pairs, mesh.element[idx]? = some ele ∧ edistr.isOnProc idx proc = true ∧
        elementPairs topology (graph_type ≠ .same_dimension_neighboring) (ele, idx) =
          some pairs ∧ pair ∈ pairs := by
    intro pair
    simp only [List.mem_flatten, mem_mapM allRan, List.mem_filter]
    constructor
    · rintro ⟨pairs, ⟨⟨ele, idx⟩, ⟨inMesh, owned⟩, found⟩, member⟩
      exact ⟨idx, ele, pairs, List.mk_mem_zipIdx_iff_getElem?.mp inMesh, owned, found, member⟩
    · rintro ⟨idx, ele, pairs, element, owned, found, member⟩
      exact ⟨pairs, ⟨(ele, idx), ⟨List.mk_mem_zipIdx_iff_getElem?.mpr element, owned⟩, found⟩,
        member⟩
  have stored := mem_setEdges (SparseGraph.empty edistr) (by
    intro pair member
    obtain ⟨idx, ele, pairs, element, -, found, inside⟩ := (listed pair).mp member
    exact (Requested.lt ran ⟨idx, ele, pairs, element, found, inside⟩).trans_eq size.symm)
  rw [← listed]
  constructor
  · rintro ⟨owner, edge, member, start, stop⟩
    rcases (stored edge).mp ⟨owner, member⟩ with ⟨_, none_⟩ | ⟨pair, inside, rfl⟩
    · cases none_
    · have same : pair = (a, b) := Prod.ext (Int.ofNat.inj start) (Int.ofNat.inj stop)
      exact same ▸ inside
  · intro inside
    obtain ⟨owner, member⟩ := (stored ⟨a, b, 1⟩).mpr (.inr ⟨(a, b), inside, rfl⟩)
    exact ⟨owner, _, member, rfl, rfl⟩

theorem inserted_iff (ran : mesh.makeNeighboursAndEdges = .ok topology)
    (size : edistr.size = mesh.element.length) (graph_type : PartitionGraphType) (a b : ℕ) :
    Inserted edistr (makeElementConnectionGraph mesh topology graph_type edistr) a b ↔
      Requested mesh topology (graph_type ≠ .same_dimension_neighboring) a b := by
  constructor
  · rintro ⟨proc, -, graph, graphRan, edges⟩
    obtain ⟨same, sameRan, spec⟩ := exists_graph ran size graph_type proc
    rw [graphRan, Option.some.injEq] at sameRan
    obtain ⟨idx, ele, pairs, element, -, found, member⟩ := (spec a b).mp (sameRan ▸ edges)
    exact ⟨idx, ele, pairs, element, found, member⟩
  · rintro ⟨idx, ele, pairs, element, found, member⟩
    -- the element belongs to some processor
    have inside : idx < edistr.size := by
      rw [size]
      exact (List.getElem?_eq_some_iff.mp element).1
    obtain ⟨proc, owner⟩ := Option.isSome_iff_exists.mp (Distribution.get_proc_isSome inside)
    obtain ⟨bound, owned⟩ := Distribution.get_proc_eq_some.mp owner
    obtain ⟨graph, graphRan, spec⟩ := exists_graph ran size graph_type proc
    exact ⟨proc, bound, graph, graphRan, (spec a b).mpr ⟨idx, ele, pairs, element,
      Distribution.is_on_proc_iff.mpr owned, found, member⟩⟩

end Processors

theorem ShareEdge.symm {topology : Topology} {a b : ℕ} (share : ShareEdge topology a b) :
    ShareEdge topology b a := by
  obtain ⟨edge, inMesh, si, own, other, listed, first, second⟩ := share
  exact ⟨edge, inMesh, other, listed, si, own, second, first⟩

/-- The graph does not depend on the distribution of the elements. -/
theorem make_element_connection_graph_connects {mesh : Mesh} (simple : mesh.Simple)
    {topology : Topology} (ran : mesh.makeNeighboursAndEdges = .ok topology)
    (graph_type : PartitionGraphType) {edistr : Distribution}
    (size : edistr.size = mesh.element.length) :
    ConnectsElements topology edistr (graph_type ≠ .same_dimension_neighboring)
      (makeElementConnectionGraph mesh topology graph_type edistr) := by
  have pairs : ∀ a b, Inserted edistr
      (makeElementConnectionGraph mesh topology graph_type edistr) a b ↔
        a ≠ b ∧ (ShareEdge topology a b ∨
          (decide (graph_type ≠ .same_dimension_neighboring) = true ∧
            (Coupled topology a b ∨ Coupled topology b a))) := fun a b =>
    (inserted_iff ran size graph_type a b).trans (requested_iff simple ran _ a b)
  refine ⟨fun proc => ?_, fun a inserted => ((pairs a a).mp inserted).1 rfl, ?_, pairs⟩
  · obtain ⟨graph, graphRan, -⟩ := exists_graph ran size graph_type proc
    exact Option.isSome_iff_exists.mpr ⟨graph, graphRan⟩
  · intro a b inserted
    obtain ⟨apart, connected⟩ := (pairs a b).mp inserted
    exact (pairs b a).mpr ⟨apart.symm,
      connected.imp ShareEdge.symm fun coupled => ⟨coupled.1, coupled.2.symm⟩⟩

/-- All elements on one process. -/
def onOneProcess (size : ℕ) : Distribution where
  np := 1
  starts := fun proc => proc * size
  startsZero := Nat.zero_mul size
  startsLe := fun proc _ => Nat.mul_le_mul_right size (Nat.le_succ proc)

/-- A line on a side of a triangle. -/
def lineOnTriangle : Mesh where
  nodeVector := [![0, 0, 0], ![1, 0, 0], ![0, 1, 0]]
  element := [⟨1, 1, ![0, 1], Element.line_dimLe⟩, ⟨2, 2, ![0, 1, 2], Element.triangle_dimLe⟩]
  bcElements := []
  bulkDim := by simp

theorem lineOnTriangle_simple : lineOnTriangle.Simple :=
  .inl (by unfold Mesh.DistinctNodes; decide)

theorem make_element_connection_graph_lineOnTriangle :
    ∃ topology, lineOnTriangle.makeNeighboursAndEdges = .ok topology ∧
      ConnectsElements topology (onOneProcess 2) true
        (makeElementConnectionGraph lineOnTriangle topology .any_neighboring (onOneProcess 2)) :=
  ⟨_, rfl, make_element_connection_graph_connects lineOnTriangle_simple rfl .any_neighboring rfl⟩

/-- The first triangle repeats a node; both boundary elements lie on its first side. -/
def repeatedNode : Mesh where
  nodeVector := [![0, 0, 0], ![1, 0, 0], ![0, 1, 0]]
  element := [⟨1, 2, ![0, 0, 1], Element.triangle_dimLe⟩, ⟨2, 2, ![0, 1, 2], Element.triangle_dimLe⟩]
  bcElements := [⟨3, 1, ![0, 1], Element.line_dimLe⟩, ⟨4, 1, ![0, 0], Element.line_dimLe⟩]
  bulkDim := by simp

theorem repeatedNode_pairs : ∃ topology, repeatedNode.makeNeighboursAndEdges = .ok topology ∧
    Requested repeatedNode topology true 1 0 ∧ ¬ Requested repeatedNode topology true 0 1 := by
  refine ⟨_, rfl, ⟨1, _, [(1, 0)], rfl, rfl, by decide⟩, ?_⟩
  rintro ⟨idx, ele, pairs, element, found, member⟩
  match idx, element with
  | 0, element =>
      cases element
      have none_ : some [] = some pairs := found
      cases none_
      cases member
  | 1, element =>
      cases element
      have one : some [(1, 0)] = some pairs := found
      cases one
      revert member
      decide

/-- The graph of elements of the same dimension leaves out couplings, and an element that repeats
a node can have an edge in one direction only. -/
theorem not_always_connectsElements :
    (¬ ∀ (mesh : Mesh) (topology : Topology) (graph_type : PartitionGraphType)
      (edistr : Distribution), mesh.Simple → mesh.makeNeighboursAndEdges = .ok topology →
        edistr.size = mesh.element.length → ConnectsElements topology edistr true
          (makeElementConnectionGraph mesh topology graph_type edistr)) ∧
    ¬ ∀ (mesh : Mesh) (topology : Topology) (edistr : Distribution),
      mesh.makeNeighboursAndEdges = .ok topology → edistr.size = mesh.element.length →
        ConnectsElements topology edistr true
          (makeElementConnectionGraph mesh topology .any_neighboring edistr) := by
  constructor
  · intro always
    have connects := always lineOnTriangle _ .same_dimension_neighboring (onOneProcess 2)
      lineOnTriangle_simple rfl rfl
    have inserted := (connects.pairs 0 1).mpr ⟨by decide, .inr ⟨rfl, .inl
      ⟨_, List.mem_cons_self, rfl, _, rfl, ⟨1, 0⟩, by decide, rfl⟩⟩⟩
    have connected := ((inserted_iff rfl rfl .same_dimension_neighboring 0 1).mp inserted).connects
      rfl
    rcases connected.2 with share | coupled
    · revert share
      unfold ShareEdge
      decide
    · cases coupled.1
  · intro always
    obtain ⟨topology, ran, there, notBack⟩ := repeatedNode_pairs
    have connects := always repeatedNode topology (onOneProcess 2) ran rfl
    have back := connects.symmetric 1 0 ((inserted_iff ran rfl .any_neighboring 1 0).mpr there)
    exact notBack ((inserted_iff ran rfl .any_neighboring 0 1).mp back)

end Partitioning

end Flow123d
