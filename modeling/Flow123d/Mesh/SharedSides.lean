import Flow123d.Mesh.TopologySteps
import Flow123d.Mesh.SideNodes

/-!
# Edges that share a side

A side is listed by several edges only where several boundary elements of the input lie on it.
These edges list the same sides.
-/

set_option autoImplicit false

namespace Flow123d

open Flow123d.Library

/-! ## Edges that are kept -/

namespace Topology

variable {topology : Topology} {base : List Edge}

theorem prefix_add_edge (before : base <+: topology.edges) (allocated : ℕ) :
    base <+: (topology.addEdge allocated).edges :=
  before.trans (List.prefix_append _ _)

theorem prefix_connect (before : base <+: topology.edges) {k : ℕ} (later : base.length ≤ k)
    (si : SideIter) : base <+: (topology.connect k si).edges := by
  rw [List.prefix_iff_getElem?] at before ⊢
  intro i inside
  have apart : k ≠ i := by omega
  simp only [connect, List.getElem?_modify, if_neg apart]
  simpa using before i inside

/-- A side in two edges is listed twice. -/
theorem two_le_count_listed {k l : ℕ} {edge other : Edge} {si : SideIter} (apart : k ≠ l)
    (here : topology.edges[k]? = some edge) (there : topology.edges[l]? = some other)
    (first : si ∈ edge.sides) (second : si ∈ other.sides) :
    2 ≤ topology.listed.count si := by
  wlog less : k < l generalizing k l edge other
  · exact this apart.symm there here second first (by omega)
  have position := (List.getElem?_eq_some_iff.mp here).1
  have left : 0 < ((topology.edges.take l).flatMap Edge.sides).count si := by
    refine List.count_pos_iff.mpr (List.mem_flatMap.mpr ⟨edge, ?_, first⟩)
    refine List.mem_of_getElem? (i := k) ?_
    rw [List.getElem?_take, if_pos less, here]
  have right : 0 < ((topology.edges.drop l).flatMap Edge.sides).count si := by
    refine List.count_pos_iff.mpr (List.mem_flatMap.mpr ⟨other, ?_, second⟩)
    refine List.mem_of_getElem? (i := 0) ?_
    rw [List.getElem?_drop, Nat.add_zero, there]
  have split : topology.listed = (topology.edges.take l).flatMap Edge.sides ++
      (topology.edges.drop l).flatMap Edge.sides := by
    rw [← List.flatMap_append, List.take_append_drop]
    rfl
  rw [split, List.count_append]
  omega

end Topology

section SideLoop

variable {mesh : Mesh} {topology : Topology} {base : List Edge}

theorem connect_inner_side_extends (sideNodes : List ℕ) (isect : ℕ) {k : ℕ}
    (before : base <+: topology.edges) (later : base.length ≤ k) :
    base <+: (connectInnerSide mesh sideNodes k topology isect).edges := by
  rcases connect_inner_side_cases mesh sideNodes k topology isect with same | connects
  · rw [same]
    exact before
  · obtain ⟨elem, ecs, -, after⟩ := connects
    rw [after]
    exact Topology.prefix_connect before later _

theorem connect_neighbour_side_extends (sideNodes : List ℕ) (ngh_element_idx isect : ℕ)
    (before : base <+: topology.edges) :
    base <+: (connectNeighbourSide mesh sideNodes ngh_element_idx topology isect).edges := by
  rcases connect_neighbour_side_cases mesh sideNodes ngh_element_idx topology isect with
    same | connects
  · rw [same]
    exact before
  · obtain ⟨elem, ecs, -, after⟩ := connects
    rw [after]
    exact Topology.prefix_connect (Topology.prefix_add_edge before 1) before.length_le _

/-- A turn of the loop over the sides leaves the edges that are there. -/
theorem side_step_extends {after : Topology} {si : SideIter}
    (ran : sideStep mesh topology si = .ok after) : topology.edges <+: after.edges := by
  rcases side_step_cases ran with ⟨rfl, -⟩ | ⟨ele, found, searches, result⟩
  · exact List.prefix_rfl
  cases result with
  | coupled ngh_element_idx lower =>
      exact foldl_preserves found.1 _ topology
        (fun _ state => topology.edges <+: state.edges) List.prefix_rfl
        fun _ item _ _ _ before => connect_neighbour_side_extends _ _ item before
  | outer lower alone =>
      exact Topology.prefix_connect (Topology.prefix_add_edge List.prefix_rfl 1) le_rfl si
  | inner lower several =>
      exact foldl_preserves found.1 _ (topology.addEdge found.1.length)
        (fun _ state => topology.edges <+: state.edges)
        (Topology.prefix_add_edge List.prefix_rfl _)
        fun _ item _ _ _ before => connect_inner_side_extends _ item before le_rfl

theorem side_loop_prefix {after : Topology} {items : List SideIter}
    (ran : items.foldlM (sideStep mesh) topology = .ok after) :
    topology.edges <+: after.edges :=
  foldlM_preserves ran (fun _ state => topology.edges <+: state.edges) List.prefix_rfl
    fun _ _ _ _ _ _ before stepped => before.trans (side_step_extends stepped)

end SideLoop

/-! ## Edges of boundary elements -/

/-- The edge lists the sides that a boundary element finds. -/
def Mesh.OnBoundary (mesh : Mesh) (edge : Edge) : Prop :=
  ∃ bc_ele, edge.sides = mesh.boundaryMatches bc_ele

section BoundaryLoop

variable {mesh : Mesh} {topology : Topology}

/-- The last edge takes the side that the element has on the nodes. -/
theorem connect_boundary_side_last {base : List Edge} {edge : Edge} {sideNodes : List ℕ}
    {bdr_idx isect room : ℕ} (valid : topology.Valid) (edges : topology.edges = base ++ [edge])
    (space : topology.HasRoom base.length (room + 1)) :
    ∃ last, (connectBoundarySide mesh sideNodes base.length bdr_idx topology isect).edges =
      base ++ [last] ∧ last.sides =
        edge.sides ++ (mesh.boundaryMatch sideNodes isect).toList := by
  unfold connectBoundarySide Mesh.boundaryMatch
  cases lookup : mesh.element[isect]? with
  | none => exact ⟨edge, edges, by simp⟩
  | some elem =>
      cases found : boundarySide elem sideNodes with
      | none => exact ⟨edge, by simp only [found, edges], by simp [found]⟩
      | some ecs =>
          obtain ⟨before, other, split, position, bound⟩ := space
          rw [edges] at split
          obtain ⟨rfl, last⟩ := List.append_inj split position.symm
          cases last
          obtain ⟨-, sides⟩ := (valid.wellFormed edge (by rw [edges]; simp)).push ⟨isect, ecs⟩
            (by omega)
          refine ⟨edge.push ⟨isect, ecs⟩, ?_, by simp [found, sides]⟩
          simp only [found, Topology.setBoundaryIdx, Topology.connect, edges,
            Topology.modify_last]

theorem boundary_element_step_onBoundary {after : Topology} {bc_ele : Element × ℕ}
    (valid : topology.Valid) (each : ∀ edge ∈ topology.edges, mesh.OnBoundary edge)
    (ran : boundaryElementStep mesh topology bc_ele = .ok after) :
    ∀ edge ∈ after.edges, mesh.OnBoundary edge := by
  rcases boundary_element_step_cases ran with ⟨-, rfl⟩ | ⟨-, rfl⟩
  · exact each
  · let found := mesh.boundaryElements bc_ele.1
    have loop := foldl_preserves found
      (connectBoundarySide mesh bc_ele.1.nodes topology.edges.length
        topology.boundary.length)
      ((topology.addEdge found.length).addBoundary ⟨topology.edges.length, bc_ele.2⟩)
      (fun seen state => state.Valid ∧
        state.HasRoom topology.edges.length (found.length - seen.length) ∧
        ∃ last, state.edges = topology.edges ++ [last] ∧
          last.sides = seen.filterMap (mesh.boundaryMatch bc_ele.1.nodes))
      ⟨(valid.add_edge found.length).of_same rfl rfl,
        topology.hasRoom_add_edge found.length, _, rfl, by simp [Edge.sides]⟩
      (by
        intro seen item remaining state split invariant
        obtain ⟨stateValid, space, edge, edges, sides⟩ := invariant
        have room : found.length - seen.length =
            (found.length - (seen ++ [item]).length) + 1 := by
          rw [split]
          simp only [List.length_append, List.length_cons, List.length_nil]
          omega
        rw [room] at space
        obtain ⟨nextValid, nextSpace, -⟩ :=
          connect_boundary_side_spec mesh bc_ele.1.nodes stateValid
            topology.edges.length topology.boundary.length item space
        obtain ⟨last, lastEdges, lastSides⟩ :=
          connect_boundary_side_last stateValid edges space
        refine ⟨nextValid, nextSpace, last, lastEdges, ?_⟩
        rw [lastSides, sides, List.filterMap_append]
        cases matched : mesh.boundaryMatch bc_ele.1.nodes item <;> simp [matched])
    obtain ⟨-, -, last, edges, sides⟩ := loop
    intro edge member
    rcases List.mem_append.mp (edges ▸ member) with before | here
    · exact each edge before
    · rw [List.mem_singleton.mp here]
      exact ⟨bc_ele.1, sides⟩

theorem boundary_loop_onBoundary
    (ran : mesh.bcElements.zipIdx.foldlM (boundaryElementStep mesh)
      mesh.initialTopology = .ok topology) : ∀ edge ∈ topology.edges, mesh.OnBoundary edge := by
  have loop := foldlM_preserves ran
    (fun _ state => state.Valid ∧ ∀ edge ∈ state.edges, mesh.OnBoundary edge)
    ⟨Topology.valid_initial mesh, by simp [Mesh.initialTopology]⟩
    fun _ _ _ _ _ _ invariant stepped =>
      ⟨(boundary_element_step_spec invariant.1 stepped).1,
        boundary_element_step_onBoundary invariant.1 invariant.2 stepped⟩
  exact loop.2

end BoundaryLoop

namespace Mesh

variable {mesh : Mesh}

/-- No bulk element repeats a node. -/
def DistinctNodes (mesh : Mesh) : Prop := ∀ ele ∈ mesh.element, ele.nodes.Nodup

/-- Boundary elements on one side have the same nodes. -/
theorem Covers.nodes_perm (distinct : mesh.DistinctNodes) {bc_ele : Element}
    {si : SideIter} (covers : mesh.Covers bc_ele si) : (mesh.sideNodes si).Perm bc_ele.nodes := by
  obtain ⟨elem, lookup, dim, -, found⟩ := covers
  have member := List.mem_of_getElem? lookup
  have bound := List.mem_range.mp (List.mem_of_find?_eq_some found)
  have same := List.find?_some found
  simp only [Mesh.sideNodes, lookup, Option.elim_some]
  exact Element.side_nodes_perm (distinct elem member) (mesh.bulkDim elem member) bound same
    (by rw [bc_ele.length_nodes, dim])

theorem Covers.transfer (distinct : mesh.DistinctNodes) {bc_ele other : Element}
    {shared si : SideIter} (first : mesh.Covers bc_ele shared)
    (second : mesh.Covers other shared) (covers : mesh.Covers bc_ele si) :
    mesh.Covers other si := by
  have perm := (first.nodes_perm distinct).symm.trans (second.nodes_perm distinct)
  have dims : bc_ele.dim = other.dim := by
    have lengths := perm.length_eq
    rw [bc_ele.length_nodes, other.length_nodes] at lengths
    omega
  obtain ⟨elem, lookup, dim, nodes, found⟩ := covers
  refine ⟨elem, lookup, dims ▸ dim, fun n member => nodes (perm.mem_iff.mpr member), ?_⟩
  rw [← found]
  unfold boundarySide sameSides
  simp only [perm.mem_iff]

/-- Edges that share a side have been made by the loop over the boundary elements. -/
theorem onBoundary_of_shared {topology : Topology}
    (ran : mesh.makeNeighboursAndEdges = .ok topology) {k l : ℕ} (apart : k ≠ l)
    {edge other : Edge} (here : topology.edges[k]? = some edge)
    (there : topology.edges[l]? = some other) {shared : SideIter} (first : shared ∈ edge.sides)
    (second : shared ∈ other.sides) : mesh.OnBoundary edge := by
  obtain ⟨middle, boundary, sides⟩ := bind_ok ran
  obtain ⟨valid, -⟩ := boundary_loop_spec boundary
  obtain ⟨extension, -⟩ := side_loop_spec valid sides
  obtain ⟨more, split⟩ := side_loop_prefix sides
  cases defined : middle.edgeIdx shared with
  | none =>
      -- the loop over the sides lists an open side once
      have once := extension.fresh shared defined
      have twice := Topology.two_le_count_listed apart here there first second
      omega
  | some position =>
      have counts := (extension.kept shared (by rw [defined]; rfl)).2
      rcases List.mem_append.mp (split ▸ List.mem_of_getElem? here) with before | after
      · exact boundary_loop_onBoundary boundary edge before
      · have some_ := List.count_pos_iff.mpr (List.mem_flatMap.mpr ⟨edge, after, first⟩)
        rw [Topology.listed, ← split, List.flatMap_append, List.count_append] at counts
        change _ = (middle.edges.flatMap Edge.sides).count shared at counts
        omega

/-- Two edges that list a side list the same sides. -/
theorem sides_of_shared (distinct : mesh.DistinctNodes) {topology : Topology}
    (ran : mesh.makeNeighboursAndEdges = .ok topology) {k l : ℕ} {edge other : Edge}
    (here : topology.edges[k]? = some edge) (there : topology.edges[l]? = some other)
    {shared : SideIter} (first : shared ∈ edge.sides) (second : shared ∈ other.sides) :
    edge.sides ⊆ other.sides := by
  by_cases same : k = l
  · rw [same, there] at here
    cases here
    exact List.Subset.refl _
  · obtain ⟨bc_ele, sides⟩ := onBoundary_of_shared ran same here there first second
    obtain ⟨another, others⟩ := onBoundary_of_shared ran (Ne.symm same) there here second first
    rw [sides] at first ⊢
    rw [others] at second ⊢
    intro si member
    exact mem_boundary_matches.mpr (Covers.transfer distinct (mem_boundary_matches.mp first)
      (mem_boundary_matches.mp second) (mem_boundary_matches.mp member))

end Mesh

end Flow123d
