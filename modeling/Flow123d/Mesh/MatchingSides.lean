import Flow123d.Mesh.EdgePermutations

/-!
# Nodes of the sides of an edge

The topology setup puts sides on an edge whose nodes are among as many given nodes. Elements may
repeat nodes here.
-/

set_option autoImplicit false

namespace Flow123d

open Flow123d.Library

/-- The side has as many nodes as are given, and they are among these. -/
def Mesh.SideOn (mesh : Mesh) (nodes : List ℕ) (si : SideIter) : Prop :=
  mesh.elementDim si = nodes.length ∧ mesh.sideNodes si ⊆ nodes

/-- The sides of the edge are on the same nodes. -/
def Edge.Aligned (mesh : Mesh) (edge : Edge) : Prop :=
  ∃ nodes, ∀ si ∈ edge.sides, mesh.SideOn nodes si

/-- The edge of a coupling has one side, open at first, on the nodes of the lower element. -/
def Neighbour.LiesOn (mesh : Mesh) (first : Topology) (edges : List Edge) (ngh : Neighbour) :
    Prop :=
  ∃ si lower, edges[ngh.edgeIdx]? = some ⟨1, [some si]⟩ ∧ first.edgeIdx si = none ∧
    mesh.element[ngh.element]? = some lower ∧ mesh.SideOn lower.nodes si

/-- What the loop over the sides keeps of the edges and couplings. -/
structure Topology.Matching (mesh : Mesh) (topology first : Topology) : Prop where
  kept : ∀ si, (first.edgeIdx si).isSome → (topology.edgeIdx si).isSome
  aligned : ∀ edge ∈ topology.edges, edge.Aligned mesh
  couples : ∀ ngh ∈ topology.vbNeighbours, ngh.LiesOn mesh first topology.edges
  distinct : (topology.vbNeighbours.map Neighbour.edgeIdx).Nodup

/-! ## Boundary elements -/

section Boundary

variable {mesh : Mesh}

theorem intersect_element_lists_sorted (node_elements : ℕ → List ℕ)
    (node_sorted : ∀ n, (node_elements n).Pairwise (· ≤ ·)) (nodes : List ℕ) :
    (intersectElementLists node_elements nodes).Pairwise (· ≤ ·) := by
  match nodes with
  | [] => exact List.Pairwise.nil
  | [n] => exact node_sorted n
  | n0 :: n1 :: rest =>
      exact foldl_preserves (n1 :: rest)
        (fun found n => setIntersection found (node_elements n)) _
        (fun _ found => found.Pairwise (· ≤ ·)) (set_intersection_sorted (node_sorted n0))
        fun _ _ _ _ _ sorted => set_intersection_sorted sorted

/-- The order of the nodes does not matter. -/
theorem intersect_element_lists_perm (element : List Element) {nodes others : List ℕ}
    (nonempty : nodes ≠ []) (perm : nodes.Perm others) :
    intersectElementLists (createNodeElementLists element) nodes =
      intersectElementLists (createNodeElementLists element) others := by
  have sorted := create_node_element_lists_sorted element
  have filled : others ≠ [] := fun empty => nonempty (perm.trans (.of_eq empty)).eq_nil
  refine List.Perm.eq_of_pairwise (fun _ _ _ _ => Nat.le_antisymm)
    (intersect_element_lists_sorted _ sorted nodes)
    (intersect_element_lists_sorted _ sorted others) (List.perm_iff_count.mpr fun ele => ?_)
  have bounds : ∀ bound,
      bound ≤ (intersectElementLists (createNodeElementLists element) nodes).count ele ↔
        bound ≤ (intersectElementLists (createNodeElementLists element) others).count ele := by
    intro bound
    rw [le_count_intersect_element_lists _ sorted nonempty,
      le_count_intersect_element_lists _ sorted filled]
    simp only [perm.mem_iff]
  exact Nat.le_antisymm ((bounds _).mp le_rfl) ((bounds _).mpr le_rfl)

theorem Mesh.boundaryMatches_perm {bc_ele other : Element}
    (perm : bc_ele.nodes.Perm other.nodes) :
    mesh.boundaryMatches bc_ele = mesh.boundaryMatches other := by
  have dims : bc_ele.dim = other.dim := by
    have lengths := perm.length_eq
    rw [bc_ele.length_nodes, other.length_nodes] at lengths
    omega
  have matched : mesh.boundaryMatch bc_ele.nodes = mesh.boundaryMatch other.nodes := by
    funext isect
    simp only [Mesh.boundaryMatch, boundarySide, sameSides, perm.mem_iff]
  unfold Mesh.boundaryMatches Mesh.boundaryElements
  rw [dims, matched, intersect_element_lists_perm mesh.element bc_ele.nodes_ne_nil perm]

theorem Mesh.Covers.sideOn {bc_ele : Element} {si : SideIter} (covers : mesh.Covers bc_ele si) :
    mesh.SideOn bc_ele.nodes si := by
  obtain ⟨elem, lookup, dim, -, found⟩ := covers
  have same := List.find?_some found
  constructor
  · simp [Mesh.elementDim, lookup, dim]
  · intro n member
    simp only [Mesh.sideNodes, lookup, Option.elim_some] at member
    exact of_decide_eq_true (List.all_eq_true.mp same n member)

theorem Mesh.OnBoundary.aligned {edge : Edge} (onBoundary : mesh.OnBoundary edge) :
    edge.Aligned mesh := by
  obtain ⟨bc_ele, sides⟩ := onBoundary
  refine ⟨bc_ele.nodes, fun si member => Covers.sideOn (mem_boundary_matches.mp ?_)⟩
  exact sides ▸ member

end Boundary

/-! ## The loop over the sides -/

section SideLoop

variable {mesh : Mesh} {first topology after : Topology} {sideNodes : List ℕ} {isect k : ℕ}

theorem Edge.mem_sides_push {edge : Edge} {si other : SideIter}
    (member : other ∈ (edge.push si).sides) : other ∈ edge.sides ∨ other = si := by
  obtain ⟨entry, listed, same⟩ := List.mem_filterMap.mp member
  rcases List.mem_or_eq_of_mem_set listed with before | new
  · exact .inl (List.mem_filterMap.mpr ⟨entry, before, same⟩)
  · subst new
    exact .inr (Option.some.inj same).symm

theorem FindsOpen.sideOn {elem : Element} {ecs : ℕ}
    (finds : FindsOpen mesh sideNodes isect topology elem ecs)
    (dim : elem.dim = sideNodes.length) : mesh.SideOn sideNodes ⟨isect, ecs⟩ := by
  have holds := List.find?_some finds.found
  simp only [Bool.and_eq_true] at holds
  constructor
  · simp [Mesh.elementDim, finds.lookup, dim]
  · intro n member
    simp only [Mesh.sideNodes, finds.lookup, Option.elim_some] at member
    exact of_decide_eq_true (List.all_eq_true.mp holds.2 n member)

theorem Topology.isSome_connect {si other : SideIter}
    (defined : (topology.edgeIdx other).isSome) :
    ((topology.connect k si).edgeIdx other).isSome := by
  by_cases same : other = si
  · simp [Topology.connect, same]
  · simpa [Topology.connect, Function.update_of_ne same] using defined

/-- Every edge is aligned, and the edge of the loop is on the given nodes. -/
structure Topology.AlignedAt (mesh : Mesh) (nodes : List ℕ) (k : ℕ) (topology : Topology) :
    Prop where
  each : ∀ edge ∈ topology.edges, edge.Aligned mesh
  here : ∀ edge, topology.edges[k]? = some edge → ∀ si ∈ edge.sides, mesh.SideOn nodes si

theorem Topology.AlignedAt.add_edge (aligned : ∀ edge ∈ topology.edges, edge.Aligned mesh)
    (nodes : List ℕ) (allocated : ℕ) :
    (topology.addEdge allocated).AlignedAt mesh nodes topology.edges.length := by
  constructor
  · intro edge member
    rcases List.mem_append.mp member with before | new
    · exact aligned edge before
    · rw [List.mem_singleton.mp new]
      exact ⟨[], by simp [Edge.sides]⟩
  · intro edge lookup
    have new : some ⟨0, List.replicate allocated none⟩ = some edge := by
      rw [← lookup]
      exact List.getElem?_concat_length.symm
    cases new
    simp [Edge.sides]

theorem Topology.AlignedAt.connect {nodes : List ℕ} (aligned : topology.AlignedAt mesh nodes k)
    {si : SideIter} (side : mesh.SideOn nodes si) :
    (topology.connect k si).AlignedAt mesh nodes k := by
  have pushed : ∀ edge, topology.edges[k]? = some edge →
      ∀ other ∈ (edge.push si).sides, mesh.SideOn nodes other := by
    intro edge lookup other member
    rcases Edge.mem_sides_push member with before | rfl
    · exact aligned.here edge lookup other before
    · exact side
  constructor
  · intro edge member
    obtain ⟨i, lookup⟩ := List.mem_iff_getElem?.mp member
    simp only [Topology.connect, List.getElem?_modify] at lookup
    obtain ⟨old, found, rfl⟩ := Option.map_eq_some_iff.mp lookup
    by_cases last : k = i
    · subst last
      exact ⟨nodes, by simpa using pushed old found⟩
    · simpa [last] using aligned.each old (List.mem_of_getElem? found)
  · intro edge lookup
    simp only [Topology.connect, List.getElem?_modify] at lookup
    obtain ⟨old, found, rfl⟩ := Option.map_eq_some_iff.mp lookup
    simpa using pushed old found

theorem connect_inner_side_alignedAt (aligned : topology.AlignedAt mesh sideNodes k)
    (dim : ∀ elem, mesh.element[isect]? = some elem → elem.dim = sideNodes.length) :
    (connectInnerSide mesh sideNodes k topology isect).AlignedAt mesh sideNodes k := by
  rcases connect_inner_side_cases mesh sideNodes k topology isect with same | connects
  · rw [same]
    exact aligned
  · obtain ⟨elem, ecs, finds, result⟩ := connects
    rw [result]
    exact aligned.connect (finds.sideOn (dim elem finds.lookup))

theorem Neighbour.LiesOn.extended {edges later : List Edge} {ngh : Neighbour}
    (liesOn : ngh.LiesOn mesh first edges) (kept : edges <+: later) :
    ngh.LiesOn mesh first later := by
  obtain ⟨si, lower, lookup, rest⟩ := liesOn
  obtain ⟨more, rfl⟩ := kept
  refine ⟨si, lower, ?_, rest⟩
  rw [List.getElem?_append_left (List.getElem?_eq_some_iff.mp lookup).1, lookup]

theorem Topology.Matching.edgeIdx_lt (matching : topology.Matching mesh first) {ngh : Neighbour}
    (member : ngh ∈ topology.vbNeighbours) : ngh.edgeIdx < topology.edges.length := by
  obtain ⟨si, lower, lookup, -⟩ := matching.couples ngh member
  exact (List.getElem?_eq_some_iff.mp lookup).1

theorem connect_neighbour_side_matching {ngh_element_idx : ℕ} {lower : Element}
    (matching : topology.Matching mesh first)
    (lowerElement : mesh.element[ngh_element_idx]? = some lower)
    (onLower : sideNodes ⊆ lower.nodes) (length : lower.nodes.length = sideNodes.length)
    (dim : ∀ elem, mesh.element[isect]? = some elem → elem.dim = sideNodes.length) :
    (connectNeighbourSide mesh sideNodes ngh_element_idx topology isect).Matching mesh
      first := by
  have extends_ : topology.edges <+:
      (connectNeighbourSide mesh sideNodes ngh_element_idx topology isect).edges :=
    connect_neighbour_side_extends sideNodes ngh_element_idx isect List.prefix_rfl
  rcases connect_neighbour_side_cases mesh sideNodes ngh_element_idx topology isect with
    same | connects
  · rw [same]
    exact matching
  · obtain ⟨elem, ecs, finds, result⟩ := connects
    have side := finds.sideOn (dim elem finds.lookup)
    rw [result] at extends_ ⊢
    constructor
    · exact fun si defined => Topology.isSome_connect (matching.kept si defined)
    · exact ((Topology.AlignedAt.add_edge matching.aligned sideNodes 1).connect side).each
    · intro ngh member
      rcases List.mem_append.mp member with before | new
      · exact (matching.couples ngh before).extended extends_
      · rw [List.mem_singleton.mp new]
        refine ⟨⟨isect, ecs⟩, lower, ?_, ?_, lowerElement, side.1.trans length.symm,
          fun n member => onLower (side.2 member)⟩
        · simp [Topology.couple, Topology.connect, Topology.addEdge, Edge.push]
        · cases defined : first.edgeIdx ⟨isect, ecs⟩ with
          | none => rfl
          | some position =>
              have still := matching.kept ⟨isect, ecs⟩ (by rw [defined]; rfl)
              rw [open_side_undefined finds.found] at still
              cases still
    · have fresh : topology.edges.length ∉ topology.vbNeighbours.map Neighbour.edgeIdx := by
        intro used
        obtain ⟨ngh, member, same⟩ := List.mem_map.mp used
        exact (matching.edgeIdx_lt member).ne same
      change ((topology.vbNeighbours ++ [_]).map Neighbour.edgeIdx).Nodup
      rw [List.map_append]
      exact matching.distinct.append (List.nodup_singleton _) (by simpa using fresh)

theorem Topology.Matching.keep (matching : topology.Matching mesh first)
    (kept : ∀ si, (topology.edgeIdx si).isSome → (after.edgeIdx si).isSome)
    (aligned : ∀ edge ∈ after.edges, edge.Aligned mesh)
    (extends_ : topology.edges <+: after.edges)
    (same : after.vbNeighbours = topology.vbNeighbours) : after.Matching mesh first where
  kept := fun si defined => kept si (matching.kept si defined)
  aligned := aligned
  couples := fun ngh member => (matching.couples ngh (same ▸ member)).extended extends_
  distinct := same ▸ matching.distinct

theorem side_step_matching {si : SideIter} (matching : topology.Matching mesh first)
    (side : mesh.IsSide si) (ran : sideStep mesh topology si = .ok after) :
    after.Matching mesh first := by
  have extends_ := side_step_extends ran
  rcases side_step_cases ran with ⟨rfl, -⟩ | ⟨ele, found, searches, result⟩
  · exact matching
  obtain ⟨other, lookup, bound⟩ := side
  rw [searches.lookup] at lookup
  cases lookup
  have positive := mesh.bulkDim ele (List.mem_of_getElem? searches.lookup)
  have length := Element.length_side_nodes positive bound
  have dims : ∀ item ∈ found.1, ∀ elem, mesh.element[item]? = some elem →
      elem.dim = (ele.sideNodes si.elIdx).length := by
    intro item member elem element
    rw [find_lower_dim_element_eq searches.searched, ofDim, List.mem_filter, element] at member
    have sameDim := of_decide_eq_true member.2
    simp only [Option.map_some, Option.some.injEq] at sameDim
    exact sameDim.trans length.symm
  cases result with
  | coupled ngh_element_idx lower =>
      obtain ⟨listed, elem, lowerElement, dim⟩ :=
        find_lower_dim_element_some searches.searched lower
      obtain ⟨same, again, onLower⟩ := (mem_intersection mesh.element
        (ele.side_nodes_ne_nil positive bound)).mp listed
      rw [lowerElement] at again
      cases again
      refine foldl_preserves found.1 _ topology (fun _ state => state.Matching mesh first)
        matching ?_
      intro seen item remaining state split before
      refine connect_neighbour_side_matching before lowerElement onLower ?_
        (dims item (by rw [split]; simp))
      rw [elem.length_nodes, dim, length]
  | outer lower alone =>
      have own : mesh.SideOn (ele.sideNodes si.elIdx) si := by
        constructor
        · simp [Mesh.elementDim, searches.lookup, length]
        · simp [Mesh.sideNodes, searches.lookup]
      exact matching.keep (fun other defined => Topology.isSome_connect defined)
        ((Topology.AlignedAt.add_edge matching.aligned _ 1).connect own).each extends_ rfl
  | inner lower several =>
      have loop := foldl_preserves found.1
        (connectInnerSide mesh (ele.sideNodes si.elIdx) topology.edges.length)
        (topology.addEdge found.1.length)
        (fun _ (state : Topology) =>
          (∀ si, (topology.edgeIdx si).isSome → (state.edgeIdx si).isSome) ∧
          state.AlignedAt mesh (ele.sideNodes si.elIdx) topology.edges.length ∧
          state.vbNeighbours = topology.vbNeighbours)
        ⟨fun _ defined => defined, Topology.AlignedAt.add_edge matching.aligned _ _, rfl⟩
        (by
          intro seen item remaining state split before
          refine ⟨fun other defined => ?_, connect_inner_side_alignedAt before.2.1
            (dims item (by rw [split]; simp)), ?_⟩
          · rcases connect_inner_side_cases mesh (ele.sideNodes si.elIdx)
              topology.edges.length state item with same | ⟨elem, ecs, -, result⟩
            · rw [same]
              exact before.1 other defined
            · rw [result]
              exact Topology.isSome_connect (before.1 other defined)
          · rcases connect_inner_side_cases mesh (ele.sideNodes si.elIdx)
              topology.edges.length state item with same | ⟨elem, ecs, -, result⟩
            · rw [same]
              exact before.2.2
            · rw [result]
              exact before.2.2)
      exact matching.keep loop.1 loop.2.1.each extends_ loop.2.2

/-- The topology setup aligns the sides of each edge, with a coupling on at most one of them. -/
theorem make_neighbours_and_edges_matching (ran : mesh.makeNeighboursAndEdges = .ok topology) :
    ∃ middle, topology.Matching mesh middle ∧ middle.Extends topology := by
  obtain ⟨middle, boundary, sides⟩ := bind_ok ran
  obtain ⟨valid, -⟩ := boundary_loop_spec boundary
  obtain ⟨extension, -⟩ := side_loop_spec valid sides
  have start : middle.Matching mesh middle :=
    { kept := fun _ defined => defined
      aligned := fun edge member => (boundary_loop_onBoundary boundary edge member).aligned
      couples := fun ngh member => by
        rw [(boundary_loop_kept boundary).1] at member
        cases member
      distinct := by
        rw [(boundary_loop_kept boundary).1]
        exact List.nodup_nil }
  refine ⟨middle, ?_, extension⟩
  exact foldlM_preserves sides (fun _ state => state.Matching mesh middle) start
    fun _ si _ _ _ split before stepped =>
      side_step_matching before (Mesh.mem_sides.mp (by rw [split]; simp)) stepped

end SideLoop

end Flow123d
