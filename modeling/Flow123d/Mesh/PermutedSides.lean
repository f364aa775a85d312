import Flow123d.Mesh.MatchingSides

/-!
# Sides in the order of their references

The permutations lead from the nodes of each side to those of the first side of its edge, or of
the lower element of its coupling, exactly where these sides do not repeat nodes.
-/

set_option autoImplicit false

namespace Flow123d

open Flow123d.Library

/-- The nodes of a side in the order of its permutation. -/
def Mesh.permutedSideNodes (mesh : Mesh) (permutation_idx : SideIter → Option ℕ)
    (si : SideIter) : Option (List ℕ) :=
  (permutation_idx si).map fun pid => permutedNodes (mesh.elementDim si) pid (mesh.sideNodes si)

/-- The edge of this number is not one of a coupling. -/
def Topology.Inner (topology : Topology) (k : ℕ) : Prop :=
  ∀ nb ∈ topology.vbNeighbours, nb.edgeIdx ≠ k

/-- The sides of an edge have the nodes of its first side, and that of a coupling has the nodes
of the lower element, in this order. -/
structure Mesh.PermutesSides (mesh : Mesh) (topology : Topology)
    (permutation_idx : SideIter → Option ℕ) : Prop where
  edges : ∀ (k : ℕ) edge, topology.edges[k]? = some edge → topology.Inner k →
    ∀ side0, edge.sides.head? = some side0 → ∀ si ∈ edge.sides,
      mesh.permutedSideNodes permutation_idx si = some (mesh.sideNodes side0)
  couplings : ∀ nb ∈ topology.vbNeighbours, ∃ edge side element,
    topology.edges[nb.edgeIdx]? = some edge ∧ edge.sides.head? = some side ∧
      mesh.element[nb.element]? = some element ∧
        mesh.permutedSideNodes permutation_idx side = some element.nodes

/-- Every edge has a side, and the sides that are compared do not repeat nodes. -/
structure Mesh.DistinctSides (mesh : Mesh) (topology : Topology) : Prop where
  filled : ∀ edge ∈ topology.edges, edge.sides ≠ []
  edges : ∀ edge ∈ topology.edges, 1 < edge.nSides →
    ∀ si ∈ edge.sides, (mesh.sideNodes si).Nodup
  couplings : ∀ nb ∈ topology.vbNeighbours, ∀ edge, topology.edges[nb.edgeIdx]? = some edge →
    ∀ si ∈ edge.sides, (mesh.sideNodes si).Nodup

section Sides

variable {mesh : Mesh} {si : SideIter} {nodes : List ℕ}

theorem Mesh.IsSide.length_side_nodes (side : mesh.IsSide si) :
    (mesh.sideNodes si).length = mesh.elementDim si ∧ 0 < mesh.elementDim si ∧
      mesh.elementDim si ≤ 3 := by
  obtain ⟨ele, lookup, bound⟩ := side
  have positive := mesh.bulkDim ele (List.mem_of_getElem? lookup)
  simp only [Mesh.sideNodes, Mesh.elementDim, lookup, Option.elim_some]
  exact ⟨Element.length_side_nodes positive bound, positive, ele.dimLe⟩

theorem Mesh.SideOn.perm (on : mesh.SideOn nodes si) (side : mesh.IsSide si)
    (distinct : (mesh.sideNodes si).Nodup) : (mesh.sideNodes si).Perm nodes :=
  (distinct.subperm on.2).perm_of_length_le (side.length_side_nodes.1.trans on.1).ge

theorem permutedNodes_first {dim : ℕ} (positive : 0 < dim) (bound : dim ≤ 3)
    (length : nodes.length = dim) : permutedNodes dim 0 nodes = nodes := by
  have lookup : (RefElement.sidePermutations dim)[0]? = some (List.range dim) := by
    interval_cases dim <;> rfl
  rw [permutedNodes_of_lookup lookup]
  refine List.ext_getElem (by simp [length]) fun i first second => ?_
  rw [List.getElem_map, List.getElem_range, List.getD_eq_getElem _ _ second]

theorem Mesh.permutedSideNodes_update_self (permutation_idx : SideIter → Option ℕ) (pid : ℕ) :
    mesh.permutedSideNodes (Function.update permutation_idx si (some pid)) si =
      some (permutedNodes (mesh.elementDim si) pid (mesh.sideNodes si)) := by
  rw [permutedSideNodes, Function.update_self, Option.map_some]

theorem Mesh.permutedSideNodes_update_of_ne (permutation_idx : SideIter → Option ℕ)
    {other : SideIter} (apart : other ≠ si) (index : Option ℕ) :
    mesh.permutedSideNodes (Function.update permutation_idx si index) other =
      mesh.permutedSideNodes permutation_idx other := by
  rw [permutedSideNodes, Function.update_of_ne apart, permutedSideNodes]

/-- A permutation that leads to some nodes leads to all nodes of the side. -/
theorem Mesh.perm_of_permutedSideNodes {permutation_idx : SideIter → Option ℕ}
    (side : mesh.IsSide si) (nonempty : nodes ≠ [])
    (permuted : mesh.permutedSideNodes permutation_idx si = some nodes) :
    ∃ pid values, permutation_idx si = some pid ∧
      (RefElement.sidePermutations (mesh.elementDim si))[pid]? = some values ∧
      nodes = values.map (fun i => (mesh.sideNodes si).getD i 0) ∧
      nodes.Perm (mesh.sideNodes si) := by
  obtain ⟨pid, index, rfl⟩ := Option.map_eq_some_iff.mp permuted
  cases lookup : (RefElement.sidePermutations (mesh.elementDim si))[pid]? with
  | none =>
      have empty : permutedNodes (mesh.elementDim si) pid (mesh.sideNodes si) = [] := by
        rw [permutedNodes, List.getD_eq_getElem?_getD, lookup]
        rfl
      exact absurd empty nonempty
  | some values =>
      exact ⟨pid, values, index, lookup, permutedNodes_of_lookup lookup _,
        permutedNodes_perm lookup side.length_side_nodes.1⟩

end Sides

/-! ## One edge -/

section Edges

variable {mesh : Mesh} {side0 : SideIter} {others : List SideIter}
  {permutation_idx : SideIter → Option ℕ}

/-- The other sides can be compared with the first one. -/
structure Mesh.Comparable (mesh : Mesh) (side0 si : SideIter) : Prop where
  side : mesh.IsSide si
  dim : mesh.elementDim si = mesh.elementDim side0
  distinct : (mesh.sideNodes side0).Nodup
  perm : (mesh.sideNodes si).Perm (mesh.sideNodes side0)

theorem Mesh.Comparable.exists_permuteSide {si : SideIter} (comparable : mesh.Comparable side0 si)
    {state : List (Option ℕ) × (SideIter → Option ℕ)}
    (room : state.1.length = mesh.elementDim side0) :
    ∃ permutation pid, permutation.length = mesh.elementDim side0 ∧
      mesh.permuteSide side0 state si =
        some (permutation, Function.update state.2 si (some pid)) ∧
      permutedNodes (mesh.elementDim si) pid (mesh.sideNodes si) = mesh.sideNodes side0 := by
  obtain ⟨length, positive, bound⟩ := comparable.side.length_side_nodes
  have reference : (mesh.sideNodes side0).length = mesh.elementDim side0 := by
    rw [← comparable.perm.length_eq, length, comparable.dim]
  rw [comparable.dim] at positive bound
  obtain ⟨pid, found, nodes⟩ :=
    exists_permutation positive bound comparable.distinct comparable.perm reference room
  refine ⟨fillPermutation (nodeNumbers (mesh.sideNodes side0)) (mesh.sideNodes si)
    (mesh.elementDim side0) state.1, pid, ?_, ?_, comparable.dim ▸ nodes⟩
  · exact (length_fillPositions _ _ _).trans room
  · rw [Mesh.permuteSide, reference, found]
    rfl

/-- The sides so far are permuted to the first one, and the others are as before. -/
structure Mesh.PermutedTo (mesh : Mesh) (side0 : SideIter) (before : SideIter → Option ℕ)
    (done : List SideIter) (state : List (Option ℕ) × (SideIter → Option ℕ)) : Prop where
  room : state.1.length = mesh.elementDim side0
  nodes : ∀ si ∈ side0 :: done,
    mesh.permutedSideNodes state.2 si = some (mesh.sideNodes side0)
  frame : ∀ si, si ∉ side0 :: done → state.2 si = before si

theorem Mesh.PermutedTo.initial (start : mesh.IsSide side0) :
    mesh.PermutedTo side0 permutation_idx []
      (List.replicate (mesh.sideNodes side0).length none,
        Function.update permutation_idx side0 (some 0)) := by
  obtain ⟨length, positive, bound⟩ := start.length_side_nodes
  refine ⟨by simpa using length, fun si listed => ?_, fun si absent => ?_⟩
  · rw [List.mem_singleton.mp listed]
    exact (Mesh.permutedSideNodes_update_self permutation_idx 0).trans
      (congrArg some (permutedNodes_first positive bound length))
  · exact Function.update_of_ne (fun same => absent (by simp [same])) _ _

theorem Mesh.PermutedTo.step {done : List SideIter}
    {state : List (Option ℕ) × (SideIter → Option ℕ)} {si : SideIter}
    (permuted : mesh.PermutedTo side0 permutation_idx done state)
    (comparable : mesh.Comparable side0 si) :
    ∃ next, mesh.permuteSide side0 state si = some next ∧
      mesh.PermutedTo side0 permutation_idx (done ++ [si]) next := by
  obtain ⟨permutation, pid, filled, stepped, nodes⟩ := comparable.exists_permuteSide permuted.room
  refine ⟨_, stepped, filled, fun other listed => ?_, fun other absent => ?_⟩
  · by_cases same : other = si
    · subst same
      exact (Mesh.permutedSideNodes_update_self state.2 pid).trans (congrArg some nodes)
    · have early : other ∈ side0 :: done := by simpa [same] using listed
      exact (Mesh.permutedSideNodes_update_of_ne state.2 same _).trans
        (permuted.nodes other early)
  · have apart : other ≠ si := fun same => absent (by simp [same])
    exact (Function.update_of_ne apart _ _).trans
      (permuted.frame other fun early => absent (List.mem_append_left [si] early))

/-- What the permutations of one edge change. -/
theorem Mesh.exists_permuteEdge (permutation_idx : SideIter → Option ℕ) {edge : Edge}
    (valid : edge.WellFormed)
    (split : edge.sides = side0 :: others) (start : mesh.IsSide side0)
    (comparable : ∀ si ∈ others, mesh.Comparable side0 si) :
    ∃ after, mesh.permuteEdge permutation_idx edge = some after ∧
      (∀ si ∈ edge.sides, mesh.permutedSideNodes after si = some (mesh.sideNodes side0)) ∧
      ∀ si, si ∉ edge.sides → after si = permutation_idx si := by
  obtain ⟨result, ran, permuted⟩ :=
    exists_foldlM (mesh.PermutedTo side0 permutation_idx) others
      (fun _ _ _ member before => before.step (comparable _ member))
      (Mesh.PermutedTo.initial start)
  refine ⟨result.2, ?_, split ▸ permuted.nodes, split ▸ permuted.frame⟩
  rw [Mesh.permuteEdge, valid.sideList, split]
  exact Option.bind_eq_some_iff.mpr ⟨side0 :: others, rfl, by
    simp only [ran]
    rfl⟩

end Edges

/-! ## All edges -/

section Loops

variable {mesh : Mesh} {topology : Topology}

theorem Edge.WellFormed.eq_singleton {edge : Edge} (valid : edge.WellFormed)
    (few : ¬ 1 < edge.nSides) {si : SideIter} (member : si ∈ edge.sides) : edge.sides = [si] := by
  rw [valid.countUsed] at few
  cases split : edge.sides with
  | nil => rw [split] at member; cases member
  | cons side0 others =>
      cases others with
      | nil =>
          rw [split] at member
          rw [List.mem_singleton.mp member]
      | cons side1 others =>
          rw [split] at few
          simp at few

/-- Edges that share a side have the same first side. -/
theorem Mesh.head_of_shared (ran : mesh.makeNeighboursAndEdges = .ok topology)
    (distinct : mesh.DistinctSides topology) {edge other : Edge} (here : edge ∈ topology.edges)
    (there : other ∈ topology.edges) {si : SideIter} (first : si ∈ edge.sides)
    (second : si ∈ other.sides) : edge.sides.head? = other.sides.head? := by
  obtain ⟨k, atEdge⟩ := List.mem_iff_getElem?.mp here
  obtain ⟨l, atOther⟩ := List.mem_iff_getElem?.mp there
  by_cases same : k = l
  · rw [same, atOther] at atEdge
    cases atEdge
    rfl
  obtain ⟨bc_ele, sides⟩ := Mesh.onBoundary_of_shared ran same atEdge atOther first second
  obtain ⟨another, others⟩ :=
    Mesh.onBoundary_of_shared ran (Ne.symm same) atOther atEdge second first
  have side := Mesh.isSide_of_listed ran here first
  have equal : (mesh.sideNodes si).Nodup → edge.sides.head? = other.sides.head? := by
    intro nodup
    have onFirst := (Mesh.mem_boundary_matches.mp (sides ▸ first)).sideOn.perm side nodup
    have onSecond := (Mesh.mem_boundary_matches.mp (others ▸ second)).sideOn.perm side nodup
    rw [sides, others, Mesh.boundaryMatches_perm (onFirst.symm.trans onSecond)]
  by_cases several : 1 < edge.nSides
  · exact equal (distinct.edges edge here several si first)
  by_cases moreSides : 1 < other.nSides
  · exact equal (distinct.edges other there moreSides si second)
  · have valid := (Mesh.valid_topology ran).wellFormed
    rw [(valid edge here).eq_singleton several first,
      (valid other there).eq_singleton moreSides second]

theorem Mesh.comparable (ran : mesh.makeNeighboursAndEdges = .ok topology)
    (distinct : mesh.DistinctSides topology) {edge : Edge} (here : edge ∈ topology.edges)
    {side0 : SideIter} {others : List SideIter} (split : edge.sides = side0 :: others) :
    ∀ si ∈ others, mesh.Comparable side0 si := by
  intro si member
  obtain ⟨middle, matching, -⟩ := make_neighbours_and_edges_matching ran
  obtain ⟨nodes, on⟩ := matching.aligned edge here
  have several : 1 < edge.nSides := by
    rw [((Mesh.valid_topology ran).wellFormed edge here).countUsed, split, List.length_cons]
    have positive := List.length_pos_of_mem member
    omega
  have isFirst : side0 ∈ edge.sides := by rw [split]; exact List.mem_cons_self
  have isOther : si ∈ edge.sides := by rw [split]; exact List.mem_cons_of_mem _ member
  have nodup := distinct.edges edge here several
  have side := Mesh.isSide_of_listed ran here isOther
  have permFirst := (on side0 isFirst).perm (Mesh.isSide_of_listed ran here isFirst)
    (nodup side0 isFirst)
  have permOther := (on si isOther).perm side (nodup si isOther)
  exact ⟨side, (on si isOther).1.trans (on side0 isFirst).1.symm, nodup side0 isFirst,
    permOther.trans permFirst.symm⟩

/-- The edges so far are permuted to their first sides. -/
def Mesh.EdgesPermuted (mesh : Mesh) (topology : Topology) (done : List Edge)
    (permutation_idx : SideIter → Option ℕ) : Prop :=
  ∀ edge ∈ done, edge ∈ topology.edges ∧ ∀ side0, edge.sides.head? = some side0 →
    ∀ si ∈ edge.sides, mesh.permutedSideNodes permutation_idx si = some (mesh.sideNodes side0)

theorem Mesh.EdgesPermuted.step (ran : mesh.makeNeighboursAndEdges = .ok topology)
    (distinct : mesh.DistinctSides topology) {done : List Edge} {edge : Edge}
    (here : edge ∈ topology.edges) {permutation_idx : SideIter → Option ℕ}
    (permuted : mesh.EdgesPermuted topology done permutation_idx) :
    ∃ after, mesh.permuteEdge permutation_idx edge = some after ∧
      mesh.EdgesPermuted topology (done ++ [edge]) after := by
  obtain ⟨side0, others, split⟩ := List.exists_cons_of_ne_nil (distinct.filled edge here)
  have isFirst : side0 ∈ edge.sides := by rw [split]; exact List.mem_cons_self
  obtain ⟨after, stepped, inside, outside⟩ :=
    Mesh.exists_permuteEdge permutation_idx
      ((Mesh.valid_topology ran).wellFormed edge here) split
      (Mesh.isSide_of_listed ran here isFirst) (Mesh.comparable ran distinct here split)
  have head : edge.sides.head? = some side0 := by rw [split]; rfl
  refine ⟨after, stepped, fun other listed => ?_⟩
  rcases List.mem_append.mp listed with before | now
  · obtain ⟨there, nodes⟩ := permuted other before
    refine ⟨there, fun reference first si member => ?_⟩
    by_cases shared : si ∈ edge.sides
    · -- the edges that share the side agree on the first one
      have same := Mesh.head_of_shared ran distinct here there shared member
      rw [head, first] at same
      cases same
      exact inside si shared
    · have unchanged : mesh.permutedSideNodes after si =
          mesh.permutedSideNodes permutation_idx si := by
        rw [permutedSideNodes, outside si shared, permutedSideNodes]
      exact unchanged.trans (nodes reference first si member)
  · rw [List.mem_singleton.mp now]
    refine ⟨here, fun reference first si member => ?_⟩
    rw [head] at first
    cases first
    exact inside si member

/-- The couplings so far are permuted to their lower elements, and so are the other edges. -/
structure Mesh.CouplingsPermuted (mesh : Mesh) (topology : Topology) (done : List Neighbour)
    (permutation_idx : SideIter → Option ℕ) : Prop where
  edges : ∀ (k : ℕ) edge, topology.edges[k]? = some edge → topology.Inner k →
    ∀ side0, edge.sides.head? = some side0 → ∀ si ∈ edge.sides,
      mesh.permutedSideNodes permutation_idx si = some (mesh.sideNodes side0)
  couplings : ∀ nb ∈ done, nb ∈ topology.vbNeighbours ∧ ∃ edge side element,
    topology.edges[nb.edgeIdx]? = some edge ∧ edge.sides.head? = some side ∧
      mesh.element[nb.element]? = some element ∧
        mesh.permutedSideNodes permutation_idx side = some element.nodes

theorem Mesh.exists_permuteNeighbour {nb : Neighbour} {si : SideIter} {lower : Element}
    (lookup : topology.edges[nb.edgeIdx]? = some ⟨1, [some si]⟩)
    (lowerElement : mesh.element[nb.element]? = some lower) (side : mesh.IsSide si)
    (on : mesh.SideOn lower.nodes si) (distinct : (mesh.sideNodes si).Nodup)
    (permutation_idx : SideIter → Option ℕ) :
    ∃ pid, mesh.permuteNeighbour topology permutation_idx nb =
        some (Function.update permutation_idx si (some pid)) ∧
      permutedNodes (mesh.elementDim si) pid (mesh.sideNodes si) = lower.nodes := by
  obtain ⟨length, positive, bound⟩ := side.length_side_nodes
  have perm := on.perm side distinct
  have room : (List.replicate lower.nNodes (none : Option ℕ)).length = mesh.elementDim si := by
    rw [List.length_replicate, on.1, lower.length_nodes, Element.nNodes]
  obtain ⟨pid, found, nodes⟩ := exists_permutation positive bound (perm.nodup_iff.mp distinct)
    perm on.1.symm room
  refine ⟨pid, ?_, nodes⟩
  have sides : Edge.sideList ⟨1, [some si]⟩ = some [si] := rfl
  simp only [Mesh.permuteNeighbour, lookup, sides, lowerElement, length, found,
    Option.bind_eq_bind, Option.bind_some, List.head?_cons]
  rfl

theorem Mesh.CouplingsPermuted.step (ran : mesh.makeNeighboursAndEdges = .ok topology)
    (distinct : mesh.DistinctSides topology) {done : List Neighbour} {nb : Neighbour}
    (here : nb ∈ topology.vbNeighbours) {permutation_idx : SideIter → Option ℕ}
    (permuted : mesh.CouplingsPermuted topology done permutation_idx) :
    ∃ after, mesh.permuteNeighbour topology permutation_idx nb = some after ∧
      mesh.CouplingsPermuted topology (done ++ [nb]) after := by
  obtain ⟨middle, matching, extension⟩ := make_neighbours_and_edges_matching ran
  obtain ⟨si, lower, lookup, open_, lowerElement, on⟩ := matching.couples nb here
  have listed : si ∈ Edge.sides ⟨1, [some si]⟩ := List.mem_singleton.mpr rfl
  have side := Mesh.isSide_of_listed ran (List.mem_of_getElem? lookup) listed
  obtain ⟨pid, stepped, nodes⟩ := Mesh.exists_permuteNeighbour lookup lowerElement side on
    (distinct.couplings nb here _ lookup si listed) permutation_idx
  -- the side of a coupling is on no other edge
  have alone : ∀ (l : ℕ) other, topology.edges[l]? = some other → nb.edgeIdx ≠ l →
      ∀ item ∈ other.sides, item ≠ si := by
    rintro l other found apart item member rfl
    have once := extension.fresh item open_
    have twice := Topology.two_le_count_listed apart lookup found listed member
    omega
  refine ⟨_, stepped, fun k edge found inner side0 first item member => ?_, ?_⟩
  · rw [Mesh.permutedSideNodes_update_of_ne _ (alone k edge found (inner nb here) item member)]
    exact permuted.edges k edge found inner side0 first item member
  · intro other member
    by_cases same : other.edgeIdx = nb.edgeIdx
    · have equal : other ∈ topology.vbNeighbours → other = nb := fun there =>
        List.inj_on_of_nodup_map matching.distinct there here same
      have there : other ∈ topology.vbNeighbours := by
        rcases List.mem_append.mp member with before | now
        · exact (permuted.couplings other before).1
        · rw [List.mem_singleton.mp now]
          exact here
      rw [equal there]
      exact ⟨here, _, si, lower, lookup, rfl, lowerElement,
        (Mesh.permutedSideNodes_update_self _ pid).trans (congrArg some nodes)⟩
    · have before : other ∈ done := by
        rcases List.mem_append.mp member with before | now
        · exact before
        · exact absurd (congrArg Neighbour.edgeIdx (List.mem_singleton.mp now)) same
      obtain ⟨there, edge, first, element, found, head, lowerOther, own⟩ :=
        permuted.couplings other before
      refine ⟨there, edge, first, element, found, head, lowerOther, ?_⟩
      rw [Mesh.permutedSideNodes_update_of_ne _
        (alone _ edge found (Ne.symm same) first (List.mem_of_head? head))]
      exact own

/-- Sides that do not repeat nodes are permuted to their references. -/
theorem Mesh.exists_permutesSides (ran : mesh.makeNeighboursAndEdges = .ok topology)
    (distinct : mesh.DistinctSides topology) :
    ∃ permutation_idx, mesh.makeEdgePermutations topology = some permutation_idx ∧
      mesh.PermutesSides topology permutation_idx := by
  have initial : mesh.EdgesPermuted topology [] fun _ => none := by
    intro edge member
    cases member
  obtain ⟨middle, edgesRan, edges⟩ := exists_foldlM (mesh.EdgesPermuted topology) topology.edges
    (fun _ _ _ member before => before.step ran distinct member) initial
  have start : mesh.CouplingsPermuted topology [] middle :=
    ⟨fun k edge found _ => (edges edge (List.mem_of_getElem? found)).2,
      fun nb member => by cases member⟩
  obtain ⟨permutation_idx, couplingsRan, permuted⟩ :=
    exists_foldlM (mesh.CouplingsPermuted topology) topology.vbNeighbours
      (fun _ _ _ member before => before.step ran distinct member) start
  refine ⟨permutation_idx, ?_, permuted.edges, fun nb member => (permuted.couplings nb member).2⟩
  rw [Mesh.makeEdgePermutations, edgesRan]
  exact couplingsRan

theorem Mesh.exists_second_permuted {edge : Edge} {side0 si : SideIter} {others : List SideIter}
    (valid : edge.WellFormed) (split : edge.sides = side0 :: si :: others)
    {before after : SideIter → Option ℕ} (stepped : mesh.permuteEdge before edge = some after) :
    ∃ pid, RefElement.permutationIndex (mesh.elementDim side0)
      (fillPermutation (nodeNumbers (mesh.sideNodes side0)) (mesh.sideNodes si)
        (mesh.sideNodes side0).length
        (List.replicate (mesh.sideNodes side0).length none)) = some pid := by
  rw [Mesh.permuteEdge, valid.sideList, split] at stepped
  obtain ⟨sides, listed, stepped⟩ := Option.bind_eq_some_iff.mp stepped
  cases listed
  obtain ⟨result, loop, -⟩ := Option.bind_eq_some_iff.mp stepped
  rw [List.foldlM_cons] at loop
  obtain ⟨next, second, -⟩ := Option.bind_eq_some_iff.mp loop
  obtain ⟨pid, found, -⟩ := Option.bind_eq_some_iff.mp second
  exact ⟨pid, found⟩

theorem Mesh.exists_neighbour_permuted {nb : Neighbour} {si : SideIter}
    (lookup : topology.edges[nb.edgeIdx]? = some ⟨1, [some si]⟩)
    {before after : SideIter → Option ℕ}
    (stepped : mesh.permuteNeighbour topology before nb = some after) :
    ∃ lower pid, mesh.element[nb.element]? = some lower ∧
      RefElement.permutationIndex (mesh.elementDim si)
        (fillPermutation (nodeNumbers lower.nodes) (mesh.sideNodes si)
          (mesh.sideNodes si).length (List.replicate lower.nNodes none)) = some pid := by
  obtain ⟨edg, found, stepped⟩ := Option.bind_eq_some_iff.mp stepped
  rw [lookup] at found
  cases found
  obtain ⟨sides, listed, stepped⟩ := Option.bind_eq_some_iff.mp stepped
  cases listed
  obtain ⟨side, head, stepped⟩ := Option.bind_eq_some_iff.mp stepped
  cases head
  obtain ⟨lower, lowerElement, stepped⟩ := Option.bind_eq_some_iff.mp stepped
  obtain ⟨pid, found, -⟩ := Option.bind_eq_some_iff.mp stepped
  exact ⟨lower, pid, lowerElement, found⟩

/-- Sides that are permuted to their references do not repeat nodes. -/
theorem Mesh.distinctSides_of_permutes (ran : mesh.makeNeighboursAndEdges = .ok topology)
    {permutation_idx : SideIter → Option ℕ}
    (made : mesh.makeEdgePermutations topology = some permutation_idx)
    (permutes : mesh.PermutesSides topology permutation_idx) : mesh.DistinctSides topology := by
  have valid := (Mesh.valid_topology ran).wellFormed
  obtain ⟨start, matching, -⟩ := make_neighbours_and_edges_matching ran
  obtain ⟨middle, edgesRan, couplingsRan⟩ := Option.bind_eq_some_iff.mp made
  constructor
  · intro edge member empty
    obtain ⟨before, after, stepped⟩ := exists_step_of_foldlM edgesRan member
    rw [Mesh.permuteEdge, (valid edge member).sideList, empty] at stepped
    cases stepped
  · intro edge member several si listed
    obtain ⟨k, lookup⟩ := List.mem_iff_getElem?.mp member
    obtain ⟨before, after, stepped⟩ := exists_step_of_foldlM edgesRan member
    have inner : topology.Inner k := by
      rintro nb coupled rfl
      obtain ⟨only, lower, found, -⟩ := matching.couples nb coupled
      rw [lookup] at found
      cases found
      exact absurd several (lt_irrefl 1)
    have count := (valid edge member).countUsed
    obtain ⟨side0, side1, others, split⟩ : ∃ side0 side1 others,
        edge.sides = side0 :: side1 :: others := by
      match sides : edge.sides with
      | [] => rw [sides] at count; simp at count; omega
      | [side0] => rw [sides] at count; simp at count; omega
      | side0 :: side1 :: others => exact ⟨side0, side1, others, rfl⟩
    have head : edge.sides.head? = some side0 := by rw [split]; rfl
    have isFirst : side0 ∈ edge.sides := by rw [split]; simp
    have isSecond : side1 ∈ edge.sides := by rw [split]; simp
    obtain ⟨length0, positive, -⟩ :=
      (Mesh.isSide_of_listed ran member isFirst).length_side_nodes
    have nonempty : mesh.sideNodes side0 ≠ [] := List.length_pos_iff.mp (length0 ▸ positive)
    have perm : ∀ item ∈ edge.sides, (mesh.sideNodes side0).Perm (mesh.sideNodes item) := by
      intro item isSide
      obtain ⟨-, -, -, -, -, perm⟩ := Mesh.perm_of_permutedSideNodes
        (Mesh.isSide_of_listed ran member isSide) nonempty
        (permutes.edges k edge lookup inner side0 head item isSide)
      exact perm
    obtain ⟨pid, found⟩ := Mesh.exists_second_permuted (valid edge member) split stepped
    rw [length0] at found
    have nodup := nodup_of_permutationIndex ((perm side1 isSecond).length_eq.symm.trans length0)
      found
    exact (perm si listed).nodup_iff.mp ((perm side1 isSecond).nodup_iff.mpr nodup)
  · intro nb coupled edge lookup si listed
    obtain ⟨only, lower, found, -, lowerElement, on⟩ := matching.couples nb coupled
    rw [lookup] at found
    cases found
    have same : si = only := List.mem_singleton.mp listed
    subst same
    obtain ⟨before, after, stepped⟩ := exists_step_of_foldlM couplingsRan coupled
    obtain ⟨other, pid, again, index⟩ := Mesh.exists_neighbour_permuted lookup stepped
    rw [lowerElement] at again
    cases again
    obtain ⟨length, -, -⟩ :=
      (Mesh.isSide_of_listed ran (List.mem_of_getElem? lookup) listed).length_side_nodes
    have size : lower.nNodes = mesh.elementDim si := by
      rw [on.1, lower.length_nodes, Element.nNodes]
    rw [length, size] at index
    exact nodup_of_permutationIndex length index

end Loops

end Flow123d
