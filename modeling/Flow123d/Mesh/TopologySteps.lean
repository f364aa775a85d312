import Flow123d.Mesh.TopologyProperties

/-!
# Steps of the topology setup

What one turn of each loop of `make_neighbours_and_edges` can do.
-/

set_option autoImplicit false

namespace Flow123d

open Flow123d.Library

/-- The side of an element is connected to the edge of a boundary. -/
structure ConnectsBoundary (mesh : Mesh) (sideNodes : List ℕ) (k b isect : ℕ)
    (topology after : Topology) (elem : Element) (ecs : ℕ) : Prop where
  lookup : mesh.element[isect]? = some elem
  found : boundarySide elem sideNodes = some ecs
  after : after = (topology.connect k ⟨isect, ecs⟩).setBoundaryIdx elem ⟨isect, ecs⟩ b

/-- An open side of an element has the given nodes. -/
structure FindsOpen (mesh : Mesh) (sideNodes : List ℕ) (isect : ℕ) (topology : Topology)
    (elem : Element) (ecs : ℕ) : Prop where
  lookup : mesh.element[isect]? = some elem
  found : openSide topology isect elem sideNodes = some ecs

/-- The side has no edge yet, and these elements are on its nodes. -/
structure Searches (mesh : Mesh) (topology : Topology) (si : SideIter) (ele : Element)
    (found : List ℕ × Option ℕ) : Prop where
  lookup : mesh.element[si.element]? = some ele
  undefined : topology.edgeIdx si = none
  searched : findLowerDimElement mesh.element
    (intersectElementLists (createNodeElementLists mesh.element) (ele.sideNodes si.elIdx))
    ele.dim = .ok found

/-- What the loop over the sides makes of the elements on a side. -/
inductive SideResult (mesh : Mesh) (topology : Topology) (si : SideIter) (ele : Element)
    (found : List ℕ × Option ℕ) : Topology → Prop where
  | coupled (ngh_element_idx : ℕ) (lower : found.2 = some ngh_element_idx) :
      SideResult mesh topology si ele found (found.1.foldl
        (connectNeighbourSide mesh (ele.sideNodes si.elIdx) ngh_element_idx) topology)
  | outer (lower : found.2 = none) (alone : found.1.length = 1) :
      SideResult mesh topology si ele found (makeOuterEdge topology ele si)
  | inner (lower : found.2 = none) (several : found.1.length ≠ 1) :
      SideResult mesh topology si ele found (found.1.foldl
        (connectInnerSide mesh (ele.sideNodes si.elIdx) topology.edges.length)
        (topology.addEdge found.1.length))

section Steps

variable {mesh : Mesh} {topology after : Topology} {sideNodes : List ℕ} {k b isect : ℕ}
  {elem : Element} {ecs : ℕ}

theorem ConnectsBoundary.isSide
    (connects : ConnectsBoundary mesh sideNodes k b isect topology after elem ecs) :
    mesh.IsSide ⟨isect, ecs⟩ :=
  ⟨elem, connects.lookup, List.mem_range.mp (List.mem_of_find?_eq_some connects.found)⟩

theorem FindsOpen.isSide (finds : FindsOpen mesh sideNodes isect topology elem ecs) :
    mesh.IsSide ⟨isect, ecs⟩ :=
  ⟨elem, finds.lookup, List.mem_range.mp (List.mem_of_find?_eq_some finds.found)⟩

theorem connect_boundary_side_cases (mesh : Mesh) (sideNodes : List ℕ) (k b : ℕ)
    (topology : Topology) (isect : ℕ) :
    connectBoundarySide mesh sideNodes k b topology isect = topology ∨
      ∃ elem ecs, ConnectsBoundary mesh sideNodes k b isect topology
        (connectBoundarySide mesh sideNodes k b topology isect) elem ecs := by
  unfold connectBoundarySide
  cases lookup : mesh.element[isect]? with
  | none => exact .inl rfl
  | some elem =>
      cases found : boundarySide elem sideNodes with
      | none =>
          left
          simp only [found]
      | some ecs =>
          right
          exact ⟨elem, ecs, lookup, found, by simp only [found]⟩

theorem connect_inner_side_cases (mesh : Mesh) (sideNodes : List ℕ) (k : ℕ)
    (topology : Topology) (isect : ℕ) :
    connectInnerSide mesh sideNodes k topology isect = topology ∨
      ∃ elem ecs, FindsOpen mesh sideNodes isect topology elem ecs ∧
        connectInnerSide mesh sideNodes k topology isect =
          topology.connect k ⟨isect, ecs⟩ := by
  unfold connectInnerSide
  cases lookup : mesh.element[isect]? with
  | none => exact .inl rfl
  | some elem =>
      cases found : openSide topology isect elem sideNodes with
      | none =>
          left
          simp only [found]
      | some ecs =>
          right
          exact ⟨elem, ecs, ⟨lookup, found⟩, by simp only [found]⟩

/-- The edge of a coupling is new, and has one side. -/
def Topology.couple (topology : Topology) (si : SideIter) (ngh_element_idx : ℕ) : Topology :=
  let connected := (topology.addEdge 1).connect topology.edges.length si
  { connected with
    vbNeighbours := connected.vbNeighbours ++ [⟨topology.edges.length, ngh_element_idx, 1⟩] }

theorem connect_neighbour_side_cases (mesh : Mesh) (sideNodes : List ℕ) (ngh_element_idx : ℕ)
    (topology : Topology) (isect : ℕ) :
    connectNeighbourSide mesh sideNodes ngh_element_idx topology isect = topology ∨
      ∃ elem ecs, FindsOpen mesh sideNodes isect topology elem ecs ∧
        connectNeighbourSide mesh sideNodes ngh_element_idx topology isect =
          topology.couple ⟨isect, ecs⟩ ngh_element_idx := by
  unfold connectNeighbourSide
  cases lookup : mesh.element[isect]? with
  | none => exact .inl rfl
  | some elem =>
      cases found : openSide topology isect elem sideNodes with
      | none =>
          left
          simp only [found]
      | some ecs =>
          right
          exact ⟨elem, ecs, ⟨lookup, found⟩, by simp only [found]; rfl⟩

theorem boundary_element_step_cases {bc_ele : Element × ℕ}
    (ran : boundaryElementStep mesh topology bc_ele = .ok after) :
    (mesh.boundaryElements bc_ele.1 = [] ∧ after = topology) ∨
      (mesh.boundaryElements bc_ele.1 ≠ [] ∧ after = makeBoundaryEdge mesh topology
        bc_ele.1.nodes bc_ele.2 (mesh.boundaryElements bc_ele.1)) := by
  obtain ⟨found, searched, ran⟩ := bind_ok ran
  have kept : found.1 = mesh.boundaryElements bc_ele.1 := find_lower_dim_element_eq searched
  rw [← kept]
  cases lower : found.2 with
  | some ngh_element_idx => simp [lower] at ran
  | none =>
      simp only [lower] at ran
      by_cases lonely : found.1 = []
      · rw [if_pos lonely] at ran
        cases ran
        exact .inl ⟨lonely, rfl⟩
      · rw [if_neg lonely] at ran
        cases ran
        exact .inr ⟨lonely, rfl⟩

theorem side_step_cases {si : SideIter} (ran : sideStep mesh topology si = .ok after) :
    (after = topology ∧ (mesh.IsSide si → (topology.edgeIdx si).isSome)) ∨
      ∃ ele found, Searches mesh topology si ele found ∧
        SideResult mesh topology si ele found after := by
  unfold sideStep at ran
  cases lookup : mesh.element[si.element]? with
  | none =>
      simp only [lookup, Except.ok.injEq] at ran
      refine .inl ⟨ran.symm, fun ⟨ele, found, _⟩ => ?_⟩
      rw [lookup] at found
      cases found
  | some ele =>
      simp only [lookup] at ran
      cases current : topology.edgeIdx si with
      | some k =>
          simp only [current, Option.isSome_some, if_true, Except.ok.injEq] at ran
          exact .inl ⟨ran.symm, fun _ => rfl⟩
      | none =>
          simp only [current, Option.isSome_none, Bool.false_eq_true, if_false] at ran
          obtain ⟨found, searched, ran⟩ := bind_ok ran
          refine .inr ⟨ele, found, ⟨lookup, current, searched⟩, ?_⟩
          cases lower : found.2 with
          | some ngh_element_idx =>
              simp only [lower, Except.ok.injEq] at ran
              exact ran ▸ .coupled ngh_element_idx lower
          | none =>
              simp only [lower] at ran
              split_ifs at ran with alone
              · cases ran
                exact .outer lower alone
              · cases ran
                exact .inner lower alone

end Steps

end Flow123d
