import Flow123d.Mesh.NodeElementProperties

/-!
# Sides and edges after the topology setup

The loops connect one side at a time. What one connection does to the lists of
the edges gives an invariant of the whole method: the loop over the sides never
lists a side twice, and the loop over the boundary elements lists a side once
for every boundary element that finds it.
-/

set_option autoImplicit false

namespace Flow123d

open Flow123d.Library

/-- The used entries are a prefix of the array, and `n_sides` counts them. -/
structure Edge.WellFormed (edge : Edge) : Prop where
  prefixUsed : edge.side = edge.sides.map some ++
    List.replicate (edge.side.length - edge.nSides) none
  countUsed : edge.nSides = edge.sides.length

def Topology.listed (topology : Topology) : List SideIter :=
  topology.edges.flatMap Edge.sides

private theorem Edge.wellFormed_new (allocated : ℕ) :
    Edge.WellFormed ⟨0, List.replicate allocated none⟩ := by
  constructor <;> simp [Edge.sides]

theorem Edge.WellFormed.push {edge : Edge} (valid : edge.WellFormed)
    (si : SideIter) (room : edge.nSides < edge.side.length) :
    (edge.push si).WellFormed ∧ (edge.push si).sides = edge.sides ++ [si] := by
  obtain ⟨free, split⟩ : ∃ free, edge.side.length - edge.nSides = free + 1 :=
    ⟨_, (Nat.succ_pred_eq_of_pos (Nat.sub_pos_of_lt room)).symm⟩
  have shape := valid.prefixUsed
  rw [split] at shape
  have pushed : (edge.push si).side =
      (edge.sides ++ [si]).map some ++ List.replicate free none := by
    simp only [Edge.push]
    rw [shape, valid.countUsed, List.set_append_right _ _ (by simp)]
    simp [List.replicate_succ]
  have listed : (edge.push si).sides = edge.sides ++ [si] := by
    rw [Edge.sides, pushed]
    simp
  refine ⟨⟨?_, ?_⟩, listed⟩
  · rw [listed, pushed]
    have left : ((edge.sides ++ [si]).map some ++
        List.replicate free (none : Option SideIter)).length -
        (edge.push si).nSides = free := by
      simp [Edge.push, shape, valid.countUsed]
      omega
    rw [left]
  · rw [listed, List.length_append, ← valid.countUsed]
    rfl

/-- What the edges and the arrays `edge_idx_` say about each other. -/
structure Topology.Valid (topology : Topology) : Prop where
  wellFormed : ∀ edge ∈ topology.edges, edge.WellFormed
  definedListed : ∀ si k, topology.edgeIdx si = some k →
    ∃ edge, topology.edges[k]? = some edge ∧ si ∈ edge.sides
  listedDefined : ∀ si ∈ topology.listed, (topology.edgeIdx si).isSome

def Topology.HasRoom (topology : Topology) (last_edge_idx room : ℕ) : Prop :=
  ∃ before edge, topology.edges = before ++ [edge] ∧ before.length = last_edge_idx ∧
    edge.nSides + room ≤ edge.side.length

def Topology.Lists (topology after : Topology) (sides : List SideIter) : Prop :=
  ∀ si, after.listed.count si = topology.listed.count si + sides.count si

namespace Topology

theorem Valid.not_listed {topology : Topology} (valid : topology.Valid)
    {si : SideIter} (undefined : topology.edgeIdx si = none) :
    topology.listed.count si = 0 := by
  rw [List.count_eq_zero]
  intro member
  have defined := valid.listedDefined si member
  rw [undefined] at defined
  cases defined

theorem Valid.of_same {topology after : Topology} (valid : topology.Valid)
    (edges : after.edges = topology.edges)
    (edgeIdx : after.edgeIdx = topology.edgeIdx) : after.Valid := by
  constructor
  · rw [edges]; exact valid.wellFormed
  · rw [edges, edgeIdx]; exact valid.definedListed
  · rw [listed, edges, edgeIdx]; exact valid.listedDefined

theorem valid_initial (mesh : Mesh) : mesh.initialTopology.Valid := by
  constructor <;> simp [Mesh.initialTopology, listed]

@[simp] theorem listed_add_edge (topology : Topology) (allocated : ℕ) :
    (topology.addEdge allocated).listed = topology.listed := by
  simp [addEdge, listed, Edge.sides]

theorem Valid.add_edge {topology : Topology} (valid : topology.Valid)
    (allocated : ℕ) : (topology.addEdge allocated).Valid := by
  constructor
  · intro edge member
    rcases List.mem_append.mp member with old | new
    · exact valid.wellFormed edge old
    · rw [List.mem_singleton.mp new]
      exact Edge.wellFormed_new allocated
  · intro si k defined
    obtain ⟨edge, found, member⟩ := valid.definedListed si k defined
    refine ⟨edge, ?_, member⟩
    have bound := (List.getElem?_eq_some_iff.mp found).1
    rw [Topology.addEdge, List.getElem?_append_left bound]
    exact found
  · rw [listed_add_edge]
    exact valid.listedDefined

theorem hasRoom_add_edge (topology : Topology) (allocated : ℕ) :
    (topology.addEdge allocated).HasRoom topology.edges.length allocated :=
  ⟨topology.edges, ⟨0, List.replicate allocated none⟩, rfl, rfl, by simp⟩

theorem modify_last (before : List Edge) (edge : Edge) (f : Edge → Edge) :
    (before ++ [edge]).modify before.length f = before ++ [f edge] := by
  induction before with
  | nil => rfl
  | cons head tail ih => simpa using ih

/-- One connection: the side is listed once more, and now has an edge. -/
theorem Valid.connect {topology : Topology} (valid : topology.Valid) {k room : ℕ}
    (space : topology.HasRoom k (room + 1)) (si : SideIter) :
    (topology.connect k si).Valid ∧ (topology.connect k si).HasRoom k room ∧
      topology.Lists (topology.connect k si) [si] := by
  obtain ⟨before, edge, split, rfl, bound⟩ := space
  have old := valid.wellFormed edge (by rw [split]; simp)
  obtain ⟨pushed, sides⟩ := old.push si (by omega)
  have edges : (topology.connect before.length si).edges = before ++ [edge.push si] := by
    rw [Topology.connect, split, modify_last]
  have listed_eq : (topology.connect before.length si).listed =
      topology.listed ++ [si] := by
    simp [listed, edges, split, sides]
  refine ⟨⟨?_, ?_, ?_⟩, ⟨before, edge.push si, edges, rfl, ?_⟩, ?_⟩
  · intro other member
    rw [edges] at member
    rcases List.mem_append.mp member with first | last
    · exact valid.wellFormed other (by rw [split]; exact List.mem_append_left _ first)
    · rw [List.mem_singleton.mp last]
      exact pushed
  · intro other k defined
    rw [edges]
    by_cases same : other = si
    · subst same
      have at_last : k = before.length := by
        simpa [Topology.connect, eq_comm] using defined
      refine ⟨edge.push other, by simp [at_last], by simp [sides]⟩
    · have previous : topology.edgeIdx other = some k := by
        simpa [Topology.connect, Function.update_of_ne same] using defined
      obtain ⟨found, lookup, member⟩ := valid.definedListed other k previous
      rw [split] at lookup
      rcases Nat.lt_or_ge k before.length with less | atLeast
      · rw [List.getElem?_append_left less] at lookup ⊢
        exact ⟨found, lookup, member⟩
      · rw [List.getElem?_append_right atLeast] at lookup ⊢
        cases position : k - before.length with
        | zero =>
            rw [position] at lookup
            cases lookup
            exact ⟨edge.push si, rfl, by rw [sides]; exact List.mem_append_left _ member⟩
        | succ n => rw [position] at lookup; cases lookup
  · intro other member
    rw [listed_eq] at member
    by_cases same : other = si
    · simp [Topology.connect, same]
    · rcases List.mem_append.mp member with first | last
      · simpa [Topology.connect, Function.update_of_ne same] using
          valid.listedDefined other first
      · exact absurd (List.mem_singleton.mp last) same
  · simp only [Edge.push, List.length_set]
    omega
  · intro other
    rw [listed_eq, List.count_append]

theorem HasRoom.weaken {topology : Topology} {k room less : ℕ}
    (space : topology.HasRoom k room) (le : less ≤ room) : topology.HasRoom k less := by
  obtain ⟨before, edge, split, position, bound⟩ := space
  exact ⟨before, edge, split, position, by omega⟩

end Topology

/-!
## The loop over the boundary elements
-/

def Mesh.boundaryMatch (mesh : Mesh) (sideNodes : List ℕ) (isect : ℕ) :
    Option SideIter :=
  mesh.element[isect]?.bind fun elem =>
    (boundarySide elem sideNodes).map (SideIter.mk isect)

def Mesh.boundaryElements (mesh : Mesh) (bc_ele : Element) : List ℕ :=
  ofDim mesh.element (bc_ele.dim + 1)
    (intersectElementLists (createNodeElementLists mesh.element) bc_ele.nodes)

/-- All sides that a boundary element finds, as often as it finds them. -/
def Mesh.boundaryMatches (mesh : Mesh) (bc_ele : Element) : List SideIter :=
  (mesh.boundaryElements bc_ele).filterMap (mesh.boundaryMatch bc_ele.nodes)

theorem connect_boundary_side_spec (mesh : Mesh) (sideNodes : List ℕ)
    {topology : Topology} (valid : topology.Valid) (k bdr_idx isect : ℕ) {room : ℕ}
    (space : topology.HasRoom k (room + 1)) :
    let after := connectBoundarySide mesh sideNodes k bdr_idx topology isect
    after.Valid ∧ after.HasRoom k room ∧
      topology.Lists after (mesh.boundaryMatch sideNodes isect).toList := by
  intro after
  have nothing : mesh.boundaryMatch sideNodes isect = none → after = topology →
      after.Valid ∧ after.HasRoom k room ∧
        topology.Lists after (mesh.boundaryMatch sideNodes isect).toList := by
    intro unmatched same
    rw [same, unmatched]
    exact ⟨valid, space.weaken (Nat.le_succ room), fun si => by simp⟩
  cases lookup : mesh.element[isect]? with
  | none =>
      exact nothing (by simp [Mesh.boundaryMatch, lookup])
        (by simp [after, connectBoundarySide, lookup])
  | some elem =>
      cases found : boundarySide elem sideNodes with
      | none =>
          exact nothing (by simp [Mesh.boundaryMatch, lookup, found])
            (by simp [after, connectBoundarySide, lookup, found])
      | some ecs =>
          have step : after = (topology.connect k ⟨isect, ecs⟩).setBoundaryIdx elem
              ⟨isect, ecs⟩ bdr_idx := by
            simp [after, connectBoundarySide, lookup, found]
          have matched : mesh.boundaryMatch sideNodes isect = some ⟨isect, ecs⟩ := by
            simp [Mesh.boundaryMatch, lookup, found]
          obtain ⟨connected, left, lists⟩ := valid.connect space ⟨isect, ecs⟩
          rw [step, matched]
          exact ⟨connected.of_same rfl rfl, left, lists⟩

theorem boundary_element_step_spec {mesh : Mesh} {topology after : Topology}
    {bc_ele : Element × ℕ} (valid : topology.Valid)
    (ran : boundaryElementStep mesh topology bc_ele = .ok after) :
    after.Valid ∧ topology.Lists after (mesh.boundaryMatches bc_ele.1) := by
  obtain ⟨found, searched, ran⟩ := bind_ok ran
  have kept : found.1 = mesh.boundaryElements bc_ele.1 :=
    find_lower_dim_element_eq searched
  cases lower : found.2 with
  | some ngh_element_idx => simp [lower] at ran
  | none =>
      simp only [lower] at ran
      by_cases lonely : found.1 = []
      · rw [if_pos lonely] at ran
        cases ran
        refine ⟨valid, fun si => ?_⟩
        simp [Mesh.boundaryMatches, ← kept, lonely]
      · rw [if_neg lonely] at ran
        cases ran
        let start := (topology.addEdge found.1.length).addBoundary
          ⟨topology.edges.length, bc_ele.2⟩
        have started : start.Valid := (valid.add_edge found.1.length).of_same rfl rfl
        have listed : start.listed = topology.listed :=
          topology.listed_add_edge found.1.length
        have loop := foldl_preserves found.1
          (connectBoundarySide mesh bc_ele.1.nodes topology.edges.length
            topology.boundary.length) start
          (fun seen state => state.Valid ∧
            state.HasRoom topology.edges.length (found.1.length - seen.length) ∧
            start.Lists state (seen.filterMap (mesh.boundaryMatch bc_ele.1.nodes)))
          ⟨started, topology.hasRoom_add_edge found.1.length, fun si => by simp⟩
          (by
            intro seen item remaining state split invariant
            obtain ⟨stateValid, space, lists⟩ := invariant
            have room : found.1.length - seen.length =
                (found.1.length - (seen ++ [item]).length) + 1 := by
              rw [split]
              simp only [List.length_append, List.length_cons, List.length_nil]
              omega
            rw [room] at space
            obtain ⟨nextValid, nextSpace, added⟩ :=
              connect_boundary_side_spec mesh bc_ele.1.nodes stateValid
                topology.edges.length topology.boundary.length item space
            refine ⟨nextValid, nextSpace, fun si => ?_⟩
            rw [added si, lists si, List.filterMap_append, List.count_append]
            cases matched : mesh.boundaryMatch bc_ele.1.nodes item <;>
              simp [matched, Nat.add_assoc])
        refine ⟨loop.1, fun si => ?_⟩
        rw [← listed, Mesh.boundaryMatches, ← kept]
        exact loop.2.2 si

/-- After the loop over the boundary elements the edges list what these found. -/
theorem boundary_loop_spec {mesh : Mesh} {topology : Topology}
    (ran : mesh.bcElements.zipIdx.foldlM (boundaryElementStep mesh)
      mesh.initialTopology = .ok topology) :
    topology.Valid ∧ ∀ si, topology.listed.count si =
      (mesh.bcElements.flatMap mesh.boundaryMatches).count si := by
  have loop := foldlM_preserves ran
    (fun seen state => state.Valid ∧ ∀ si, state.listed.count si =
      (seen.flatMap fun row => mesh.boundaryMatches row.1).count si)
    ⟨Topology.valid_initial mesh, fun si => by
      simp [Mesh.initialTopology, Topology.listed]⟩
    (by
      intro seen row remaining state after _ invariant stepped
      obtain ⟨valid, lists⟩ := invariant
      obtain ⟨nextValid, added⟩ := boundary_element_step_spec valid stepped
      refine ⟨nextValid, fun si => ?_⟩
      rw [added si, lists si, List.flatMap_append, List.count_append]
      simp)
  refine ⟨loop.1, fun si => ?_⟩
  rw [loop.2 si, ← List.flatMap_map, List.zipIdx_map_fst]

end Flow123d
