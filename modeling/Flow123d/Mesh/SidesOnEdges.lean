import Flow123d.Mesh.TopologySteps

/-!
# Every side lies on exactly one edge

The loop over the sides connects only sides without an edge, and leaves none
behind. Together with the loop over the boundary elements this decides when
the edges partition the sides of the mesh.
-/

set_option autoImplicit false

namespace Flow123d

open Flow123d.Library

/-- A later topology: sides that have an edge keep their place in the lists,
the others are listed at most once. -/
structure Topology.Extends (topology after : Topology) : Prop where
  valid : after.Valid
  kept : ∀ si, (topology.edgeIdx si).isSome →
    (after.edgeIdx si).isSome ∧ after.listed.count si = topology.listed.count si
  fresh : ∀ si, topology.edgeIdx si = none → after.listed.count si ≤ 1

namespace Topology

theorem Valid.extends_refl {topology : Topology} (valid : topology.Valid) :
    topology.Extends topology where
  valid := valid
  kept := fun _ defined => ⟨defined, rfl⟩
  fresh := fun _ undefined => by rw [valid.not_listed undefined]; exact Nat.zero_le 1

theorem Extends.trans {first second third : Topology}
    (left : first.Extends second) (right : second.Extends third) :
    first.Extends third where
  valid := right.valid
  kept := by
    intro si defined
    obtain ⟨still, same⟩ := left.kept si defined
    obtain ⟨last, again⟩ := right.kept si still
    exact ⟨last, again.trans same⟩
  fresh := by
    intro si undefined
    cases later : second.edgeIdx si with
    | none => exact right.fresh si later
    | some k =>
        rw [(right.kept si (by rw [later]; rfl)).2]
        exact left.fresh si undefined

theorem Extends.of_same {topology after changed : Topology}
    (extension : topology.Extends after) (edges : changed.edges = after.edges)
    (edgeIdx : changed.edgeIdx = after.edgeIdx) : topology.Extends changed where
  valid := extension.valid.of_same edges edgeIdx
  kept := by rw [listed, edges, edgeIdx]; exact extension.kept
  fresh := by rw [listed, edges]; exact extension.fresh

theorem Valid.extends_add_edge {topology : Topology} (valid : topology.Valid)
    (allocated : ℕ) : topology.Extends (topology.addEdge allocated) where
  valid := valid.add_edge allocated
  kept := fun _ defined => ⟨defined, by rw [listed_add_edge]⟩
  fresh := by
    intro si undefined
    rw [listed_add_edge, valid.not_listed undefined]
    exact Nat.zero_le 1

theorem Valid.extends_connect {topology : Topology} (valid : topology.Valid)
    {k room : ℕ} (space : topology.HasRoom k (room + 1)) (si : SideIter)
    (undefined : topology.edgeIdx si = none) :
    topology.Extends (topology.connect k si) := by
  obtain ⟨connected, _, lists⟩ := valid.connect space si
  refine ⟨connected, ?_, ?_⟩
  · intro other defined
    have different : other ≠ si := by
      rintro rfl
      rw [undefined] at defined
      cases defined
    constructor
    · simpa [Topology.connect, Function.update_of_ne different] using defined
    · rw [lists other, List.count_singleton, beq_eq_false_iff_ne.mpr different.symm]
      rfl
  · intro other otherUndefined
    rw [lists other, valid.not_listed otherUndefined, Nat.zero_add]
    exact List.count_le_length

end Topology

theorem open_side_undefined {topology : Topology} {isect ecs : ℕ} {elem : Element}
    {sideNodes : List ℕ} (found : openSide topology isect elem sideNodes = some ecs) :
    topology.edgeIdx ⟨isect, ecs⟩ = none := by
  have holds := List.find?_some found
  simp only [Bool.and_eq_true, Option.isNone_iff_eq_none] at holds
  exact holds.1

/-- When the sides before it have edges, the side itself is the first open one
on its own nodes. -/
theorem open_side_self {topology : Topology} {elem : Element} {si : SideIter}
    (bound : si.elIdx < elem.nSides) (undefined : topology.edgeIdx si = none)
    (earlier : ∀ s < si.elIdx, (topology.edgeIdx ⟨si.element, s⟩).isSome) :
    openSide topology si.element elem (elem.sideNodes si.elIdx) = some si.elIdx := by
  rw [openSide, List.find?_range_eq_some]
  refine ⟨?_, List.mem_range.mpr bound, ?_⟩
  · simp [undefined, sameSides]
  · intro s less
    have defined := earlier s less
    cases value : topology.edgeIdx ⟨si.element, s⟩ with
    | none => rw [value] at defined; cases defined
    | some k => simp

/-- What one turn of the loops over connected elements does: it keeps the side
condition, extends the topology and closes the side it finds. -/
structure ConnectsOpen (mesh : Mesh) (sideNodes : List ℕ)
    (room : ℕ → Topology → Prop) (step : Topology → ℕ → Topology) : Prop where
  keeps : ∀ topology isect left, topology.Valid → room (left + 1) topology →
    topology.Extends (step topology isect) ∧ room left (step topology isect)
  closes : ∀ topology isect left elem ecs, topology.Valid → room (left + 1) topology →
    mesh.element[isect]? = some elem →
    openSide topology isect elem sideNodes = some ecs →
    ((step topology isect).edgeIdx ⟨isect, ecs⟩).isSome

private theorem ConnectsOpen.fold {mesh : Mesh} {si : SideIter} {ele : Element}
    {room : ℕ → Topology → Prop} {step : Topology → ℕ → Topology}
    (connects : ConnectsOpen mesh (ele.sideNodes si.elIdx) room step)
    {topology : Topology} (valid : topology.Valid) (items : List ℕ)
    (space : room items.length topology) :
    topology.Extends (items.foldl step topology) ∧
      (mesh.element[si.element]? = some ele → si.elIdx < ele.nSides →
        (∀ s < si.elIdx, (topology.edgeIdx ⟨si.element, s⟩).isSome) →
        si.element ∈ items → ((items.foldl step topology).edgeIdx si).isSome) := by
  have loop := foldl_preserves items step topology
    (fun seen state => topology.Extends state ∧
      room (items.length - seen.length) state ∧
      (mesh.element[si.element]? = some ele → si.elIdx < ele.nSides →
        (∀ s < si.elIdx, (topology.edgeIdx ⟨si.element, s⟩).isSome) →
        si.element ∈ seen → (state.edgeIdx si).isSome))
    ⟨valid.extends_refl, space, fun _ _ _ member => by simp at member⟩
    (by
      intro seen item remaining state split invariant
      obtain ⟨extension, stateSpace, closed⟩ := invariant
      have left : items.length - seen.length =
          (items.length - (seen ++ [item]).length) + 1 := by
        rw [split]
        simp only [List.length_append, List.length_cons, List.length_nil]
        omega
      rw [left] at stateSpace
      obtain ⟨next, nextSpace⟩ := connects.keeps state item _ extension.valid stateSpace
      refine ⟨extension.trans next, nextSpace, ?_⟩
      intro lookup bound earlier member
      cases current : state.edgeIdx si with
      | some k => exact (next.kept si (by rw [current]; rfl)).1
      | none =>
          rcases List.mem_append.mp member with before | now
          · have defined := closed lookup bound earlier before
            rw [current] at defined
            cases defined
          · have same : item = si.element := (List.mem_singleton.mp now).symm
            subst same
            exact connects.closes state si.element _ ele si.elIdx extension.valid
              stateSpace lookup
              (open_side_self bound current fun s less =>
                (extension.kept _ (earlier s less)).1))
  exact ⟨loop.1, loop.2.2⟩

private theorem connect_inner_side_connectsOpen (mesh : Mesh) (sideNodes : List ℕ)
    (last_edge_idx : ℕ) :
    ConnectsOpen mesh sideNodes (fun left topology => topology.HasRoom last_edge_idx left)
      (connectInnerSide mesh sideNodes last_edge_idx) := by
  constructor
  · intro topology isect left valid space
    rcases connect_inner_side_cases mesh sideNodes last_edge_idx topology isect with
      same | ⟨elem, ecs, finds, connected⟩
    · rw [same]
      exact ⟨valid.extends_refl, space.weaken (Nat.le_succ left)⟩
    · rw [connected]
      exact ⟨valid.extends_connect space _ (open_side_undefined finds.found),
        (valid.connect space _).2.1⟩
  · intro topology isect left elem ecs _ _ lookup found
    simp [connectInnerSide, lookup, found, Topology.connect]

private theorem connect_neighbour_side_connectsOpen (mesh : Mesh) (sideNodes : List ℕ)
    (ngh_element_idx : ℕ) :
    ConnectsOpen mesh sideNodes (fun _ _ => True)
      (connectNeighbourSide mesh sideNodes ngh_element_idx) := by
  constructor
  · intro topology isect left valid _
    rcases connect_neighbour_side_cases mesh sideNodes ngh_element_idx topology isect with
      same | ⟨elem, ecs, finds, coupled⟩
    · rw [same]
      exact ⟨valid.extends_refl, trivial⟩
    · rw [coupled]
      have added := valid.extends_add_edge 1
      have connected := added.valid.extends_connect (topology.hasRoom_add_edge 1)
        ⟨isect, ecs⟩ (open_side_undefined finds.found)
      exact ⟨(added.trans connected).of_same rfl rfl, trivial⟩
  · intro topology isect left elem ecs _ _ lookup found
    simp [connectNeighbourSide, lookup, found, Topology.connect, Topology.addEdge]

private theorem make_outer_edge_spec {topology : Topology} (valid : topology.Valid)
    (ele : Element) {si : SideIter} (undefined : topology.edgeIdx si = none) :
    topology.Extends (makeOuterEdge topology ele si) ∧
      ((makeOuterEdge topology ele si).edgeIdx si).isSome := by
  have added := valid.extends_add_edge 1
  have connected := added.valid.extends_connect (topology.hasRoom_add_edge 1)
    si undefined
  refine ⟨(added.trans connected).of_same rfl rfl, ?_⟩
  simp [makeOuterEdge, Topology.connect, Topology.setBoundaryIdx]

/-- A successful turn extends the topology, and gives the side an edge when the
sides of the element before it have one. -/
theorem side_step_spec {mesh : Mesh} {topology after : Topology} {si : SideIter}
    (valid : topology.Valid) (ran : sideStep mesh topology si = .ok after) :
    topology.Extends after ∧ (mesh.IsSide si →
      (∀ s < si.elIdx, (topology.edgeIdx ⟨si.element, s⟩).isSome) →
      (after.edgeIdx si).isSome) := by
  rcases side_step_cases ran with ⟨rfl, closed⟩ | ⟨ele, found, searches, result⟩
  · exact ⟨valid.extends_refl, fun isSide _ => closed isSide⟩
  have lookup := searches.lookup
  have listed : mesh.IsSide si → si.element ∈ found.1 ∧ si.elIdx < ele.nSides := by
    rintro ⟨other, same, bound⟩
    rw [lookup] at same
    cases same
    have positive := mesh.bulkDim ele (List.mem_of_getElem? lookup)
    refine ⟨?_, bound⟩
    rw [find_lower_dim_element_eq searches.searched, ofDim, List.mem_filter]
    exact ⟨(mem_intersection mesh.element (ele.side_nodes_ne_nil positive bound)).mpr
      ⟨ele, lookup, ele.side_nodes_subset si.elIdx⟩, by simp [lookup]⟩
  cases result with
  | coupled ngh_element_idx lower =>
      obtain ⟨extension, closes⟩ := (connect_neighbour_side_connectsOpen mesh
        (ele.sideNodes si.elIdx) ngh_element_idx).fold valid found.1 trivial
      exact ⟨extension, fun isSide earlier =>
        closes lookup (listed isSide).2 earlier (listed isSide).1⟩
  | outer lower alone =>
      obtain ⟨extension, closed⟩ := make_outer_edge_spec valid ele searches.undefined
      exact ⟨extension, fun _ _ => closed⟩
  | inner lower several =>
      have added := valid.extends_add_edge found.1.length
      obtain ⟨extension, closes⟩ := (connect_inner_side_connectsOpen mesh
        (ele.sideNodes si.elIdx) topology.edges.length).fold
        added.valid found.1 (topology.hasRoom_add_edge found.1.length)
      exact ⟨added.trans extension, fun isSide earlier =>
        closes lookup (listed isSide).2
          (fun s less => (added.kept _ (earlier s less)).1) (listed isSide).1⟩

theorem Mesh.mem_sides {mesh : Mesh} {si : SideIter} :
    si ∈ mesh.sides ↔ mesh.IsSide si := by
  simp only [Mesh.sides, List.mem_flatMap, List.mem_map, List.mem_range]
  constructor
  · rintro ⟨⟨ele, idx⟩, member, elIdx, bound, rfl⟩
    exact ⟨ele, List.mk_mem_zipIdx_iff_getElem?.mp member, bound⟩
  · rintro ⟨ele, lookup, bound⟩
    exact ⟨(ele, si.element), List.mk_mem_zipIdx_iff_getElem?.mpr lookup,
      si.elIdx, bound, rfl⟩

private theorem Mesh.sides_ordered (mesh : Mesh) :
    mesh.sides.Pairwise fun left right => left.element < right.element ∨
      left.element = right.element ∧ left.elIdx < right.elIdx := by
  rw [Mesh.sides, List.pairwise_flatMap]
  constructor
  · intro row _
    rw [List.pairwise_map]
    exact List.pairwise_lt_range.imp fun less => .inr ⟨rfl, less⟩
  · have increasing : (mesh.element.zipIdx.map Prod.snd).Pairwise (· < ·) := by
      rw [List.zipIdx_map_snd]
      exact List.pairwise_lt_range'
    refine (List.pairwise_map.mp increasing).imp ?_
    intro row other less left leftMember right rightMember
    obtain ⟨_, _, rfl⟩ := List.mem_map.mp leftMember
    obtain ⟨_, _, rfl⟩ := List.mem_map.mp rightMember
    exact .inl less

private theorem Mesh.earlier_side_mem {mesh : Mesh} {seen remaining : List SideIter}
    {si : SideIter} (split : mesh.sides = seen ++ si :: remaining) {s : ℕ}
    (less : s < si.elIdx) : ⟨si.element, s⟩ ∈ seen := by
  have isSide : mesh.IsSide si := Mesh.mem_sides.mp (by rw [split]; simp)
  have earlier : (⟨si.element, s⟩ : SideIter) ∈ mesh.sides := by
    obtain ⟨ele, lookup, bound⟩ := isSide
    exact Mesh.mem_sides.mpr ⟨ele, lookup, less.trans bound⟩
  have ordered := mesh.sides_ordered
  rw [split] at earlier ordered
  rcases List.mem_append.mp earlier with before | after
  · exact before
  · rcases List.mem_cons.mp after with same | later
    · exact absurd (congrArg SideIter.elIdx same) less.ne
    · have above := (List.pairwise_cons.mp (List.pairwise_append.mp ordered).2.1).1
        _ later
      simp only at above
      omega

/-- The loop over the sides extends the topology and gives every side an edge. -/
theorem side_loop_spec {mesh : Mesh} {topology after : Topology}
    (valid : topology.Valid)
    (ran : mesh.sides.foldlM (sideStep mesh) topology = .ok after) :
    topology.Extends after ∧ ∀ si, mesh.IsSide si → (after.edgeIdx si).isSome := by
  have loop := foldlM_preserves ran
    (fun seen state => topology.Extends state ∧
      ∀ si ∈ seen, (state.edgeIdx si).isSome)
    ⟨valid.extends_refl, by simp⟩
    (by
      intro seen si remaining state next split invariant stepped
      obtain ⟨extension, closed⟩ := invariant
      obtain ⟨further, closes⟩ := side_step_spec extension.valid stepped
      refine ⟨extension.trans further, ?_⟩
      intro other member
      rcases List.mem_append.mp member with before | now
      · exact (further.kept other (closed other before)).1
      · rw [List.mem_singleton.mp now]
        exact closes (Mesh.mem_sides.mp (by rw [split]; simp)) fun s less =>
          closed _ (Mesh.earlier_side_mem split less))
  exact ⟨loop.1, fun si isSide => loop.2 si (Mesh.mem_sides.mpr isSide)⟩

/-!
## When the edges partition the sides
-/

/-- Every pair (bulk element, local side) has a defined edge and occurs exactly
once over all lists of sides, namely in the list of that edge; the counter of
every edge is the number of its assigned entries. -/
structure Mesh.SidesOnEdges (mesh : Mesh) (topology : Topology) : Prop where
  onEdge : ∀ si, mesh.IsSide si → ∃ k edge, topology.edgeIdx si = some k ∧
    topology.edges[k]? = some edge ∧ si ∈ edge.sides
  once : ∀ si, mesh.IsSide si → topology.listed.count si = 1
  nSides : ∀ edge ∈ topology.edges, edge.nSides = edge.sides.length

/-- The boundary element lies on the side: its nodes are nodes of the element,
and this is the first side of the element with all nodes among them. -/
def Mesh.Covers (mesh : Mesh) (bc_ele : Element) (si : SideIter) : Prop :=
  ∃ elem, mesh.element[si.element]? = some elem ∧ elem.dim = bc_ele.dim + 1 ∧
    bc_ele.nodes ⊆ elem.nodes ∧ boundarySide elem bc_ele.nodes = some si.elIdx

/-- No two boundary elements lie on one side, and a bulk element under a boundary
element does not repeat all nodes of it. -/
structure Mesh.BoundaryElementsApart (mesh : Mesh) : Prop where
  one : ∀ (i j : ℕ) bc_ele other si, mesh.bcElements[i]? = some bc_ele →
    mesh.bcElements[j]? = some other → mesh.Covers bc_ele si →
    mesh.Covers other si → i = j
  simple : ∀ bc_ele ∈ mesh.bcElements, ∀ si elem, mesh.Covers bc_ele si →
    mesh.element[si.element]? = some elem → ∃ n ∈ bc_ele.nodes, elem.nodes.count n = 1

theorem Element.nodes_ne_nil (ele : Element) : ele.nodes ≠ [] := by
  intro empty
  have length := ele.length_nodes
  rw [empty] at length
  cases length

private theorem Mesh.boundary_match_eq_some {mesh : Mesh} {sideNodes : List ℕ}
    {isect : ℕ} {si : SideIter} :
    mesh.boundaryMatch sideNodes isect = some si ↔ isect = si.element ∧
      ∃ elem, mesh.element[si.element]? = some elem ∧
        boundarySide elem sideNodes = some si.elIdx := by
  simp only [Mesh.boundaryMatch, Option.bind_eq_some_iff, Option.map_eq_some_iff]
  constructor
  · rintro ⟨elem, lookup, ecs, found, rfl⟩
    exact ⟨rfl, elem, lookup, found⟩
  · rintro ⟨rfl, elem, lookup, found⟩
    exact ⟨elem, lookup, si.elIdx, found, rfl⟩

theorem Mesh.mem_boundary_matches {mesh : Mesh} {bc_ele : Element} {si : SideIter} :
    si ∈ mesh.boundaryMatches bc_ele ↔ mesh.Covers bc_ele si := by
  simp only [Mesh.boundaryMatches, List.mem_filterMap, Mesh.boundary_match_eq_some,
    Mesh.boundaryElements, ofDim, List.mem_filter, decide_eq_true_eq,
    mem_intersection mesh.element bc_ele.nodes_ne_nil]
  constructor
  · rintro ⟨_, ⟨⟨elem, lookup, nodes⟩, dim⟩, rfl, other, same, found⟩
    rw [lookup] at same dim
    cases same
    exact ⟨elem, lookup, by simpa using dim, nodes, found⟩
  · rintro ⟨elem, lookup, dim, nodes, found⟩
    exact ⟨si.element, ⟨⟨elem, lookup, nodes⟩, by simp [lookup, dim]⟩, rfl, elem,
      lookup, found⟩

private theorem Mesh.count_boundary_matches {mesh : Mesh} {bc_ele : Element}
    {si : SideIter} (covers : mesh.Covers bc_ele si) :
    (mesh.boundaryMatches bc_ele).count si =
      (intersectElementLists (createNodeElementLists mesh.element)
        bc_ele.nodes).count si.element := by
  obtain ⟨elem, lookup, dim, _, found⟩ := covers
  have single : ∀ isect, (mesh.boundaryMatch bc_ele.nodes isect == some si) =
      (isect == si.element) := by
    intro isect
    rw [Bool.eq_iff_iff, beq_iff_eq, beq_iff_eq, Mesh.boundary_match_eq_some]
    exact ⟨fun both => both.1, fun same => ⟨same, elem, lookup, found⟩⟩
  rw [Mesh.boundaryMatches, List.count_filterMap, List.countP_congr fun isect _ => by
    rw [single isect]]
  rw [← List.count, Mesh.boundaryElements, ofDim, List.count_filter]
  simp [lookup, dim]

private theorem Mesh.nodup_boundary_matches {mesh : Mesh} {bc_ele : Element} :
    (mesh.boundaryMatches bc_ele).Nodup ↔ ∀ si elem, mesh.Covers bc_ele si →
      mesh.element[si.element]? = some elem →
      ∃ n ∈ bc_ele.nodes, elem.nodes.count n = 1 := by
  rw [List.nodup_iff_count_le_one]
  constructor
  · intro bounded si elem covers lookup
    by_contra repeated
    push Not at repeated
    have twice : 2 ≤ (mesh.boundaryMatches bc_ele).count si := by
      rw [Mesh.count_boundary_matches covers,
        le_count_intersection mesh.element bc_ele.nodes_ne_nil Nat.two_pos]
      refine ⟨elem, lookup, fun n member => ?_⟩
      have different := repeated n member
      obtain ⟨other, same, _, nodes, _⟩ := covers
      rw [lookup] at same
      cases same
      have occurs := List.count_pos_iff.mpr (nodes member)
      omega
    have atMost := bounded si
    omega
  · intro simple si
    by_contra large
    have covers : mesh.Covers bc_ele si :=
      Mesh.mem_boundary_matches.mp (List.count_pos_iff.mp (by omega))
    have twice : 2 ≤ (mesh.boundaryMatches bc_ele).count si := by omega
    rw [Mesh.count_boundary_matches covers,
      le_count_intersection mesh.element bc_ele.nodes_ne_nil Nat.two_pos] at twice
    obtain ⟨elem, lookup, repeated⟩ := twice
    obtain ⟨n, member, once⟩ := simple si elem covers lookup
    have atLeast := repeated n member
    omega

/-- The boundary elements find no side twice exactly when they lie apart. -/
theorem Mesh.nodup_matches_iff (mesh : Mesh) :
    (mesh.bcElements.flatMap mesh.boundaryMatches).Nodup ↔
      mesh.BoundaryElementsApart := by
  rw [List.nodup_flatMap]
  constructor
  · rintro ⟨inner, apart⟩
    refine ⟨?_, fun bc_ele member si elem covers lookup =>
      Mesh.nodup_boundary_matches.mp (inner bc_ele member) si elem covers lookup⟩
    have disjoint : ∀ (i j : ℕ) bc_ele other si, i < j →
        mesh.bcElements[i]? = some bc_ele → mesh.bcElements[j]? = some other →
        mesh.Covers bc_ele si → ¬ mesh.Covers other si := by
      intro i j bc_ele other si less first second covers covered
      obtain ⟨firstBound, rfl⟩ := List.getElem?_eq_some_iff.mp first
      obtain ⟨secondBound, rfl⟩ := List.getElem?_eq_some_iff.mp second
      exact List.pairwise_iff_getElem.mp apart i j firstBound secondBound less
        (Mesh.mem_boundary_matches.mpr covers) (Mesh.mem_boundary_matches.mpr covered)
    intro i j bc_ele other si first second covers covered
    rcases Nat.lt_trichotomy i j with less | same | greater
    · exact absurd covered (disjoint i j bc_ele other si less first second covers)
    · exact same
    · exact absurd covers (disjoint j i other bc_ele si greater second first covered)
  · intro apart
    refine ⟨fun bc_ele member => Mesh.nodup_boundary_matches.mpr
      fun si elem covers lookup => apart.simple bc_ele member si elem covers lookup, ?_⟩
    rw [List.pairwise_iff_getElem]
    intro i j firstBound secondBound less si first second
    have same := apart.one i j _ _ si (List.getElem?_eq_getElem firstBound)
      (List.getElem?_eq_getElem secondBound) (Mesh.mem_boundary_matches.mp first)
      (Mesh.mem_boundary_matches.mp second)
    exact less.ne same

theorem Mesh.Covers.isSide {mesh : Mesh} {bc_ele : Element} {si : SideIter}
    (covers : mesh.Covers bc_ele si) : mesh.IsSide si := by
  obtain ⟨elem, lookup, _, _, found⟩ := covers
  exact ⟨elem, lookup, List.mem_range.mp (List.mem_of_find?_eq_some found)⟩

/-- After the topology setup the edges partition the sides exactly when the
boundary elements of the input lie apart: the loop over the boundary elements
lacks the guard that keeps the loop over the sides from listing a side twice. -/
theorem Mesh.sidesOnEdges_iff {mesh : Mesh} {topology : Topology}
    (ran : mesh.makeNeighboursAndEdges = .ok topology) :
    mesh.SidesOnEdges topology ↔ mesh.BoundaryElementsApart := by
  obtain ⟨middle, boundary, sides⟩ := bind_ok ran
  obtain ⟨valid, lists⟩ := boundary_loop_spec boundary
  obtain ⟨extension, closed⟩ := side_loop_spec valid sides
  rw [← mesh.nodup_matches_iff, List.nodup_iff_count_le_one]
  constructor
  · intro onEdges si
    rcases Nat.eq_zero_or_pos
      ((mesh.bcElements.flatMap mesh.boundaryMatches).count si) with zero | positive
    · omega
    · obtain ⟨bc_ele, _, member⟩ := List.mem_flatMap.mp (List.count_pos_iff.mp positive)
      have isSide := (Mesh.mem_boundary_matches.mp member).isSide
      have defined : (middle.edgeIdx si).isSome := valid.listedDefined si (by
        rw [← List.count_pos_iff, lists si]
        exact positive)
      rw [← lists si, ← (extension.kept si defined).2, onEdges.once si isSide]
  · intro bounded
    have onEdge : ∀ si, mesh.IsSide si → ∃ k edge, topology.edgeIdx si = some k ∧
        topology.edges[k]? = some edge ∧ si ∈ edge.sides := by
      intro si isSide
      obtain ⟨k, defined⟩ := Option.isSome_iff_exists.mp (closed si isSide)
      obtain ⟨edge, lookup, member⟩ := extension.valid.definedListed si k defined
      exact ⟨k, edge, defined, lookup, member⟩
    refine ⟨onEdge, ?_, fun edge member => (extension.valid.wellFormed edge member).countUsed⟩
    intro si isSide
    obtain ⟨k, edge, _, lookup, member⟩ := onEdge si isSide
    have listed : 0 < topology.listed.count si := List.count_pos_iff.mpr
      (List.mem_flatMap.mpr ⟨edge, List.mem_of_getElem? lookup, member⟩)
    cases current : middle.edgeIdx si with
    | none =>
        have atMost := extension.fresh si current
        omega
    | some first =>
        have same := (extension.kept si (by rw [current]; rfl)).2
        have atMost := bounded si
        rw [same, lists si] at listed ⊢
        omega

def doubledBoundaryMesh : Mesh where
  nodeVector := [![0, 0, 0], ![1, 0, 0], ![0, 1, 0]]
  element := [⟨1, 2, ![0, 1, 2], Element.triangle_dimLe⟩]
  bcElements := [⟨2, 1, ![0, 1], Element.line_dimLe⟩, ⟨3, 1, ![0, 1], Element.line_dimLe⟩]
  bulkDim := Mesh.unitTriangle.bulkDim

theorem Mesh.sidesOnEdges_iff_doubled :
    ∃ topology, doubledBoundaryMesh.makeNeighboursAndEdges = .ok topology ∧
      (doubledBoundaryMesh.SidesOnEdges topology ↔
        doubledBoundaryMesh.BoundaryElementsApart) :=
  ⟨_, rfl, Mesh.sidesOnEdges_iff rfl⟩

theorem Mesh.not_always_sidesOnEdges :
    ¬ ∀ (mesh : Mesh) (topology : Topology),
      mesh.makeNeighboursAndEdges = .ok topology → mesh.SidesOnEdges topology := by
  intro always
  have once := (always doubledBoundaryMesh _ rfl).once ⟨0, 0⟩
    ⟨⟨1, 2, ![0, 1, 2], Element.triangle_dimLe⟩, rfl, by decide⟩
  revert once
  decide

end Flow123d
