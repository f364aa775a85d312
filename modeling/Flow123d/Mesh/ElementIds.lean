import Flow123d.Mesh.TopologySteps

/-!
# Identification numbers of elements

`Mesh::elements_id_maps`, with the numbers that the topology setup gives to the boundary
elements that it creates.
-/

set_option autoImplicit false

namespace Flow123d

open Flow123d.Library

inductive IdError where
  /-- Element IDs in non-increasing order, ID: %d -/
  | nonIncreasing (id : ℤ)
deriving DecidableEq

/-- The elements of the file. The reader converts their ids from unsigned to signed integers. -/
structure FileIds (mesh : Mesh) where
  bulk : List (BitVec 32)
  boundary : List (BitVec 32)
  bulkIncreasing : bulk.Pairwise fun id other => id.toNat < other.toNat
  boundaryIncreasing : boundary.Pairwise fun id other => id.toNat < other.toNat
  bulkRead : mesh.element.map Element.id = bulk.map BitVec.toInt
  boundaryRead : mesh.bcElements.map Element.id = boundary.map BitVec.toInt

namespace Mesh

/-- `last_id` and the part of the map that is filled. -/
def bulkIdStep (state : ℤ × List ℤ) (id : ℤ) : Except IdError (ℤ × List ℤ) :=
  if id ≤ state.1 then .error (.nonIncreasing id) else .ok (id, state.2 ++ [id])

/-- The reader of the data skips all that follows an id of -1. -/
def boundaryIdStep (state : ℤ × List ℤ) (id : ℤ) : Except IdError (ℤ × List ℤ) :=
  if id < 0 then .ok (-1, state.2 ++ [-1]) else bulkIdStep state id

/-- `elements_id_maps`, which fills both maps in its first call. -/
def elementsIdMaps (mesh : Mesh) (topology : Topology) (boundaryDomain : Bool) :
    Except IdError (List ℤ) := do
  let bulk ← (mesh.element.map Element.id).foldlM bulkIdStep (-1, [])
  let boundary ← (topology.bcElements.map Element.id).foldlM boundaryIdStep (-1, [])
  return if boundaryDomain then boundary.2 else bulk.2

/-- The maps hold the ids of the file, and -1 for every element that is not from the file. -/
structure MapsIds (mesh : Mesh) (ids : FileIds mesh) (topology : Topology) : Prop where
  bulk : mesh.elementsIdMaps topology false = .ok (ids.bulk.map fun id => (id.toNat : ℤ))
  boundary : mesh.elementsIdMaps topology true =
    .ok ((ids.boundary.map fun id => (id.toNat : ℤ)) ++
      List.replicate (topology.bcElements.length - mesh.bcElements.length) (-1))

/-- The boundary element lies on some bulk element. -/
def Touches (mesh : Mesh) (bc_ele : Element) : Prop := mesh.boundaryElements bc_ele ≠ []

/-! ## Created boundary elements -/

/-- The boundary elements after those of the file are numbered by their boundaries. -/
structure Numbered (mesh : Mesh) (first created : ℕ) (topology : Topology) : Prop where
  ids : topology.bcElements.map Element.id =
    mesh.bcElements.map Element.id ++ (List.range created).map fun j => -((first + j : ℕ) : ℤ)
  boundary : topology.boundary.length = first + created

section Loops

variable {mesh : Mesh} {topology after : Topology} {first created : ℕ}

theorem Numbered.of_same (numbered : mesh.Numbered first created topology)
    (elements : after.bcElements = topology.bcElements)
    (boundary : after.boundary = topology.boundary) : mesh.Numbered first created after :=
  ⟨elements ▸ numbered.ids, boundary ▸ numbered.boundary⟩

theorem connect_boundary_side_numbered (sideNodes : List ℕ) (k bdr_idx isect : ℕ)
    (numbered : mesh.Numbered first created topology) :
    mesh.Numbered first created (connectBoundarySide mesh sideNodes k bdr_idx topology isect) := by
  rcases connect_boundary_side_cases mesh sideNodes k bdr_idx topology isect with same | connects
  · rw [same]
    exact numbered
  · obtain ⟨elem, ecs, connects⟩ := connects
    rw [connects.after]
    exact numbered.of_same rfl rfl

/-- A boundary element adds a boundary exactly when it lies on some bulk element. -/
theorem boundary_element_step_numbered {bc_ele : Element × ℕ}
    (numbered : mesh.Numbered first 0 topology)
    (ran : boundaryElementStep mesh topology bc_ele = .ok after) :
    ∃ count, mesh.Numbered (first + count) 0 after ∧ (0 < count ↔ mesh.Touches bc_ele.1) := by
  unfold Touches
  rcases boundary_element_step_cases ran with ⟨lonely, rfl⟩ | ⟨touches, rfl⟩
  · exact ⟨0, numbered, by simp [lonely]⟩
  · refine ⟨1, ?_, by simp [touches]⟩
    refine foldl_preserves _ _ _ (fun _ state => mesh.Numbered (first + 1) 0 state)
      ⟨?_, ?_⟩ fun _ item _ _ _ before => connect_boundary_side_numbered _ _ _ item before
    · simpa [Topology.addBoundary, Topology.addEdge] using numbered.ids
    · simpa [Topology.addBoundary, Topology.addEdge] using numbered.boundary

theorem boundary_loop_numbered
    (ran : mesh.bcElements.zipIdx.foldlM (boundaryElementStep mesh)
      mesh.initialTopology = .ok topology) :
    ∃ first, mesh.Numbered first 0 topology ∧
      (0 < first ↔ ∃ bc_ele ∈ mesh.bcElements, mesh.Touches bc_ele) := by
  have loop := foldlM_preserves ran
    (fun seen state => ∃ first, mesh.Numbered first 0 state ∧
      (0 < first ↔ ∃ row ∈ seen, mesh.Touches row.1))
    ⟨0, ⟨by simp [initialTopology], rfl⟩, by simp⟩
    (by
      intro seen row remaining state next _ invariant stepped
      obtain ⟨first, numbered, touched⟩ := invariant
      obtain ⟨count, later, touches⟩ := boundary_element_step_numbered numbered stepped
      refine ⟨first + count, later, ?_⟩
      simp only [List.mem_append, List.mem_singleton, or_and_right, exists_or, exists_eq_left]
      rw [← touched, ← touches]
      omega)
  obtain ⟨first, numbered, touched⟩ := loop
  refine ⟨first, numbered, touched.trans ?_⟩
  constructor
  · rintro ⟨row, member, touches⟩
    exact ⟨row.1, List.fst_mem_of_mem_zipIdx member, touches⟩
  · rintro ⟨bc_ele, member, touches⟩
    obtain ⟨i, lookup⟩ := List.mem_iff_getElem?.mp member
    exact ⟨(bc_ele, i), List.mk_mem_zipIdx_iff_getElem?.mpr lookup, touches⟩

theorem connect_inner_side_numbered (sideNodes : List ℕ) (k isect : ℕ)
    (numbered : mesh.Numbered first created topology) :
    mesh.Numbered first created (connectInnerSide mesh sideNodes k topology isect) := by
  rcases connect_inner_side_cases mesh sideNodes k topology isect with same | connects
  · rw [same]
    exact numbered
  · obtain ⟨elem, ecs, -, after⟩ := connects
    rw [after]
    exact numbered.of_same rfl rfl

theorem connect_neighbour_side_numbered (sideNodes : List ℕ) (ngh_element_idx isect : ℕ)
    (numbered : mesh.Numbered first created topology) :
    mesh.Numbered first created
      (connectNeighbourSide mesh sideNodes ngh_element_idx topology isect) := by
  rcases connect_neighbour_side_cases mesh sideNodes ngh_element_idx topology isect with
    same | connects
  · rw [same]
    exact numbered
  · obtain ⟨elem, ecs, -, after⟩ := connects
    rw [after]
    exact numbered.of_same rfl rfl

theorem make_outer_edge_numbered (ele : Element) (si : SideIter)
    (numbered : mesh.Numbered first created topology) :
    mesh.Numbered first (created + 1) (makeOuterEdge topology ele si) where
  ids := by
    have appended : (makeOuterEdge topology ele si).bcElements.map Element.id =
        topology.bcElements.map Element.id ++ [-(topology.boundary.length : ℤ)] := by
      simp [makeOuterEdge, Topology.setBoundaryIdx, Topology.connect, Topology.addEdge]
    rw [appended, numbered.ids, numbered.boundary, List.range_succ, List.map_append,
      List.append_assoc]
    rfl
  boundary := by
    simp [makeOuterEdge, Topology.setBoundaryIdx, Topology.connect, Topology.addEdge,
      numbered.boundary, Nat.add_assoc]

theorem side_step_numbered {si : SideIter} (numbered : mesh.Numbered first created topology)
    (ran : sideStep mesh topology si = .ok after) :
    ∃ more, mesh.Numbered first more after := by
  rcases side_step_cases ran with ⟨rfl, -⟩ | ⟨ele, found, searches, result⟩
  · exact ⟨created, numbered⟩
  cases result with
  | coupled ngh_element_idx lower =>
      exact ⟨created, foldl_preserves found.1 _ topology
        (fun _ state => mesh.Numbered first created state) numbered
        fun _ item _ _ _ before => connect_neighbour_side_numbered _ _ item before⟩
  | outer lower alone => exact ⟨created + 1, make_outer_edge_numbered ele si numbered⟩
  | inner lower several =>
      exact ⟨created, foldl_preserves found.1 _ _
        (fun _ state => mesh.Numbered first created state) (numbered.of_same rfl rfl)
        fun _ item _ _ _ before => connect_inner_side_numbered _ _ item before⟩

/-- The first number is positive when a boundary element of the file lies on a bulk element. -/
theorem make_neighbours_and_edges_numbered
    (ran : mesh.makeNeighboursAndEdges = .ok topology) :
    ∃ first created, mesh.Numbered first created topology ∧
      (0 < first ↔ ∃ bc_ele ∈ mesh.bcElements, mesh.Touches bc_ele) := by
  obtain ⟨middle, boundary, sides⟩ := bind_ok ran
  obtain ⟨first, numbered, touched⟩ := boundary_loop_numbered boundary
  obtain ⟨created, final⟩ := foldlM_preserves sides
    (fun _ state => ∃ created, mesh.Numbered first created state) ⟨0, numbered⟩
    (by
      rintro seen si remaining state next _ ⟨created, before⟩ stepped
      exact side_step_numbered before stepped)
  exact ⟨first, created, final, touched⟩

end Loops

/-! ## The maps -/

/-- What the map of the boundary elements holds for an id. -/
def storedId (id : ℤ) : ℤ := if id < 0 then -1 else id

theorem bulk_fold_values {ids : List ℤ} {state final : ℤ × List ℤ}
    (ran : ids.foldlM bulkIdStep state = .ok final) : final.2 = state.2 ++ ids := by
  induction ids generalizing state with
  | nil =>
      cases ran
      exact (List.append_nil _).symm
  | cons id ids ih =>
      obtain ⟨next, stepped, ran⟩ := bind_ok ran
      rw [ih ran]
      unfold bulkIdStep at stepped
      split_ifs at stepped
      cases stepped
      simp

theorem boundary_fold_values {ids : List ℤ} {state final : ℤ × List ℤ}
    (ran : ids.foldlM boundaryIdStep state = .ok final) :
    final.2 = state.2 ++ ids.map storedId := by
  induction ids generalizing state with
  | nil =>
      cases ran
      exact (List.append_nil _).symm
  | cons id ids ih =>
      obtain ⟨next, stepped, ran⟩ := bind_ok ran
      rw [ih ran]
      unfold boundaryIdStep bulkIdStep at stepped
      split_ifs at stepped with negative
      · cases stepped
        simp [storedId, negative]
      · cases stepped
        simp [storedId, negative]

theorem bulk_fold_increasing {ids : List ℤ} (state : ℤ × List ℤ)
    (increasing : (state.1 :: ids).Pairwise (· < ·)) :
    ∃ last, ids.foldlM bulkIdStep state = .ok (last, state.2 ++ ids) := by
  induction ids generalizing state with
  | nil => exact ⟨state.1, by simp [pure, Except.pure]⟩
  | cons id ids ih =>
      obtain ⟨above, rest⟩ := List.pairwise_cons.mp increasing
      have stepped : bulkIdStep state id = .ok (id, state.2 ++ [id]) :=
        if_neg (not_le.mpr (above id List.mem_cons_self))
      obtain ⟨last, ran⟩ := ih (id, state.2 ++ [id]) rest
      refine ⟨last, ?_⟩
      rw [List.foldlM_cons, stepped]
      change ids.foldlM bulkIdStep (id, state.2 ++ [id]) = _
      rw [ran]
      simp

/-- The ids of the file are stored as they are. -/
theorem boundary_fold_increasing {ids : List ℤ} (state : ℤ × List ℤ)
    (increasing : (state.1 :: ids).Pairwise (· < ·)) (natural : ∀ id ∈ ids, 0 ≤ id) :
    ∃ final, ids.foldlM boundaryIdStep state = .ok final := by
  induction ids generalizing state with
  | nil => exact ⟨state, rfl⟩
  | cons id ids ih =>
      obtain ⟨above, rest⟩ := List.pairwise_cons.mp increasing
      have stepped : boundaryIdStep state id = .ok (id, state.2 ++ [id]) := by
        unfold boundaryIdStep
        rw [if_neg (not_lt.mpr (natural id List.mem_cons_self))]
        exact if_neg (not_le.mpr (above id List.mem_cons_self))
      obtain ⟨final, ran⟩ := ih (id, state.2 ++ [id]) rest
        fun other member => natural other (List.mem_cons_of_mem _ member)
      refine ⟨final, ?_⟩
      rw [List.foldlM_cons, stepped]
      exact ran

theorem boundary_fold_created {ids : List ℤ} (state : ℤ × List ℤ)
    (created : ∀ id ∈ ids, id < 0) : ∃ final, ids.foldlM boundaryIdStep state = .ok final := by
  induction ids generalizing state with
  | nil => exact ⟨state, rfl⟩
  | cons id ids ih =>
      have stepped : boundaryIdStep state id = .ok (-1, state.2 ++ [-1]) :=
        if_pos (created id List.mem_cons_self)
      obtain ⟨final, ran⟩ := ih (-1, state.2 ++ [-1])
        fun other member => created other (List.mem_cons_of_mem _ member)
      refine ⟨final, ?_⟩
      rw [List.foldlM_cons, stepped]
      exact ran

section Maps

variable {mesh : Mesh} {topology : Topology}

theorem elements_id_maps_bulk {stored : List ℤ}
    (ran : mesh.elementsIdMaps topology false = .ok stored) :
    stored = mesh.element.map Element.id := by
  obtain ⟨bulk, bulkRan, ran⟩ := bind_ok ran
  obtain ⟨boundary, -, ran⟩ := bind_ok ran
  cases ran
  simpa using bulk_fold_values bulkRan

theorem elements_id_maps_boundary {stored : List ℤ}
    (ran : mesh.elementsIdMaps topology true = .ok stored) :
    stored = (topology.bcElements.map Element.id).map storedId := by
  obtain ⟨bulk, -, ran⟩ := bind_ok ran
  obtain ⟨boundary, boundaryRan, ran⟩ := bind_ok ran
  cases ran
  simpa using boundary_fold_values boundaryRan

/-- The conversion to signed numbers keeps the ids that fit. -/
theorem FileIds.read_eq_iff (ids : List (BitVec 32)) :
    (ids.map BitVec.toInt = ids.map fun id => (id.toNat : ℤ)) ↔ ∀ id ∈ ids, id.toNat < 2 ^ 31 := by
  rw [List.map_inj_left]
  refine forall₂_congr fun id _ => ?_
  rw [BitVec.toInt_eq_toNat_cond]
  have range := id.isLt
  split_ifs with small <;> omega

theorem FileIds.stored_eq_iff (ids : List (BitVec 32)) :
    ((ids.map BitVec.toInt).map storedId = ids.map fun id => (id.toNat : ℤ)) ↔
      ∀ id ∈ ids, id.toNat < 2 ^ 31 := by
  rw [List.map_map, List.map_inj_left]
  refine forall₂_congr fun id _ => ?_
  have range := id.isLt
  rw [Function.comp_apply, storedId, BitVec.toInt_eq_toNat_cond]
  by_cases small : 2 * id.toNat < 2 ^ 32
  · rw [if_pos small, if_neg (by omega)]
    exact iff_of_true rfl (by omega)
  · rw [if_neg small, if_pos (by omega)]
    omega

theorem FileIds.read_increasing {ids : List (BitVec 32)}
    (increasing : ids.Pairwise fun id other => id.toNat < other.toNat)
    (fits : ∀ id ∈ ids, id.toNat < 2 ^ 31) :
    (-1 :: ids.map BitVec.toInt).Pairwise (· < ·) := by
  rw [(FileIds.read_eq_iff ids).mpr fits, List.pairwise_cons, List.pairwise_map]
  constructor
  · intro id member
    obtain ⟨unsigned, -, rfl⟩ := List.mem_map.mp member
    omega
  · exact increasing.imp fun less => by exact_mod_cast less

theorem created_ids_iff (first created : ℕ) :
    (((List.range created).map fun j => -((first + j : ℕ) : ℤ)).map storedId =
      List.replicate created (-1)) ↔ (0 < created → 0 < first) := by
  rw [List.map_map]
  constructor
  · intro stored positive
    have lookup := congrArg (fun ids => ids[0]?) stored
    by_contra zero
    have start : first = 0 := by omega
    simp [positive, start, storedId] at lookup
  · intro numbered
    rw [List.eq_replicate_iff]
    refine ⟨by simp, fun id member => ?_⟩
    obtain ⟨j, below, rfl⟩ := List.mem_map.mp member
    have positive := numbered (by have := List.mem_range.mp below; omega)
    exact if_pos (by dsimp only; omega)

theorem bulk_map_iff (ids : FileIds mesh)
    (boundary : ∃ final, (topology.bcElements.map Element.id).foldlM boundaryIdStep (-1, []) =
      .ok final) :
    mesh.elementsIdMaps topology false = .ok (ids.bulk.map fun id => (id.toNat : ℤ)) ↔
      ∀ id ∈ ids.bulk, id.toNat < 2 ^ 31 := by
  rw [← FileIds.read_eq_iff, ← ids.bulkRead]
  constructor
  · intro ran
    exact (elements_id_maps_bulk ran).symm
  · intro same
    have fits := (FileIds.read_eq_iff ids.bulk).mp (ids.bulkRead ▸ same)
    obtain ⟨last, filled⟩ := bulk_fold_increasing (-1, [])
      (ids.bulkRead ▸ FileIds.read_increasing ids.bulkIncreasing fits)
    obtain ⟨final, created⟩ := boundary
    unfold elementsIdMaps
    rw [filled, created, ← same]
    rfl

end Maps

/-- The maps are right exactly when the ids fit into signed integers and, where boundary elements
were created, some boundary element of the file lies on a bulk element. -/
theorem mapsIds_iff {mesh : Mesh} (ids : FileIds mesh) {topology : Topology}
    (ran : mesh.makeNeighboursAndEdges = .ok topology) :
    mesh.MapsIds ids topology ↔
      (∀ id ∈ ids.bulk ++ ids.boundary, id.toNat < 2 ^ 31) ∧
        (mesh.bcElements.length < topology.bcElements.length →
          ∃ bc_ele ∈ mesh.bcElements, mesh.Touches bc_ele) := by
  obtain ⟨first, created, numbered, touched⟩ := make_neighbours_and_edges_numbered ran
  have lengths := congrArg List.length numbered.ids
  simp only [List.length_map, List.length_append, List.length_range] at lengths
  have more : topology.bcElements.length - mesh.bcElements.length = created := by omega
  have some_created : mesh.bcElements.length < topology.bcElements.length ↔ 0 < created := by
    omega
  have stored : (topology.bcElements.map Element.id).map storedId =
      (ids.boundary.map BitVec.toInt).map storedId ++
        ((List.range created).map fun j => -((first + j : ℕ) : ℤ)).map storedId := by
    rw [numbered.ids, List.map_append, ids.boundaryRead]
  have right : ((topology.bcElements.map Element.id).map storedId =
      (ids.boundary.map fun id => (id.toNat : ℤ)) ++ List.replicate created (-1)) ↔
      (∀ id ∈ ids.boundary, id.toNat < 2 ^ 31) ∧ (0 < created → 0 < first) := by
    rw [stored, ← FileIds.stored_eq_iff, ← created_ids_iff]
    exact ⟨fun same => List.append_inj same (by simp), fun same => by rw [same.1, same.2]⟩
  rw [some_created, ← touched]
  simp only [List.mem_append, or_imp, forall_and]
  constructor
  · intro maps
    have boundary := right.mp
      ((elements_id_maps_boundary maps.boundary).symm.trans (by rw [more]))
    refine ⟨⟨?_, boundary.1⟩, boundary.2⟩
    rw [← FileIds.read_eq_iff, ← ids.bulkRead]
    exact (elements_id_maps_bulk maps.bulk).symm
  · rintro ⟨⟨bulkFits, boundaryFits⟩, numberedFrom⟩
    -- the ids of the file are stored first, then those of the created elements
    have filled : ∃ final, (topology.bcElements.map Element.id).foldlM boundaryIdStep (-1, []) =
        .ok final := by
      rw [numbered.ids, List.foldlM_append]
      obtain ⟨middle, read⟩ := boundary_fold_increasing (-1, [])
        (ids.boundaryRead ▸ FileIds.read_increasing ids.boundaryIncreasing boundaryFits) (by
          rw [ids.boundaryRead, (FileIds.read_eq_iff ids.boundary).mpr boundaryFits]
          intro id member
          obtain ⟨unsigned, -, rfl⟩ := List.mem_map.mp member
          omega)
      have negative : ∀ id ∈ (List.range created).map fun j => -((first + j : ℕ) : ℤ), id < 0 := by
        intro id member
        obtain ⟨j, below, rfl⟩ := List.mem_map.mp member
        have positive := numberedFrom (by have := List.mem_range.mp below; omega)
        omega
      obtain ⟨final, appended⟩ := boundary_fold_created middle negative
      exact ⟨final, by rw [read]; exact appended⟩
    refine ⟨(bulk_map_iff ids filled).mpr bulkFits, ?_⟩
    obtain ⟨bulkFinal, bulkFilled⟩ := bulk_fold_increasing (-1, [])
      (ids.bulkRead ▸ FileIds.read_increasing ids.bulkIncreasing bulkFits)
    obtain ⟨final, boundaryFilled⟩ := filled
    rw [more, ← right.mpr ⟨boundaryFits, numberedFrom⟩]
    have values := boundary_fold_values boundaryFilled
    unfold elementsIdMaps
    rw [bulkFilled, boundaryFilled]
    exact congrArg Except.ok (values.trans (List.nil_append _))

/-- A triangle with one of its sides as a boundary element. -/
def boundedTriangle : Mesh where
  nodeVector := [![0, 0, 0], ![1, 0, 0], ![0, 1, 0]]
  element := [⟨1, 2, ![0, 1, 2], Element.triangle_dimLe⟩]
  bcElements := [⟨2, 1, ![0, 1], Element.line_dimLe⟩]
  bulkDim := Mesh.unitTriangle.bulkDim

theorem mapsIds_boundedTriangle : ∃ (ids : FileIds boundedTriangle) (topology : Topology),
    boundedTriangle.makeNeighboursAndEdges = .ok topology ∧
      (boundedTriangle.MapsIds ids topology ↔
        (∀ id ∈ ids.bulk ++ ids.boundary, id.toNat < 2 ^ 31) ∧
          (boundedTriangle.bcElements.length < topology.bcElements.length →
            ∃ bc_ele ∈ boundedTriangle.bcElements, boundedTriangle.Touches bc_ele)) :=
  ⟨⟨[1], [2], by decide, by decide, rfl, rfl⟩, _, rfl, mapsIds_iff _ rfl⟩

/-- A triangle alone. -/
def bareTriangle : Mesh where
  nodeVector := [![0, 0, 0], ![1, 0, 0], ![0, 1, 0]]
  element := [⟨1, 2, ![0, 1, 2], Element.triangle_dimLe⟩]
  bcElements := []
  bulkDim := Mesh.unitTriangle.bulkDim

/-- The first boundary element created gets the id 0, which is taken for one of the file. -/
theorem not_always_mapsIds : ¬ ∀ (mesh : Mesh) (ids : FileIds mesh) (topology : Topology),
    mesh.makeNeighboursAndEdges = .ok topology → mesh.MapsIds ids topology := by
  intro always
  have maps := always bareTriangle ⟨[1], [], by decide, by decide, rfl, rfl⟩ _ rfl
  have stored := maps.boundary
  revert stored
  decide

end Mesh

end Flow123d
