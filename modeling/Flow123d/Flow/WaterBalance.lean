import Flow123d.Flow.AcceptedMesh
import Flow123d.Flow.BoundaryFlux
import Flow123d.Mesh.RegionSets

/-!
# The water balance

`DarcyFlowMHOutput::water_balance` sums the fluxes over the boundaries and the sources over the
elements, both by regions. The region sets of the input keep the default sets.
-/

set_option autoImplicit false

namespace Flow123d

open Flow123d.Library

/-- `Boundary::side`. -/
def Topology.boundarySide (topology : Topology) (bdr : Boundary) : Except String SideIter :=
  match topology.edges[bdr.edgeIdx]?.map fun edge => (edge.nSides, edge.side) with
  | some (1, some si :: _) => .ok si
  | _ => .error "Using side method for boundary, but there is boundary with multiple sides.\n"

/-- The regions of the elements, in the database that the setup of the mesh closes. -/
structure MeshRegions (setup : AcceptedMesh) where
  requests : List RegionDB.AddRegion
  opened : RegionDB
  added : RegionDB.init.addEach requests = .ok opened
  element : Fin setup.mesh.element.length → RegionIdx
  bulk : ∀ elm, opened.Exists (element elm) ∧ (element elm).isBoundary = false
  bcElement : ℕ → RegionIdx
  boundary : ∀ bdr ∈ setup.topology.boundary,
    opened.Exists (bcElement bdr.bcEleIdx) ∧ (bcElement bdr.bcEleIdx).isBoundary = true

/-- Sums for every region, of all fluxes, of those out and of those in. -/
structure RegionBalances where
  balance : ℕ → ℚ
  plus : ℕ → ℚ
  minus : ℕ → ℚ

def RegionBalances.zero : RegionBalances := ⟨fun _ => 0, fun _ => 0, fun _ => 0⟩

def addToRegion (balance : ℕ → ℚ) (region : ℕ) (value : ℚ) : ℕ → ℚ :=
  Function.update balance region (balance region + value)

def RegionBalances.add (balances : RegionBalances) (region : ℕ) (flux : ℚ) : RegionBalances :=
  let added := { balances with balance := addToRegion balances.balance region flux }
  if flux > 0 then { added with plus := addToRegion balances.plus region flux }
  else { added with minus := addToRegion balances.minus region flux }

/-- The totals that are reported. -/
structure WaterTotals where
  balance : ℚ
  outflow : ℚ
  inflow : ℚ
  sources : ℚ

namespace MeshRegions

variable {setup : AcceptedMesh} (regions : MeshRegions setup)

def db : RegionDB := regions.opened.close

def regionSet (setName : String) : Except String RegionSet :=
  match regions.db.getRegionSet setName with
  | some set => .ok set
  | none => .error ("No region set with name: " ++ setName ++ "\n")

variable {measures : Measures} (data : FlowData (setup.flowMesh measures))
  (x : (setup.flowMesh measures).Row → ℚ)

instance (si : SideIter) : Decidable (setup.mesh.IsSide si) :=
  decidable_of_iff (setup.mesh.element[si.element]?.any fun ele => si.elIdx < ele.nSides) (by
    cases lookup : setup.mesh.element[si.element]? <;> simp [Mesh.IsSide, lookup])

/-- `MH_DofHandler::side_flux`. -/
def sideFlux (x : (setup.flowMesh measures).Row → ℚ) (si : SideIter) : ℚ :=
  if isSide : setup.mesh.IsSide si then x (.side (AcceptedMesh.toSide si isSide)) else 0

def addBoundaryFlux (balances : RegionBalances) (bdr : Boundary) :
    Except String RegionBalances := do
  let si ← setup.topology.boundarySide bdr
  .ok (balances.add (regions.bcElement bdr.bcEleIdx).boundaryIdx (sideFlux x si))

def source (elm : Fin setup.mesh.element.length) : ℚ := data.elementSource elm

/-- The sources by regions. -/
def srcBalance : ℕ → ℚ :=
  (List.finRange setup.mesh.element.length).foldl (fun balance elm =>
    addToRegion balance (regions.element elm).bulkIdx (source data elm)) fun _ => 0

def waterBalance : Except String WaterTotals := do
  let bcd ← setup.topology.boundary.foldlM (regions.addBoundaryFlux x) .zero
  let b_set ← regions.regionSet "BOUNDARY"
  let bulk_set ← regions.regionSet "BULK"
  .ok
    { balance := (b_set.map fun reg => bcd.balance reg.boundaryIdx).sum
      outflow := (b_set.map fun reg => bcd.plus reg.boundaryIdx).sum
      inflow := (b_set.map fun reg => bcd.minus reg.boundaryIdx).sum
      sources := (bulk_set.map fun reg => regions.srcBalance data reg.bulkIdx).sum }

/-! ## Sums by regions -/

theorem addToRegion_apply (balance : ℕ → ℚ) (region other : ℕ) (value : ℚ) :
    addToRegion balance region value other =
      balance other + if region = other then value else 0 := by
  unfold addToRegion
  by_cases here : region = other
  · subst here
    simp
  · rw [Function.update_of_ne (Ne.symm here), if_neg here, add_zero]

theorem balance_add (balances : RegionBalances) (region other : ℕ) (flux : ℚ) :
    (balances.add region flux).balance other =
      balances.balance other + if region = other then flux else 0 := by
  rw [← addToRegion_apply]
  unfold RegionBalances.add
  dsimp only
  split_ifs <;> rfl

/-- The flux that the balance takes for a boundary. -/
def bdrFlux (x : (setup.flowMesh measures).Row → ℚ) (bdr : Boundary) : ℚ :=
  (setup.topology.boundarySide bdr).toOption.elim 0 (sideFlux x)

theorem balance_loop {bdrs : List Boundary} {start final : RegionBalances}
    (ran : bdrs.foldlM (regions.addBoundaryFlux x) start = .ok final) (region : ℕ) :
    final.balance region = start.balance region +
      ((bdrs.filter fun bdr => (regions.bcElement bdr.bcEleIdx).boundaryIdx = region).map
        (bdrFlux x)).sum := by
  induction bdrs generalizing start with
  | nil =>
      cases ran
      simp
  | cons bdr rest ih =>
      rw [List.foldlM_cons] at ran
      obtain ⟨middle, first, later⟩ := bind_ok ran
      obtain ⟨si, found, added⟩ := bind_ok first
      cases added
      have flux : bdrFlux x bdr = sideFlux x si := by simp [bdrFlux, found, Except.toOption]
      rw [ih later, balance_add, List.filter_cons]
      by_cases here : (regions.bcElement bdr.bcEleIdx).boundaryIdx = region
      · simp [here, flux, add_assoc]
      · simp [here]

theorem boundary_loop_iff {bdrs : List Boundary} {start : RegionBalances} :
    (∃ final, bdrs.foldlM (regions.addBoundaryFlux x) start = .ok final) ↔
      ∀ bdr ∈ bdrs, ∃ si, setup.topology.boundarySide bdr = .ok si := by
  induction bdrs generalizing start with
  | nil => simp [pure, Except.pure]
  | cons bdr rest ih =>
      rw [List.forall_mem_cons, List.foldlM_cons]
      constructor
      · rintro ⟨final, ran⟩
        obtain ⟨middle, first, later⟩ := bind_ok ran
        obtain ⟨si, found, _⟩ := bind_ok first
        exact ⟨⟨si, found⟩, ih.mp ⟨final, later⟩⟩
      · rintro ⟨⟨si, found⟩, others⟩
        unfold addBoundaryFlux
        rw [found]
        exact ih.mpr others

theorem srcBalance_eq (region : ℕ) :
    regions.srcBalance data region =
      (((List.finRange setup.mesh.element.length).filter fun elm =>
        (regions.element elm).bulkIdx = region).map (source data)).sum := by
  have loop : ∀ (elements : List (Fin setup.mesh.element.length)) (start : ℕ → ℚ),
      elements.foldl (fun balance elm => addToRegion balance (regions.element elm).bulkIdx
        (source data elm)) start region = start region +
          ((elements.filter fun elm => (regions.element elm).bulkIdx = region).map
            (source data)).sum := by
    intro elements
    induction elements with
    | nil => simp
    | cons elm rest ih =>
        intro start
        rw [List.foldl_cons, ih, addToRegion_apply, List.filter_cons]
        by_cases here : (regions.element elm).bulkIdx = region
        · simp [here, add_assoc]
        · simp [here]
  unfold srcBalance
  rw [loop, zero_add]

theorem growing : RegionDB.Growing regions.opened :=
  (RegionDB.addEach_growing regions.requests).of_ok regions.added

theorem regionSet_eq_ok {setName : String} {set : RegionSet} :
    regions.regionSet setName = .ok set ↔ regions.db.sets setName = some set := by
  unfold regionSet RegionDB.getRegionSet
  cases regions.db.sets setName <;> simp

/-- The set of all regions of one kind, which have different indices. -/
theorem regionSet_spec {setName : String} {kind : Bool} {set : RegionSet}
    (isDefault : regions.db.DefaultSet setName fun reg =>
      regions.db.Exists reg ∧ reg.isBoundary = kind)
    (found : regions.regionSet setName = .ok set) :
    (∀ reg, reg ∈ set ↔ regions.db.Exists reg ∧ reg.isBoundary = kind) ∧
      (set.map fun reg => reg.idx / 2).Nodup := by
  have known := regions.regionSet_eq_ok.mp found
  have members : ∀ reg, reg ∈ set ↔ regions.db.Exists reg ∧ reg.isBoundary = kind := by
    intro reg
    rw [← regions.growing.inSet_default isDefault reg]
    constructor
    · exact fun listed => ⟨set, known, listed⟩
    · rintro ⟨other, same, listed⟩
      cases known.symm.trans same
      exact listed
  refine ⟨members, ((regions.growing.tidy_close setName set known).1).map_on ?_⟩
  intro reg isFirst other isSecond same
  have first := ((members reg).mp isFirst).2
  have second := ((members other).mp isSecond).2
  rw [← second] at first
  unfold RegionIdx.isBoundary at first
  cases reg
  cases other
  simp only [RegionIdx.mk.injEq] at first same ⊢
  have parity := Bool.eq_iff_iff.mp first
  simp only [beq_iff_eq] at parity
  omega

/-- A default set is there as soon as there is a region for it. -/
theorem regionSet_isOk {setName : String} {members : RegionIdx → Prop}
    (isDefault : regions.db.DefaultSet setName members) :
    (∃ set, regions.regionSet setName = .ok set) ↔ ∃ reg, members reg := by
  simp only [regions.regionSet_eq_ok, ← regions.growing.inSet_default isDefault]
  constructor
  · rintro ⟨set, known⟩
    obtain ⟨reg, listed⟩ :=
      List.exists_mem_of_ne_nil set (regions.growing.tidy_close setName set known).2
    exact ⟨reg, set, known, listed⟩
  · rintro ⟨reg, set, known, _⟩
    exact ⟨set, known⟩

theorem exists_iff (reg : RegionIdx) : regions.db.Exists reg ↔ regions.opened.Exists reg := by
  unfold RegionDB.Exists db
  rw [(RegionDB.SameRegions.close regions.opened).regionSet]

/-! ## Totals -/

theorem sources_total {bulk_set : RegionSet} (found : regions.regionSet "BULK" = .ok bulk_set) :
    (bulk_set.map fun reg => regions.srcBalance data reg.bulkIdx).sum =
      ∑ elm, data.elementSource elm := by
  obtain ⟨members, distinct⟩ := regions.regionSet_spec .bulk found
  have groups := sum_listed_groups distinct (List.finRange setup.mesh.element.length)
    (fun elm => (regions.element elm).bulkIdx) (source data) (by
      intro elm _
      refine List.mem_map.mpr ⟨regions.element elm, (members _).mpr ?_, rfl⟩
      exact ⟨(regions.exists_iff _).mpr (regions.bulk elm).1, (regions.bulk elm).2⟩)
  rw [List.map_map] at groups
  simp only [srcBalance_eq]
  exact groups.trans (sum_finRange _)

theorem boundary_total {bcd : RegionBalances} {b_set : RegionSet}
    (ran : setup.topology.boundary.foldlM (regions.addBoundaryFlux x) .zero = .ok bcd)
    (found : regions.regionSet "BOUNDARY" = .ok b_set) :
    (b_set.map fun reg => bcd.balance reg.boundaryIdx).sum =
      (setup.topology.boundary.map (bdrFlux x)).sum := by
  obtain ⟨members, distinct⟩ := regions.regionSet_spec .boundary found
  have groups := sum_listed_groups distinct setup.topology.boundary
    (fun bdr => (regions.bcElement bdr.bcEleIdx).boundaryIdx) (bdrFlux x) (by
      intro bdr member
      refine List.mem_map.mpr ⟨regions.bcElement bdr.bcEleIdx, (members _).mpr ?_, rfl⟩
      obtain ⟨exists_, kind⟩ := regions.boundary bdr member
      exact ⟨(regions.exists_iff _).mpr exists_, kind⟩)
  rw [List.map_map] at groups
  rw [← groups]
  refine congrArg List.sum (List.map_congr_left fun reg _ => ?_)
  rw [regions.balance_loop x ran]
  exact zero_add _

end MeshRegions

/-! ## Sides of boundaries -/

theorem Topology.boundarySide_eq_ok {topology : Topology} {bdr : Boundary} {si : SideIter} :
    topology.boundarySide bdr = .ok si ↔ ∃ edge, topology.edges[bdr.edgeIdx]? = some edge ∧
      edge.nSides = 1 ∧ edge.side.head? = some (some si) := by
  unfold boundarySide
  constructor
  · intro found
    split at found
    case h_1 other rest lookup =>
      cases found
      obtain ⟨edge, here, same⟩ := Option.map_eq_some_iff.mp lookup
      simp only [Prod.mk.injEq] at same
      exact ⟨edge, here, same.1, by rw [same.2]; rfl⟩
    case h_2 => cases found
  · rintro ⟨edge, here, one, first⟩
    cases sides : edge.side with
    | nil => simp [sides] at first
    | cons head rest =>
        simp only [sides, List.head?_cons, Option.some.injEq] at first
        simp [here, one, sides, first]

/-- The boundaries with the one side that the balance needs. -/
def Topology.SingleSided (topology : Topology) : Prop :=
  ∀ bdr ∈ topology.boundary, ∃ edge, topology.edges[bdr.edgeIdx]? = some edge ∧
    edge.nSides = 1

namespace AcceptedMesh

variable (setup : AcceptedMesh)

theorem valid : setup.topology.Valid := by
  obtain ⟨middle, boundary, sides⟩ := bind_ok setup.accepted
  exact (side_loop_spec (boundary_loop_spec boundary).1 sides).1.valid

variable {setup}

/-- The only side of a boundary is the only one on the list of its edge. -/
theorem sides_of_boundarySide {bdr : Boundary} {si : SideIter}
    (found : setup.topology.boundarySide bdr = .ok si) :
    ∃ edge, setup.topology.edges[bdr.edgeIdx]? = some edge ∧ edge.sides = [si] := by
  obtain ⟨edge, here, one, first⟩ := Topology.boundarySide_eq_ok.mp found
  have wellFormed := setup.valid.wellFormed edge (List.mem_of_getElem? here)
  refine ⟨edge, here, ?_⟩
  have length : edge.sides.length = 1 := by rw [← wellFormed.countUsed, one]
  obtain ⟨only, sides⟩ := List.length_eq_one_iff.mp length
  have shape := wellFormed.prefixUsed
  rw [sides] at shape
  rw [shape] at first
  simp only [List.map_cons, List.map_nil, List.cons_append, List.head?_cons,
    Option.some.injEq] at first
  rw [sides, first]

theorem singleSided_iff : setup.topology.SingleSided ↔
    ∀ bdr ∈ setup.topology.boundary, ∃ si, setup.topology.boundarySide bdr = .ok si := by
  refine forall₂_congr fun bdr _ => ?_
  constructor
  · rintro ⟨edge, here, one⟩
    have wellFormed := setup.valid.wellFormed edge (List.mem_of_getElem? here)
    obtain ⟨only, sides⟩ := List.length_eq_one_iff.mp (wellFormed.countUsed.symm.trans one)
    refine ⟨only, Topology.boundarySide_eq_ok.mpr ⟨edge, here, one, ?_⟩⟩
    rw [wellFormed.prefixUsed, sides]
    rfl
  · rintro ⟨si, found⟩
    obtain ⟨edge, here, one, _⟩ := Topology.boundarySide_eq_ok.mp found
    exact ⟨edge, here, one⟩

/-- With boundary elements apart a side is on the list of its own edge only. -/
theorem edgeIdx_of_listed (apart : setup.mesh.BoundaryElementsApart) {k : ℕ} {edge : Edge}
    {si : SideIter} (here : setup.topology.edges[k]? = some edge) (listed : si ∈ edge.sides) :
    setup.topology.edgeIdx si = some k := by
  have onEdges := (Mesh.sidesOnEdges_iff setup.accepted).mpr apart
  obtain ⟨keys, placed⟩ := setup.placed
  have isSide : ∀ other ∈ setup.topology.listed, setup.mesh.IsSide other := by
    intro other member
    obtain ⟨position, defined⟩ :=
      Option.isSome_iff_exists.mp (setup.valid.listedDefined other member)
    exact (placed.onEdge other position defined).1
  have distinct : setup.topology.listed.Nodup := by
    rw [List.nodup_iff_count_le_one]
    intro other
    by_cases member : other ∈ setup.topology.listed
    · exact (onEdges.once other (isSide other member)).le
    · rw [List.count_eq_zero_of_not_mem member]
      exact Nat.zero_le 1
  have inList := List.mem_flatMap.mpr ⟨edge, List.mem_of_getElem? here, listed⟩
  obtain ⟨own, ownEdge, defined, there, ownListed⟩ := onEdges.onEdge si (isSide si inList)
  rw [defined]
  have apartEdges := List.pairwise_iff_getElem.mp (List.nodup_flatMap.mp distinct).2
  obtain ⟨first, rfl⟩ := List.getElem?_eq_some_iff.mp here
  obtain ⟨second, rfl⟩ := List.getElem?_eq_some_iff.mp there
  obtain less | rfl | greater := Nat.lt_trichotomy own k
  · exact absurd listed (apartEdges own k second first less ownListed)
  · rfl
  · exact absurd ownListed (apartEdges k own first second greater listed)

theorem bounded (setup : AcceptedMesh) (measures : Measures) :
    (setup.flowMesh measures).Bounded := by
  obtain ⟨keys, placed⟩ := setup.placed
  constructor
  · intro (side : setup.Side) (other : setup.Side) (same : side.edgeIdx = other.edgeIdx)
      (open_ : setup.topology.condIdx side.iter = none)
    change setup.topology.condIdx other.iter = none
    cases cond : setup.topology.condIdx other.iter with
    | none => rfl
    | some b =>
        obtain ⟨bdr, _, found, edge, _⟩ := placed.onBoundary _ b cond
        rw [other.edgeIdx_eq, ← same, ← side.edgeIdx_eq] at edge
        rw [placed.covered _ b bdr found edge] at open_
        cases open_
  · intro (elm : Fin setup.mesh.element.length) ngh (member : ngh ∈ setup.neighVb elm)
      (side : setup.Side) (own : side.edgeIdx = ngh.edgeIdx)
    obtain ⟨listed, _⟩ := List.mem_filter.mp member
    obtain ⟨stored, isStored, rfl⟩ := List.mem_pmap.mp listed
    change setup.topology.condIdx side.iter = none
    cases cond : setup.topology.condIdx side.iter with
    | none => rfl
    | some b =>
        obtain ⟨bdr, _, found, edge, _⟩ := placed.onBoundary _ b cond
        rw [side.edgeIdx_eq, own] at edge
        exact absurd (Option.some.inj edge).symm
          (placed.coupled stored isStored bdr (List.mem_of_getElem? found))

variable {measures : Measures}

/-- A boundary takes the flux through the sides that know it. -/
theorem sum_of_boundary (apart : setup.mesh.BoundaryElementsApart)
    (x : (setup.flowMesh measures).Row → ℚ) {b : ℕ} {bdr : Boundary} {si : SideIter}
    (stored : setup.topology.boundary[b]? = some bdr)
    (found : setup.topology.boundarySide bdr = .ok si) :
    (∑ side : setup.Side, if setup.topology.condIdx side.iter = some b then
      x (.side side) else 0) = MeshRegions.bdrFlux x bdr := by
  obtain ⟨keys, placed⟩ := setup.placed
  obtain ⟨edge, here, sides⟩ := sides_of_boundarySide found
  have listed : si ∈ edge.sides := by simp [sides]
  have own := edgeIdx_of_listed apart here listed
  have isSide := (placed.onEdge si _ own).1
  have only : ∀ side : setup.Side, setup.topology.condIdx side.iter = some b ↔
      side = toSide si isSide := by
    intro side
    constructor
    · intro cond
      obtain ⟨other, _, same, edgeIdx, _⟩ := placed.onBoundary _ b cond
      rw [stored] at same
      cases same
      obtain ⟨own', lookup, listed⟩ := setup.valid.definedListed _ _ edgeIdx
      rw [here] at lookup
      cases lookup
      rw [sides, List.mem_singleton] at listed
      cases side
      cases listed
      rfl
    · rintro rfl
      exact placed.covered si b bdr stored own
  have flux : MeshRegions.bdrFlux x bdr = x (.side (toSide si isSide)) := by
    simp [MeshRegions.bdrFlux, found, Except.toOption, MeshRegions.sideFlux, isSide]
  simp only [only, flux]
  exact Finset.sum_ite_eq' Finset.univ _ _ |>.trans (if_pos (Finset.mem_univ _))

/-- All boundaries take the fluxes through the sides with a boundary. -/
theorem sum_bdrFlux (apart : setup.mesh.BoundaryElementsApart)
    (single : setup.topology.SingleSided) (x : (setup.flowMesh measures).Row → ℚ) :
    (setup.topology.boundary.map (MeshRegions.bdrFlux x)).sum =
      ∑ side, FlowData.boundaryFlux x side := by
  have perBoundary : ∀ b : Fin setup.topology.boundary.length,
      MeshRegions.bdrFlux x setup.topology.boundary[b.val] =
        ∑ side : setup.Side, if setup.topology.condIdx side.iter = some b.val then
          x (.side side) else 0 := by
    intro b
    obtain ⟨si, found⟩ := singleSided_iff.mp single _ (List.getElem_mem b.isLt)
    exact (sum_of_boundary apart x (List.getElem?_eq_getElem b.isLt) found).symm
  have perSide : ∀ side : setup.Side,
      (∑ b : Fin setup.topology.boundary.length,
        if setup.topology.condIdx side.iter = some b.val then x (.side side) else 0) =
          FlowData.boundaryFlux x side := by
    intro side
    change _ = if setup.topology.condIdx side.iter = none then 0 else x (.side side)
    cases cond : setup.topology.condIdx side.iter with
    | none => simp
    | some b =>
        obtain ⟨keys, placed⟩ := setup.placed
        obtain ⟨bdr, _, stored, _⟩ := placed.onBoundary _ b cond
        have bound := (List.getElem?_eq_some_iff.mp stored).1
        rw [Finset.sum_eq_single ⟨b, bound⟩]
        · simp
        · intro other _ different
          refine if_neg fun same => different (Fin.ext ?_)
          exact (Option.some.inj same).symm
        · exact fun absent => absurd (Finset.mem_univ _) absent
  rw [← Fin.sum_univ_fun_getElem, Finset.sum_congr rfl fun b _ => perBoundary b,
    Finset.sum_comm]
  exact Finset.sum_congr rfl fun side _ => perSide side

end AcceptedMesh

namespace MeshRegions

variable {setup : AcceptedMesh}

/-- The balance is reported when every boundary has one side and both default sets are there.
Then every solution closes it, if no two boundary elements lie on one side. -/
theorem waterBalance_closes (regions : MeshRegions setup) {measures : Measures}
    {data : FlowData (setup.flowMesh measures)}
    {system : FlowSystem (setup.flowMesh measures)}
    (assembled : DarcyFlowMHSteady.assemblySteadyMhMatrix data = .ok system)
    {x : (setup.flowMesh measures).Row → ℚ} (solves : system.matrix.mulVec x = system.rhs) :
    ((∃ totals, regions.waterBalance data x = .ok totals) ↔
      setup.topology.SingleSided ∧
        (∃ reg, regions.opened.Exists reg ∧ reg.isBoundary = true) ∧
          ∃ reg, regions.opened.Exists reg ∧ reg.isBoundary = false) ∧
      (setup.mesh.BoundaryElementsApart → ∀ totals,
        regions.waterBalance data x = .ok totals → totals.balance = totals.sources) := by
  have completes : (∃ totals, regions.waterBalance data x = .ok totals) ↔
      (∃ bcd, setup.topology.boundary.foldlM (regions.addBoundaryFlux x) .zero = .ok bcd) ∧
        (∃ set, regions.regionSet "BOUNDARY" = .ok set) ∧
          ∃ set, regions.regionSet "BULK" = .ok set := by
    constructor
    · rintro ⟨totals, returned⟩
      obtain ⟨bcd, ran, rest⟩ := bind_ok returned
      obtain ⟨b_set, boundary, rest⟩ := bind_ok rest
      obtain ⟨bulk_set, bulk, _⟩ := bind_ok rest
      exact ⟨⟨bcd, ran⟩, ⟨b_set, boundary⟩, bulk_set, bulk⟩
    · rintro ⟨⟨bcd, ran⟩, ⟨b_set, boundary⟩, bulk_set, bulk⟩
      unfold waterBalance
      rw [ran, boundary, bulk]
      exact ⟨_, rfl⟩
  have known : ∀ kind, (∃ reg, regions.db.Exists reg ∧ reg.isBoundary = kind) ↔
      ∃ reg, regions.opened.Exists reg ∧ reg.isBoundary = kind := fun kind =>
    exists_congr fun reg => and_congr_left fun _ => regions.exists_iff reg
  constructor
  · rw [completes, boundary_loop_iff, ← AcceptedMesh.singleSided_iff,
      regions.regionSet_isOk .boundary, regions.regionSet_isOk .bulk, known, known]
  · intro apart totals returned
    have single := AcceptedMesh.singleSided_iff.mpr
      ((boundary_loop_iff regions x).mp (completes.mp ⟨totals, returned⟩).1)
    obtain ⟨bcd, ran, rest⟩ := bind_ok returned
    obtain ⟨b_set, boundary, rest⟩ := bind_ok rest
    obtain ⟨bulk_set, bulk, rest⟩ := bind_ok rest
    cases rest
    have solution : (DarcyFlowMHSteady.assembledMatrix data).mulVec x =
        DarcyFlowMHSteady.assembledRhs data := by
      unfold DarcyFlowMHSteady.assemblySteadyMhMatrix at assembled
      split_ifs at assembled
      cases assembled
      exact solves
    calc (b_set.map fun reg => bcd.balance reg.boundaryIdx).sum
        = (setup.topology.boundary.map (bdrFlux x)).sum :=
          regions.boundary_total x ran boundary
      _ = ∑ side, FlowData.boundaryFlux x side := AcceptedMesh.sum_bdrFlux apart single x
      _ = ∑ elm, data.elementSource elm :=
          FlowData.sum_boundaryFlux (setup.bounded measures) solution
      _ = (bulk_set.map fun reg => regions.srcBalance data reg.bulkIdx).sum :=
          (regions.sources_total data bulk).symm

/-! ### A line with a source -/

def line : AcceptedMesh :=
  let mesh : Mesh :=
    { nodeVector := [![0, 0, 0], ![1, 0, 0]]
      element := [⟨1, 1, ![0, 1], Element.line_dimLe⟩]
      bcElements := []
      bulkDim := Mesh.unitLine.bulkDim }
  { mesh := mesh
    topology := mesh.makeNeighboursAndEdges.toOption.getD mesh.initialTopology
    accepted := AcceptedMesh.unitLine_accepted
    nonDegenerate := AcceptedMesh.unitLine_nonDegenerate }

def lineRegions : MeshRegions line where
  requests := [.withId 1 1, .implicitBoundary]
  opened := (RegionDB.init.addEach [.withId 1 1, .implicitBoundary]).toOption.getD .init
  added := rfl
  element := fun _ => ⟨1⟩
  bulk := fun _ => ⟨⟨⟨1, 1, "region_1", 1⟩, by decide +kernel, rfl⟩, rfl⟩
  bcElement := fun _ => ⟨0⟩
  boundary := by
    refine fun _ _ => ⟨⟨⟨0, 0xffffffff - 2, "IMPLICIT BOUNDARY", 10⟩, ?_, rfl⟩, rfl⟩
    decide +kernel

/-- Pressures at both ends and a source between them. -/
def lineData : FlowData (line.flowMesh ⟨fun _ => 1, fun _ => 1, fun _ => 1⟩) where
  crossSection := fun _ => 1
  storativity := fun _ => 1
  initPressure := fun _ => 0
  waterSourceDensity := fun _ => 1
  sigma := fun _ => 1
  bcType := fun _ => .dirichlet
  bcPressure := fun b => if b = 0 then 1 else 0
  bcFlux := fun _ => 0
  bcRobinSigma := fun _ => 0
  localMatrix := fun _ i j => if i = j then 1 else -1 / 2

def lineSolution : (line.flowMesh ⟨fun _ => 1, fun _ => 1, fun _ => 1⟩).Row → ℚ
  | .side ⟨_, i⟩ => if i.val = 0 then 1 / 6 else 5 / 6
  | .element _ => 3 / 4
  | .edge k => if k.val = 0 then 1 else 0

theorem waterBalance_closes_line :
    ((∃ totals, lineRegions.waterBalance lineData lineSolution = .ok totals) ↔
      line.topology.SingleSided ∧
        (∃ reg, lineRegions.opened.Exists reg ∧ reg.isBoundary = true) ∧
          ∃ reg, lineRegions.opened.Exists reg ∧ reg.isBoundary = false) ∧
      (line.mesh.BoundaryElementsApart → ∀ totals,
        lineRegions.waterBalance lineData lineSolution = .ok totals →
          totals.balance = totals.sources) := by
  have assembled : DarcyFlowMHSteady.assemblySteadyMhMatrix lineData =
      .ok ⟨DarcyFlowMHSteady.assembledMatrix lineData,
        DarcyFlowMHSteady.assembledRhs lineData⟩ := rfl
  exact lineRegions.waterBalance_closes assembled (by decide +kernel)

/-! ### A boundary element between two lines -/

def twoLines : AcceptedMesh :=
  let mesh : Mesh :=
    { nodeVector := [![0, 0, 0], ![1, 0, 0], ![2, 0, 0]]
      element := [⟨1, 1, ![0, 1], Element.line_dimLe⟩, ⟨2, 1, ![1, 2], Element.line_dimLe⟩]
      bcElements := [⟨3, 0, ![1], Element.node_dimLe⟩]
      bulkDim := by simp }
  { mesh := mesh
    topology := mesh.makeNeighboursAndEdges.toOption.getD mesh.initialTopology
    accepted := rfl
    nonDegenerate := by unfold Mesh.NonDegenerate; decide +kernel }

def twoLinesRegions : MeshRegions twoLines where
  requests := [.withId 1 1, .withLabel 2 ".middle" 0, .implicitBoundary]
  opened := (RegionDB.init.addEach [.withId 1 1, .withLabel 2 ".middle" 0,
    .implicitBoundary]).toOption.getD .init
  added := rfl
  element := fun _ => ⟨1⟩
  bulk := fun _ => ⟨⟨⟨1, 1, "region_1", 1⟩, by decide +kernel, rfl⟩, rfl⟩
  bcElement := fun i => if i = 0 then ⟨0⟩ else ⟨2⟩
  boundary := by
    unfold RegionDB.Exists
    decide +kernel

def twoLinesData : FlowData (twoLines.flowMesh ⟨fun _ => 1, fun _ => 1, fun _ => 1⟩) where
  crossSection := fun _ => 1
  storativity := fun _ => 1
  initPressure := fun _ => 0
  waterSourceDensity := fun _ => 0
  sigma := fun _ => 1
  bcType := fun _ => .none
  bcPressure := fun _ => 0
  bcFlux := fun _ => 0
  bcRobinSigma := fun _ => 0
  localMatrix := fun _ i j => if i = j then 1 else -1 / 2

/-- A boundary with two sides ends the balance, also at rest. -/
theorem not_always_waterBalance_closes :
    ¬ ∀ (setup : AcceptedMesh) (regions : MeshRegions setup) (measures : Measures)
      (data : FlowData (setup.flowMesh measures))
      (system : FlowSystem (setup.flowMesh measures)) (x : (setup.flowMesh measures).Row → ℚ),
      DarcyFlowMHSteady.assemblySteadyMhMatrix data = .ok system →
        system.matrix.mulVec x = system.rhs →
          ∃ totals, regions.waterBalance data x = .ok totals ∧
            totals.balance = totals.sources := by
  intro always
  obtain ⟨totals, returned, _⟩ := always twoLines twoLinesRegions
    ⟨fun _ => 1, fun _ => 1, fun _ => 1⟩ twoLinesData
    ⟨DarcyFlowMHSteady.assembledMatrix twoLinesData,
      DarcyFlowMHSteady.assembledRhs twoLinesData⟩ 0 rfl (by decide +kernel)
  cases returned

end MeshRegions

end Flow123d
