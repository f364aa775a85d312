import Flow123d.Flow.AcceptedMesh
import Flow123d.Flow.ElementGeometry
import Mathlib.Analysis.Real.Sqrt

/-!
# Pressures of nodes

`DarcyFlowMHOutput::make_element_scalar` and `make_node_scalar_param`: the pressure of a node is
put together from the pressures of the elements and the edges around it.
-/

set_option autoImplicit false

namespace Flow123d

open Flow123d.Library Matrix

/-! ## Elements and sides of the mesh -/

def Mesh.nSides (mesh : Mesh) : ℕ := (mesh.element.map Element.nSides).sum

namespace AcceptedMesh

variable (setup : AcceptedMesh)

/-- The sides in the order of `FOR_SIDES`. -/
def sides : List setup.Side :=
  (List.finRange setup.mesh.element.length).flatMap fun elm =>
    (List.finRange (setup.dim elm + 1)).map fun i => ⟨elm, i⟩

/-- The elements with each of their nodes. -/
def elementNodes : List (Fin setup.mesh.element.length × ℕ) :=
  (List.finRange setup.mesh.element.length).flatMap fun elm =>
    (setup.element elm).nodes.map fun node => (elm, node)

/-- The sides with each of their nodes. -/
def sideNodes : List (setup.Side × ℕ) :=
  setup.sides.flatMap fun side =>
    (setup.mesh.sideNodes (Side.iter side)).map fun node => (side, node)

end AcceptedMesh

/-! ## The solution -/

namespace MHDofHandler

variable {K : Type} (setup : AcceptedMesh) (mhSolution : ℕ → K)

/-- The pressure on the edge of the side. -/
def sideScalar (side : setup.Side) : K :=
  mhSolution (setup.mesh.nSides + setup.mesh.nElements + AcceptedMesh.Side.edgeIdx side)

end MHDofHandler

/-! ## The output -/

namespace DarcyFlowMHOutput

variable {K : Type} [Field K] (sqrt : K → K) (setup : AcceptedMesh)

/-- `ele_pressure`. -/
def makeElementScalar (sol : ℕ → K) (elm : Fin setup.mesh.element.length) : K :=
  sol (setup.mesh.nSides + elm)

def dist (node centre : Point) : K :=
  sqrt (((node 0 - centre 0) * (node 0 - centre 0) + (node 1 - centre 1) * (node 1 - centre 1) +
    (node 2 - centre 2) * (node 2 - centre 2) : ℚ) : K)

def eleDist (visit : Fin setup.mesh.element.length × ℕ) : K :=
  dist sqrt (setup.mesh.point visit.2) (setup.mesh.centre (setup.element visit.1).nodes)

def sideDist (visit : setup.Side × ℕ) : K :=
  dist sqrt (setup.mesh.point visit.2)
    (setup.mesh.centre (setup.mesh.sideNodes (AcceptedMesh.Side.iter visit.1)))

/-- The arrays of the first pass. -/
structure NodeSums (K : Type) where
  sumElements : ℕ → ℤ
  sumSides : ℕ → ℤ
  sumEleDist : ℕ → K
  sumSideDist : ℕ → K

def NodeSums.zero : NodeSums K where
  sumElements := 0
  sumSides := 0
  sumEleDist := 0
  sumSideDist := 0

def countElement (sums : NodeSums K) (visit : Fin setup.mesh.element.length × ℕ) : NodeSums K :=
  { sums with
    sumEleDist := addValue sums.sumEleDist (visit.2, eleDist sqrt setup visit)
    sumElements := addValue sums.sumElements (visit.2, 1) }

def countSide (sums : NodeSums K) (visit : setup.Side × ℕ) : NodeSums K :=
  { sums with
    sumSideDist := addValue sums.sumSideDist (visit.2, sideDist sqrt setup visit)
    sumSides := addValue sums.sumSides (visit.2, 1) }

def firstPass : NodeSums K :=
  setup.sideNodes.foldl (countSide sqrt setup)
    (setup.elementNodes.foldl (countElement sqrt setup) NodeSums.zero)

def share (sums : NodeSums K) (node : ℕ) (scalar distance : K) : K :=
  scalar * (1 - distance / (sums.sumEleDist node + sums.sumSideDist node)) /
    ((sums.sumElements node + sums.sumSides node - 1 : ℤ) : K)

def elementShare (sol : ℕ → K) (visit : Fin setup.mesh.element.length × ℕ) : K :=
  share (firstPass sqrt setup) visit.2 (makeElementScalar setup sol visit.1)
    (eleDist sqrt setup visit)

def sideShare (sol : ℕ → K) (visit : setup.Side × ℕ) : K :=
  share (firstPass sqrt setup) visit.2 (MHDofHandler.sideScalar setup sol visit.1)
    (sideDist sqrt setup visit)

/-- `node_pressure` from the solution. -/
def makeNodeScalarParam (sol : ℕ → K) : ℕ → K :=
  addValues
    (addValues 0 (setup.elementNodes.map fun visit =>
      (visit.2, elementShare sqrt setup sol visit)))
    (setup.sideNodes.map fun visit => (visit.2, sideShare sqrt setup sol visit))

end DarcyFlowMHOutput

/-! ## Nodes of elements -/

theorem RefElement.exists_side {dim position : ℕ} (positive : 0 < dim) (dimBound : dim ≤ 3)
    (inside : position < dim + 1) :
    ∃ elIdx < dim + 1, position ∈ (RefElement.sideNodes dim).getD elIdx [] := by
  interval_cases dim <;> interval_cases position <;> decide

/-- Every node of a bulk element is a node of one of its sides. -/
theorem Element.exists_side {ele : Element} (positive : 0 < ele.dim) {node : ℕ}
    (member : node ∈ ele.nodes) : ∃ elIdx < ele.nSides, node ∈ ele.sideNodes elIdx := by
  obtain ⟨position, inside, isNode⟩ := List.getElem_of_mem member
  obtain ⟨elIdx, bound, listed⟩ :=
    RefElement.exists_side positive ele.dimLe (ele.length_nodes ▸ inside)
  refine ⟨elIdx, bound, List.mem_map.mpr ⟨position, listed, ?_⟩⟩
  rw [List.getD_eq_getElem _ _ inside, isNode]

namespace Mesh

/-- The centre in terms of the vectors from the first node. -/
theorem centre_sub (mesh : Mesh) (ele : Element) (i : ℕ) (c : Fin 3) :
    (ele.dim + 1) * (mesh.point (ele.nodes.getD i 0) c - mesh.centre ele.nodes c) =
      (ele.dim + 1) * mesh.elementVector ele i c -
        ∑ k ∈ Finset.range (ele.dim + 1), mesh.elementVector ele k c := by
  have length := ele.length_nodes
  have total : (ele.nodes.map fun n => mesh.point n c).sum =
      ∑ k ∈ Finset.range (ele.dim + 1), mesh.point (ele.nodes.getD k 0) c := by
    rw [Finset.sum_range, ← sum_finRange]
    refine congrArg List.sum (List.ext_getElem (by simp) fun k first second => ?_)
    rw [List.getElem_map, List.getElem_map, List.getElem_finRange]
    rw [List.length_map] at first
    rw [Fin.val_cast, List.getD_eq_getElem _ _ first]
  have positive : ((ele.dim : ℚ) + 1) ≠ 0 := by positivity
  unfold centre elementVector
  simp only [Pi.sub_apply, Finset.sum_sub_distrib, Finset.sum_const, Finset.card_range,
    nsmul_eq_mul]
  rw [total, length, Nat.cast_add, Nat.cast_one, mul_sub, mul_div_cancel₀ _ positive]
  ring

/-- Dependent edges of a triangle. -/
private theorem cross_of_dependent {u v : Point} (a b : ℚ) (nonzero : b ≠ 0)
    (dependent : ∀ c, b * v c = a * u c) : crossProduct u v = 0 := by
  have multiple : v = (a / b) • u := by
    funext c
    rw [Pi.smul_apply, smul_eq_mul, div_mul_eq_mul_div, ← dependent c,
      mul_div_cancel_left₀ _ nonzero]
  rw [multiple, map_smul, cross_self, smul_zero]

/-- Dependent edges of a tetrahedron. -/
private theorem triple_of_dependent {u v w : Point} (a a' b : ℚ) (nonzero : b ≠ 0)
    (dependent : ∀ c, b * w c = a * u c + a' * v c) : crossProduct u v ⬝ᵥ w = 0 := by
  have combination : w = (a / b) • u + (a' / b) • v := by
    funext c
    rw [Pi.add_apply, Pi.smul_apply, Pi.smul_apply, smul_eq_mul, smul_eq_mul,
      div_mul_eq_mul_div, div_mul_eq_mul_div, ← add_div, ← dependent c,
      mul_div_cancel_left₀ _ nonzero]
  rw [combination, dotProduct_add, dotProduct_smul, dotProduct_smul, dotProduct_comm _ u,
    dotProduct_comm _ v, dot_self_cross, dot_cross_self, smul_zero, smul_zero, add_zero]

/-- No node of a non-degenerate element is its centre. -/
theorem point_ne_centre {mesh : Mesh} {ele : Element} (positive : 0 < ele.dim)
    (nonDegenerate : mesh.measureSquared ele ≠ 0) {node : ℕ} (member : node ∈ ele.nodes) :
    mesh.point node ≠ mesh.centre ele.nodes := by
  intro same
  obtain ⟨i, inside, isNode⟩ := List.getElem_of_mem member
  have bound := ele.dimLe
  have balanced : ∀ c, (ele.dim + 1) * mesh.elementVector ele i c =
      ∑ k ∈ Finset.range (ele.dim + 1), mesh.elementVector ele k c := by
    intro c
    have split := mesh.centre_sub ele i c
    rw [List.getD_eq_getElem _ _ inside, isNode, same, sub_self, mul_zero] at split
    exact (sub_eq_zero.mp split.symm)
  rw [ele.length_nodes] at inside
  apply nonDegenerate
  have first : ∀ c, mesh.elementVector ele 0 c = 0 := fun c =>
    congrFun (mesh.elementVector_zero ele) c
  unfold measureSquared
  generalize mesh.elementVector ele = vector at balanced first
  generalize ele.dim = dim at positive bound inside balanced ⊢
  interval_cases dim
  · have zero : vector 1 = 0 := by
      funext c
      have here := balanced c
      rw [Finset.sum_range_succ, Finset.sum_range_one, first c, zero_add] at here
      interval_cases i
      · rw [first c] at here
        simpa using here.symm
      · push_cast at here
        change vector 1 c = 0
        linarith
    simp [zero]
  · have zero : crossProduct (vector 1) (vector 2) = 0 := by
      simp only [Finset.sum_range_succ, Finset.sum_range_zero, zero_add, Nat.cast_ofNat]
        at balanced
      interval_cases i
      · refine cross_of_dependent (-1) 1 one_ne_zero fun c => ?_
        linarith [balanced c, first c]
      · refine cross_of_dependent 2 1 one_ne_zero fun c => ?_
        linarith [balanced c, first c]
      · refine cross_of_dependent 1 2 two_ne_zero fun c => ?_
        linarith [balanced c, first c]
    simp [zero]
  · have zero : crossProduct (vector 1) (vector 2) ⬝ᵥ vector 3 = 0 := by
      simp only [Finset.sum_range_succ, Finset.sum_range_zero, zero_add, Nat.cast_ofNat]
        at balanced
      interval_cases i
      · refine triple_of_dependent (-1) (-1) 1 one_ne_zero fun c => ?_
        linarith [balanced c, first c]
      · refine triple_of_dependent 3 (-1) 1 one_ne_zero fun c => ?_
        linarith [balanced c, first c]
      · refine triple_of_dependent (-1) 3 1 one_ne_zero fun c => ?_
        linarith [balanced c, first c]
      · refine triple_of_dependent 1 1 3 three_ne_zero fun c => ?_
        linarith [balanced c, first c]
    simp [zero]

end Mesh

/-! ## Elements and sides around a node -/

namespace AcceptedMesh

variable (setup : AcceptedMesh)

/-- What a node takes its pressure from. -/
abbrev Cell : Type := Fin setup.mesh.element.length ⊕ setup.Side

variable {setup}

def Cell.nodes : setup.Cell → List ℕ :=
  Sum.elim (fun elm => (setup.element elm).nodes)
    fun side => setup.mesh.sideNodes (Side.iter side)

variable (setup)

theorem sum_sides {K : Type} [AddCommMonoid K] (value : setup.Side → K) :
    (setup.sides.map value).sum = ∑ side, value side := by
  unfold sides
  rw [sum_map_flatMap, sum_finRange, Fintype.sum_sigma]
  refine Finset.sum_congr rfl fun elm _ => ?_
  rw [List.map_map, sum_finRange]
  rfl

/-- The sum of what the loops over elements and over sides add to one node. -/
theorem sum_cells {K : Type} [AddCommMonoid K] (value : setup.Cell → K) :
    ((List.finRange setup.mesh.element.length).map fun elm => value (.inl elm)).sum +
      (setup.sides.map fun side => value (.inr side)).sum = ∑ cell, value cell := by
  rw [sum_finRange, sum_sides, Fintype.sum_sum_type]

theorem element_positive (elm : Fin setup.mesh.element.length) : 0 < (setup.element elm).dim :=
  setup.mesh.bulkDim _ (List.get_mem _ _)

theorem sideNodes_iter (side : setup.Side) :
    setup.mesh.sideNodes (Side.iter side) = (setup.element side.1).sideNodes side.2 := by
  change (setup.mesh.element[side.1.val]?.elim [] fun ele => ele.sideNodes side.2) = _
  rw [setup.element_lookup]
  rfl

/-- A node of a side is one of its element. -/
theorem exists_element {cell : setup.Cell} {node : ℕ} (member : node ∈ cell.nodes) :
    ∃ elm, node ∈ (setup.element elm).nodes := by
  cases cell with
  | inl elm => exact ⟨elm, member⟩
  | inr side =>
      have onSide : node ∈ (setup.element side.1).sideNodes side.2 := by
        rw [← setup.sideNodes_iter]
        exact member
      exact ⟨side.1, Element.side_nodes_subset _ _ onSide⟩

/-- A node of an element is visited from the element and from one of its sides. -/
theorem two_le_visits {elm : Fin setup.mesh.element.length} {node : ℕ}
    (member : node ∈ (setup.element elm).nodes) :
    2 ≤ ∑ cell : setup.Cell, cell.nodes.count node := by
  obtain ⟨elIdx, bound, onSide⟩ := Element.exists_side (setup.element_positive elm) member
  let side : setup.Side := ⟨elm, ⟨elIdx, bound⟩⟩
  have first : 1 ≤ (setup.element elm).nodes.count node := List.one_le_count_iff.mpr member
  have second : 1 ≤ (setup.mesh.sideNodes (Side.iter side)).count node := by
    rw [setup.sideNodes_iter]
    exact List.one_le_count_iff.mpr onSide
  rw [Fintype.sum_sum_type]
  have elements := Finset.single_le_sum
    (f := fun elm => (setup.element elm).nodes.count node) (fun _ _ => Nat.zero_le _)
      (Finset.mem_univ elm)
  have sides := Finset.single_le_sum
    (f := fun side => (setup.mesh.sideNodes (Side.iter side)).count node)
      (fun _ _ => Nat.zero_le _) (Finset.mem_univ side)
  exact Nat.add_le_add (first.trans elements) (second.trans sides)

end AcceptedMesh

namespace DarcyFlowMHOutput

section Sums

variable {K : Type} [Field K] (sqrt : K → K) (setup : AcceptedMesh)

/-- The distance of the node from the centre of the cell. -/
def cellDist (node : ℕ) : setup.Cell → K :=
  Sum.elim (fun elm => eleDist sqrt setup (elm, node)) fun side => sideDist sqrt setup (side, node)

/-- The pressure of the element, or of the edge of the side. -/
def cellScalar (sol : ℕ → K) : setup.Cell → K :=
  Sum.elim (makeElementScalar setup sol) (MHDofHandler.sideScalar setup sol)

theorem foldl_countElement (sums : NodeSums K)
    (visits : List (Fin setup.mesh.element.length × ℕ)) :
    visits.foldl (countElement sqrt setup) sums =
      { sums with
        sumEleDist := addValues sums.sumEleDist
          (visits.map fun visit => (visit.2, eleDist sqrt setup visit))
        sumElements := addValues sums.sumElements (visits.map fun visit => (visit.2, 1)) } := by
  induction visits generalizing sums with
  | nil => rfl
  | cons visit visits ih =>
      rw [List.foldl_cons, ih]
      rfl

theorem foldl_countSide (sums : NodeSums K) (visits : List (setup.Side × ℕ)) :
    visits.foldl (countSide sqrt setup) sums =
      { sums with
        sumSideDist := addValues sums.sumSideDist
          (visits.map fun visit => (visit.2, sideDist sqrt setup visit))
        sumSides := addValues sums.sumSides (visits.map fun visit => (visit.2, 1)) } := by
  induction visits generalizing sums with
  | nil => rfl
  | cons visit visits ih =>
      rw [List.foldl_cons, ih]
      rfl

/-- What the two loops of a pass add to a node. -/
theorem placeSum_passes {R : Type} [CommRing R]
    (ofElement : Fin setup.mesh.element.length × ℕ → R) (ofSide : setup.Side × ℕ → R)
    (node : ℕ) :
    placeSum (setup.elementNodes.map fun visit => (visit.2, ofElement visit)) node +
        placeSum (setup.sideNodes.map fun visit => (visit.2, ofSide visit)) node =
      ∑ cell : setup.Cell, (cell.nodes.count node : R) *
        Sum.elim (fun elm => ofElement (elm, node)) (fun side => ofSide (side, node)) cell := by
  unfold AcceptedMesh.elementNodes AcceptedMesh.sideNodes
  rw [placeSum_visits, placeSum_visits, ← setup.sum_cells]
  rfl

theorem firstPass_dist (node : ℕ) :
    (firstPass sqrt setup).sumEleDist node + (firstPass sqrt setup).sumSideDist node =
      ∑ cell : setup.Cell, (cell.nodes.count node : K) * cellDist sqrt setup node cell := by
  unfold firstPass
  rw [foldl_countElement, foldl_countSide]
  dsimp only [NodeSums.zero]
  rw [addValues_apply, addValues_apply, Pi.zero_apply, zero_add, zero_add, placeSum_passes]
  rfl

theorem firstPass_count (node : ℕ) :
    (firstPass sqrt setup).sumElements node + (firstPass sqrt setup).sumSides node =
      (∑ cell : setup.Cell, cell.nodes.count node : ℕ) := by
  unfold firstPass
  rw [foldl_countElement, foldl_countSide]
  dsimp only [NodeSums.zero]
  rw [addValues_apply, addValues_apply, Pi.zero_apply, zero_add, zero_add, placeSum_passes,
    Nat.cast_sum]
  refine Finset.sum_congr rfl fun cell _ => ?_
  cases cell with
  | inl elm => exact mul_one _
  | inr side => exact mul_one _

/-- Both passes together. -/
theorem makeNodeScalarParam_eq (sol : ℕ → K) (node : ℕ) :
    makeNodeScalarParam sqrt setup sol node =
      ∑ cell : setup.Cell,
        distanceWeight (fun cell : setup.Cell => cell.nodes.count node)
          (cellDist sqrt setup node) cell * cellScalar setup sol cell := by
  unfold makeNodeScalarParam
  rw [addValues_apply, addValues_apply, Pi.zero_apply, zero_add, placeSum_passes]
  refine Finset.sum_congr rfl fun cell _ => ?_
  have same : Sum.elim (fun elm => elementShare sqrt setup sol (elm, node))
      (fun side => sideShare sqrt setup sol (side, node)) cell =
        share (firstPass sqrt setup) node (cellScalar setup sol cell)
          (cellDist sqrt setup node cell) := by
    cases cell with
    | inl elm => rfl
    | inr side => rfl
  rw [same]
  unfold share distanceWeight
  rw [firstPass_dist, firstPass_count]
  push_cast
  ring

end Sums

/-! ## Weights -/

theorem dist_nonneg (point centre : Point) : 0 ≤ dist Real.sqrt point centre :=
  Real.sqrt_nonneg _

theorem dist_pos {point centre : Point} (apart : point ≠ centre) :
    0 < dist Real.sqrt point centre := by
  obtain ⟨c, different⟩ := Function.ne_iff.mp apart
  have square : ∀ k, 0 ≤ (point k - centre k) * (point k - centre k) :=
    fun k => mul_self_nonneg _
  have positive : 0 < (point c - centre c) * (point c - centre c) :=
    mul_self_pos.mpr (sub_ne_zero.mpr different)
  have total : 0 < (point 0 - centre 0) * (point 0 - centre 0) +
      (point 1 - centre 1) * (point 1 - centre 1) +
        (point 2 - centre 2) * (point 2 - centre 2) := by
    fin_cases c <;> simp only [Fin.zero_eta, Fin.mk_one, Fin.reduceFinMk] at positive <;>
      linarith [square 0, square 1, square 2]
  exact Real.sqrt_pos.mpr (by exact_mod_cast total)

variable (setup : AcceptedMesh)

theorem cellDist_nonneg (node : ℕ) (cell : setup.Cell) :
    0 ≤ cellDist Real.sqrt setup node cell := by
  cases cell with
  | inl elm => exact dist_nonneg _ _
  | inr side => exact dist_nonneg _ _

theorem total_dist_pos {elm : Fin setup.mesh.element.length} {node : ℕ}
    (member : node ∈ (setup.element elm).nodes) :
    0 < ∑ cell : setup.Cell, (cell.nodes.count node : ℝ) *
      cellDist Real.sqrt setup node cell := by
  have apart := Mesh.point_ne_centre (setup.element_positive elm)
    (setup.nonDegenerate _ (List.get_mem _ _)) member
  refine Finset.sum_pos' (fun cell _ =>
    mul_nonneg (Nat.cast_nonneg _) (cellDist_nonneg setup node cell))
      ⟨.inl elm, Finset.mem_univ _, mul_pos ?_ (dist_pos apart)⟩
  exact_mod_cast List.count_pos_iff.mpr member

/-- The pressure of a node is a mean of the pressures around it, with weights that do not depend on
the solution. A node of no element has the pressure zero. -/
theorem nodePressure_mean (node : ℕ) :
    ∃ weight : setup.Cell → ℝ, (∀ cell, 0 ≤ weight cell) ∧
      (∀ cell : setup.Cell, node ∉ cell.nodes → weight cell = 0) ∧
      ((∃ cell : setup.Cell, node ∈ cell.nodes) → ∑ cell, weight cell = 1) ∧
      ∀ sol, makeNodeScalarParam Real.sqrt setup sol node =
        ∑ cell, weight cell * cellScalar setup sol cell := by
  have outside : ∀ cell : setup.Cell, node ∉ cell.nodes →
      distanceWeight (fun cell : setup.Cell => cell.nodes.count node)
        (cellDist Real.sqrt setup node) cell = 0 := by
    intro cell absent
    unfold distanceWeight
    dsimp only
    rw [List.count_eq_zero.mpr absent, Nat.cast_zero, zero_mul]
  refine ⟨distanceWeight (fun cell => cell.nodes.count node) (cellDist Real.sqrt setup node), ?_,
    outside, ?_, fun sol => makeNodeScalarParam_eq Real.sqrt setup sol node⟩
  · intro cell
    by_cases member : node ∈ cell.nodes
    · obtain ⟨elm, inElement⟩ := setup.exists_element member
      exact distanceWeight_nonneg (cellDist_nonneg setup node) (setup.two_le_visits inElement) cell
    · exact (outside cell member).ge
  · rintro ⟨cell, member⟩
    obtain ⟨elm, inElement⟩ := setup.exists_element member
    exact sum_distanceWeight (setup.two_le_visits inElement) (total_dist_pos setup inElement)

end DarcyFlowMHOutput

end Flow123d
