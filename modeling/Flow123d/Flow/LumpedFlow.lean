import Flow123d.Flow.UnsteadyTimeTerm
import Mathlib.Tactic.LinearCombination

/-!
# What lumping to the edges keeps

The storage of the lumped equation beside that of the mixed-hybrid one, and the balance of
the fluxes over the edges after the corrections of `postprocess`.
-/

set_option autoImplicit false

namespace Flow123d

open Flow123d.Library

variable {mesh : FlowMesh}

/-! ## Storage -/

theorem FlowMesh.length_sides (elm : mesh.Element) : (mesh.sides elm).length = mesh.nSides elm :=
  (List.length_map _).trans List.length_finRange

theorem FlowMesh.nSides_ne_zero (elm : mesh.Element) : (mesh.nSides elm : ℚ) ≠ 0 :=
  Nat.cast_ne_zero.mpr (Nat.succ_ne_zero _)

namespace DarcyFlowMHUnsteady

variable (data : FlowData mesh) (dt : ℚ)

theorem newDiagonal_eq :
    newDiagonal data dt = addValues 0 ((List.finRange mesh.nElements).map fun elm =>
      (.element elm, -data.storativity elm * mesh.measure elm / dt)) := by
  funext row
  rw [addValues_apply, Pi.zero_apply, zero_add]
  cases row with
  | side side =>
      refine (placeSum_of_forall_ne ?_).symm
      intro entry member equal
      obtain ⟨elm, -, rfl⟩ := List.mem_map.mp member
      cases equal
  | edge edge =>
      refine (placeSum_of_forall_ne ?_).symm
      intro entry member equal
      obtain ⟨elm, -, rfl⟩ := List.mem_map.mp member
      cases equal
  | element elm =>
      unfold placeSum
      rw [List.map_map, sum_finRange]
      simp [newDiagonal]

theorem sum_newDiagonal :
    ∑ row, newDiagonal data dt row =
      ∑ elm, -data.storativity elm * mesh.measure elm / dt := by
  rw [newDiagonal_eq, sum_addValues, List.map_map]
  simp only [Pi.zero_apply, Finset.sum_const_zero, zero_add, Function.comp_def]
  exact sum_finRange _

end DarcyFlowMHUnsteady

namespace DarcyFlowLMHUnsteady

variable (data : FlowData mesh) (dt : ℚ)

/-- What an element contributes to the rows of its edges. -/
def contribution (elm : mesh.Element) : ℚ :=
  ((timeEntries data dt elm).map fun entry => entry.2).sum

theorem contribution_eq (elm : mesh.Element) :
    contribution data dt elm =
      -mesh.measure elm * data.storativity elm * data.crossSection elm / dt := by
  have nonzero := FlowMesh.nSides_ne_zero elm
  unfold contribution timeEntries
  rw [List.map_map]
  simp only [Function.comp_def, List.map_const', List.sum_replicate, nsmul_eq_mul,
    FlowMesh.length_sides]
  field_simp

theorem sum_newDiagonal :
    ∑ row, newDiagonal data dt row = ∑ elm, contribution data dt elm := by
  unfold newDiagonal contribution
  rw [sum_addValues, sum_map_flatMap, ← sum_finRange]
  simp only [Pi.zero_apply, Finset.sum_const_zero, zero_add]

end DarcyFlowLMHUnsteady

/-- Both equations store the same, in each element and in total. -/
structure SameStorage (data : FlowData mesh) (dt : ℚ) : Prop where
  element : ∀ elm, DarcyFlowMHUnsteady.newDiagonal data dt (.element elm) =
    DarcyFlowLMHUnsteady.contribution data dt elm
  total : ∑ row, DarcyFlowMHUnsteady.newDiagonal data dt row =
    ∑ row, DarcyFlowLMHUnsteady.newDiagonal data dt row

/-- The mixed-hybrid time term leaves the cross section out. -/
theorem sameStorage_iff (data : FlowData mesh) {dt : ℚ} (nonzero : dt ≠ 0) :
    SameStorage data dt ↔ ∀ elm,
      mesh.measure elm = 0 ∨ data.storativity elm = 0 ∨ data.crossSection elm = 1 := by
  have gap : ∀ elm, DarcyFlowMHUnsteady.newDiagonal data dt (.element elm) -
      DarcyFlowLMHUnsteady.contribution data dt elm =
        mesh.measure elm * (data.storativity elm * (data.crossSection elm - 1)) / dt := by
    intro elm
    rw [DarcyFlowLMHUnsteady.contribution_eq]
    change -data.storativity elm * mesh.measure elm / dt - _ = _
    ring
  have perElement : ∀ elm, DarcyFlowMHUnsteady.newDiagonal data dt (.element elm) =
      DarcyFlowLMHUnsteady.contribution data dt elm ↔
        mesh.measure elm = 0 ∨ data.storativity elm = 0 ∨ data.crossSection elm = 1 := by
    intro elm
    rw [← sub_eq_zero, gap, div_eq_zero_iff, or_iff_left nonzero, mul_eq_zero, mul_eq_zero,
      sub_eq_zero]
  constructor
  · intro same elm
    exact (perElement elm).mp (same.element elm)
  · intro covered
    have element := fun elm => (perElement elm).mpr (covered elm)
    refine ⟨element, ?_⟩
    rw [DarcyFlowMHUnsteady.sum_newDiagonal, DarcyFlowLMHUnsteady.sum_newDiagonal]
    exact Finset.sum_congr rfl fun elm _ => element elm

theorem sameStorage_iff_oneLine :
    SameStorage (FlowData.oneLine 1 0) 1 ↔ ∀ elm, FlowMesh.oneLine.measure elm = 0 ∨
      (FlowData.oneLine 1 0).storativity elm = 0 ∨
        (FlowData.oneLine 1 0).crossSection elm = 1 :=
  sameStorage_iff (FlowData.oneLine 1 0) one_ne_zero

theorem not_always_sameStorage :
    ¬ ∀ (mesh : FlowMesh) (data : FlowData mesh) (dt : ℚ), dt ≠ 0 → SameStorage data dt := by
  intro always
  have same := (always _ (FlowData.oneLine 2 0) 1 one_ne_zero).element ⟨0, Nat.one_pos⟩
  exact absurd same (by decide +kernel)

/-! ## The rows of inner edges -/

/-- An edge of several sides, without conditions and without elements of a lower
dimension on it. -/
structure FlowMesh.Inner (mesh : FlowMesh) (edge : mesh.Edge) : Prop where
  shared : 2 ≤ (mesh.edgeSides edge).length
  noCondition : ∀ side, mesh.edgeIdx side = edge → mesh.cond side = none
  noNeighbour : ∀ elm, ∀ ngh ∈ mesh.neighVb elm, ngh.edgeIdx ≠ edge

namespace FlowData

variable (data : FlowData mesh) {edge : mesh.Edge}

theorem sideMatrix_rowSum (inner : mesh.Inner edge) (x : mesh.Row → ℚ) (side : mesh.Side) :
    rowSum (data.sideMatrix side) x (.edge edge) =
      if mesh.edgeIdx side = edge then x (.side side) else 0 := by
  by_cases here : mesh.edgeIdx side = edge
  · have free := inner.noCondition side here
    have plain : data.conditionMatrix side = [] := by
      unfold conditionMatrix
      rw [free]
    have one : data.cVal side = 1 := by
      unfold cVal isDirichlet
      rw [free]
      rfl
    unfold sideMatrix
    rw [plain, one, if_pos here, List.nil_append, rowSum_cons, rowSum_cons, rowSum_nil,
      if_neg nofun, if_pos (congrArg FlowMesh.Row.edge here)]
    ring
  · have elsewhere : FlowMesh.Row.edge (mesh.edgeIdx side) ≠ FlowMesh.Row.edge edge :=
      mt FlowMesh.Row.edge.inj here
    rw [if_neg here]
    refine rowSum_of_forall_ne x ?_
    intro entry member
    unfold sideMatrix conditionMatrix at member
    cases cond : mesh.cond side with
    | none =>
        rw [cond] at member
        simp only [List.nil_append, List.mem_cons, List.not_mem_nil, or_false] at member
        obtain rfl | rfl := member
        · exact nofun
        · exact elsewhere
    | some bcd =>
        rw [cond] at member
        cases type : data.bcType bcd <;>
          simp only [type, List.nil_append, List.cons_append, List.mem_cons, List.not_mem_nil,
            or_false] at member <;>
          aesop

theorem elementMatrix_rowSum (inner : mesh.Inner edge) (x : mesh.Row → ℚ)
    (elm : mesh.Element) :
    rowSum (data.elementMatrix elm) x (.edge edge) =
      ((mesh.sides elm).map fun side =>
        if mesh.edgeIdx side = edge then x (.side side) else 0).sum := by
  have ofLocal : rowSum (data.localEntries elm) x (.edge edge) = 0 := by
    refine rowSum_of_forall_ne x ?_
    intro entry member
    obtain ⟨i, -, inRow⟩ := List.mem_flatMap.mp member
    obtain ⟨j, -, rfl⟩ := List.mem_map.mp inRow
    exact nofun
  have ofDivergence : rowSum (divergenceEntries elm) x (.edge edge) = 0 := by
    refine rowSum_of_forall_ne x ?_
    intro entry member
    obtain inB | inB' := List.mem_append.mp member
    · obtain ⟨side, -, rfl⟩ := List.mem_map.mp inB
      exact nofun
    · obtain ⟨side, -, rfl⟩ := List.mem_map.mp inB'
      exact nofun
  have ofDiagonal : rowSum [((.element elm, .element elm, 0) : mesh.MatrixEntry)] x
      (.edge edge) = 0 := by
    rw [rowSum_cons, rowSum_nil, if_neg nofun, add_zero]
  have ofNeighbours : rowSum ((mesh.neighVb elm).flatMap (data.neighbourMatrix elm)) x
      (.edge edge) = 0 := by
    refine rowSum_of_forall_ne x ?_
    intro entry member
    obtain ⟨ngh, isNeighbour, ofNgh⟩ := List.mem_flatMap.mp member
    have elsewhere : FlowMesh.Row.edge ngh.edgeIdx ≠ FlowMesh.Row.edge edge :=
      mt FlowMesh.Row.edge.inj (inner.noNeighbour elm ngh isNeighbour)
    unfold neighbourMatrix at ofNgh
    simp only [List.mem_cons, List.not_mem_nil, or_false] at ofNgh
    obtain rfl | rfl | rfl | rfl := ofNgh
    · exact nofun
    · exact nofun
    · exact elsewhere
    · exact elsewhere
  unfold elementMatrix
  rw [rowSum_append, rowSum_append, rowSum_append, rowSum_append, ofLocal, ofDivergence,
    ofDiagonal, ofNeighbours, rowSum_flatMap]
  simp only [data.sideMatrix_rowSum inner, add_zero]

theorem elementRhs_placeSum (inner : mesh.Inner edge) (elm : mesh.Element) :
    placeSum (data.elementRhs elm) (.edge edge) = 0 := by
  refine placeSum_of_forall_ne ?_
  intro entry member
  unfold elementRhs at member
  simp only [List.mem_append, List.mem_flatMap, List.mem_map, List.mem_singleton] at member
  obtain (⟨side, -, ofCondition⟩ | ⟨side, -, rfl⟩) | rfl := member
  · have onEdge : entry.1 = .edge (mesh.edgeIdx side) ∧ mesh.cond side ≠ none := by
      unfold conditionRhs at ofCondition
      cases cond : mesh.cond side with
      | none =>
          rw [cond] at ofCondition
          cases ofCondition
      | some bcd =>
          rw [cond] at ofCondition
          refine ⟨?_, nofun⟩
          cases type : data.bcType bcd <;>
            simp only [type, List.mem_cons, List.not_mem_nil, or_false] at ofCondition <;>
            simp only [ofCondition]
    rw [onEdge.1]
    intro equal
    exact onEdge.2 (inner.noCondition side (FlowMesh.Row.edge.inj equal))
  · exact nofun
  · exact nofun

end FlowData

namespace DarcyFlowMHSteady

variable (data : FlowData mesh) {edge : mesh.Edge}

/-- The steady row of an inner edge sums the fluxes of its sides. -/
theorem assembledMatrix_edge (inner : mesh.Inner edge) (x : mesh.Row → ℚ) :
    (assembledMatrix data).mulVec x (.edge edge) =
      ((mesh.edgeSides edge).map fun side => x (.side side)).sum := by
  unfold assembledMatrix
  rw [addMatrixValues_mulVec, Matrix.zero_mulVec, Pi.zero_apply, zero_add, rowSum_flatMap,
    mesh.sum_edgeSides, ← mesh.sum_sides]
  simp only [data.elementMatrix_rowSum inner]

theorem assembledRhs_edge (inner : mesh.Inner edge) : assembledRhs data (.edge edge) = 0 := by
  unfold assembledRhs
  rw [addValues_apply, placeSum_flatMap, Pi.zero_apply, zero_add]
  refine List.sum_eq_zero ?_
  intro value member
  obtain ⟨elm, -, rfl⟩ := List.mem_map.mp member
  exact data.elementRhs_placeSum inner elm

end DarcyFlowMHSteady

/-! ## The corrected fluxes -/

namespace DarcyFlowLMHUnsteady

variable (data now : FlowData mesh) (dt : ℚ)

theorem newDiagonal_eq_timeCoef (edge : mesh.Edge) :
    newDiagonal data dt (.edge edge) =
      ((mesh.edgeSides edge).map fun side => timeCoef data dt side.1).sum := by
  rw [newDiagonal_edge]
  congr 2
  funext side
  unfold timeCoef
  ring

/-- The share of the source of an element that a side gets. -/
def sourceShare (elm : mesh.Element) : ℚ :=
  -1 * mesh.measure elm * data.crossSection elm * data.waterSourceDensity elm / mesh.nSides elm

theorem sourceEntries_placeSum (side : mesh.Side) :
    placeSum ((List.finRange mesh.nElements).flatMap (sourceEntries data)) (.side side) =
      sourceShare data side.1 := by
  have perSide : placeSum ((List.finRange mesh.nElements).flatMap (sourceEntries data))
      (.side side) = ∑ other : mesh.Side,
        if other = side then sourceShare data other.1 else 0 := by
    rw [placeSum_flatMap, ← mesh.sum_sides]
    congr 2
    funext elm
    unfold placeSum sourceEntries FlowMesh.sides sourceShare
    simp only [List.map_map, Function.comp_def, FlowMesh.Row.side.injEq]
  rw [perSide, Finset.sum_ite_eq' Finset.univ side, if_pos (Finset.mem_univ side)]

theorem edgeEntries_placeSum (newPressure oldPressure : mesh.Row → ℚ) (side : mesh.Side) :
    placeSum ((List.finRange mesh.nEdges).flatMap
        (edgeEntries data dt newPressure oldPressure)) (.side side) =
      timeCoef data dt side.1 * (newPressure (.edge (mesh.edgeIdx side)) -
        oldPressure (.edge (mesh.edgeIdx side))) := by
  have perEdge : ∀ edge, placeSum (edgeEntries data dt newPressure oldPressure edge)
      (.side side) = if mesh.edgeIdx side = edge then
        timeCoef data dt side.1 * (newPressure (.edge edge) - oldPressure (.edge edge))
      else 0 := by
    intro edge
    unfold placeSum edgeEntries
    rw [List.map_map, mesh.sum_edgeSides]
    simp only [Function.comp_def, FlowMesh.Row.side.injEq]
    rw [Finset.sum_eq_single side]
    · rw [if_pos rfl]
    · intro other _ differs
      rw [if_neg differs, ite_self]
    · intro missing
      exact absurd (Finset.mem_univ side) missing
  rw [placeSum_flatMap, sum_finRange, Finset.sum_congr rfl fun edge _ => perEdge edge,
    Finset.sum_ite_eq Finset.univ (mesh.edgeIdx side), if_pos (Finset.mem_univ _)]

theorem postprocess_side (system : UnsteadySystem mesh) (side : mesh.Side) :
    (postprocess data dt system).solution (.side side) = system.solution (.side side) +
      timeCoef data dt side.1 * (system.solution (.edge (mesh.edgeIdx side)) -
        system.previousSolution (.edge (mesh.edgeIdx side))) + sourceShare data side.1 := by
  change addValues (addValues system.solution _) _ (.side side) = _
  rw [addValues_apply, addValues_apply, edgeEntries_placeSum, sourceEntries_placeSum]

/-- What the corrections leave over on an edge: the change of the storage since the setup,
and the sources, which the rows of the edges do not have. -/
def imbalance (newPressure oldPressure : mesh.Row → ℚ) (edge : mesh.Edge) : ℚ :=
  ((mesh.edgeSides edge).map fun side =>
    (timeCoef now dt side.1 - timeCoef data dt side.1) *
      (newPressure (.edge edge) - oldPressure (.edge edge)) + sourceShare now side.1).sum

end DarcyFlowLMHUnsteady

namespace DarcyFlowUnsteady

/-- The solution satisfies the equations of the edges. -/
def EdgeBalance (system : UnsteadySystem mesh) (solution : mesh.Row → ℚ) : Prop :=
  ∀ edge, system.matrix.mulVec solution (.edge edge) = system.rhs (.edge edge)

def EdgeConservative (solution : mesh.Row → ℚ) : Prop :=
  ∀ edge, mesh.Inner edge →
    ((mesh.edgeSides edge).map fun side => solution (.side side)).sum = 0

variable {data : FlowData mesh} {steady : FlowSystem mesh} {state : DarcyFlowUnsteady mesh}
  {marks : TimeMarks} {edge : mesh.Edge}

theorem Reached.assembled {flow : UnsteadyFlow} (reached : Reached flow data steady state) :
    steady = ⟨DarcyFlowMHSteady.assembledMatrix data, DarcyFlowMHSteady.assembledRhs data⟩ := by
  induction reached with
  | create assembled _ =>
      unfold DarcyFlowMHSteady.assemblySteadyMhMatrix at assembled
      split_ifs at assembled
      exact (Except.ok.inj assembled).symm
  | setTimeUpperConstraint _ _ ih => exact ih
  | setTimeLowerConstraint _ _ ih => exact ih
  | chooseNextTime _ _ ih => exact ih
  | updateSolution _ _ _ _ _ ih => exact ih

/-- The fluxes that are solved for balance the change of the storage. -/
theorem sum_solved (reached : Reached .lmh data steady state) (solves : Solves marks state)
    {solution : mesh.Row → ℚ} (balance : EdgeBalance (state.modified marks).schur0 solution)
    (inner : mesh.Inner edge) :
    ((mesh.edgeSides edge).map fun side => solution (.side side)).sum =
      -((mesh.edgeSides edge).map fun side =>
        DarcyFlowLMHUnsteady.timeCoef data (state.modified marks).time.timeStep.value
          side.1).sum * (solution (.edge edge) - state.schur0.solution (.edge edge)) := by
  obtain ⟨-, -, term⟩ := reached.kept.modified solves
  have row := balance edge
  have isSteady := reached.assembled
  subst isSteady
  have rhs : (state.modified marks).schur0.rhs (.edge edge) =
      (state.modified marks).schur0.newDiagonal (.edge edge) *
        state.schur0.solution (.edge edge) + (state.modified marks).schur0.steadyRhs
          (.edge edge) :=
    modifySystem_rhs (state.modified marks).time state.schur0 (.edge edge)
  have noRhs : (state.modified marks).schur0.steadyRhs (.edge edge) = 0 := by
    rw [term.steadyRhs]
    exact DarcyFlowMHSteady.assembledRhs_edge data inner
  have newDiagonal : (state.modified marks).schur0.newDiagonal (.edge edge) =
      ((mesh.edgeSides edge).map fun side => DarcyFlowLMHUnsteady.timeCoef data
        (state.modified marks).time.timeStep.value side.1).sum := by
    rw [term.newDiagonal, ← DarcyFlowLMHUnsteady.newDiagonal_eq_timeCoef]
    have atSetup : (UnsteadyFlow.lmh.setupTimeTerm data ⟨DarcyFlowMHSteady.assembledMatrix data,
        DarcyFlowMHSteady.assembledRhs data⟩
          (state.modified marks).time.timeStep.value).newDiagonal (.edge edge) = _ :=
      UnsteadyFlow.setupTimeTerm_newDiagonal .lmh _ _
    exact atSetup.symm
  rw [term.matrix, Matrix.add_mulVec, Pi.add_apply,
    DarcyFlowMHSteady.assembledMatrix_edge data inner, Matrix.mulVec_diagonal, rhs, noRhs,
    newDiagonal] at row
  linear_combination row

/-- The corrected fluxes are edge conservative if the corrections cancel on each edge. -/
theorem edgeConservative_iff (reached : Reached .lmh data steady state)
    (solves : Solves marks state) (now : FlowData mesh) {solution : mesh.Row → ℚ}
    (balance : EdgeBalance (state.modified marks).schur0 solution) :
    EdgeConservative ((state.modified marks).solved .lmh now solution).schur0.solution ↔
      ∀ edge, mesh.Inner edge →
        DarcyFlowLMHUnsteady.imbalance data now (state.modified marks).time.timeStep.value
          solution state.schur0.solution edge = 0 := by
  refine forall_congr' fun edge => forall_congr' fun inner => ?_
  have previous : (state.modified marks).schur0.previousSolution = state.schur0.solution :=
    modifySystem_previousSolution _ _
  have perSide : ∀ side ∈ mesh.edgeSides edge,
      ((state.modified marks).solved .lmh now solution).schur0.solution (.side side) =
        solution (.side side) + DarcyFlowLMHUnsteady.timeCoef data
          (state.modified marks).time.timeStep.value side.1 *
            (solution (.edge edge) - state.schur0.solution (.edge edge)) +
          ((DarcyFlowLMHUnsteady.timeCoef now (state.modified marks).time.timeStep.value side.1 -
            DarcyFlowLMHUnsteady.timeCoef data (state.modified marks).time.timeStep.value
              side.1) * (solution (.edge edge) - state.schur0.solution (.edge edge)) +
            DarcyFlowLMHUnsteady.sourceShare now side.1) := by
    intro side member
    have onEdge := (mesh.mem_edgeSides edge side).mp member
    have corrected := DarcyFlowLMHUnsteady.postprocess_side now
      (state.modified marks).time.timeStep.value
      { (state.modified marks).schur0 with solution := solution } side
    rw [onEdge, previous] at corrected
    refine corrected.trans ?_
    ring
  have fluxes := sum_solved reached solves balance inner
  rw [List.map_congr_left perSide, List.sum_map_add, List.sum_map_add, fluxes,
    List.sum_map_mul_right]
  unfold DarcyFlowLMHUnsteady.imbalance
  rw [neg_mul, neg_add_cancel, zero_add]

end DarcyFlowUnsteady

/-! ## Two elements -/

/-- Two lines with a common end. -/
def FlowMesh.twoLines : FlowMesh where
  nElements := 2
  nEdges := 3
  dim := fun _ => 1
  measure := fun _ => 1
  elementCentre := fun _ => 0
  sideCentre := fun _ => 0
  sideMeasure := fun _ => 1
  edgeIdx := fun side => ⟨side.1 + side.2, by omega⟩
  cond := fun side => if side.1.val = side.2.val then some side.1 else none
  boundaryMeasure := fun _ => 1
  neighVb := fun _ => []
  edgeSides := ![[⟨0, 0⟩], [⟨0, 1⟩, ⟨1, 0⟩], [⟨1, 1⟩]]
  edgeSides_nodup := by decide
  mem_edgeSides := by decide

def FlowData.twoLines (source : ℚ) : FlowData FlowMesh.twoLines where
  crossSection := fun _ => 1
  storativity := fun _ => 1
  initPressure := fun _ => 0
  waterSourceDensity := fun _ => source
  sigma := fun _ => 0
  bcType := fun _ => .none
  bcPressure := fun _ => 0
  bcFlux := fun _ => 0
  bcRobinSigma := fun _ => 0
  localMatrix := fun _ i j => if i = j then 1 else 0

namespace DarcyFlowUnsteady

def twoLines (source : ℚ) : DarcyFlowUnsteady FlowMesh.twoLines where
  time := oneLineTime
  schur0 := UnsteadyFlow.lmh.setupTimeTerm (FlowData.twoLines source)
    ⟨DarcyFlowMHSteady.assembledMatrix (FlowData.twoLines source),
      DarcyFlowMHSteady.assembledRhs (FlowData.twoLines source)⟩ 1

/-- The solution after the first step for the source `2`. -/
def twoLinesSolution : FlowMesh.twoLines.Row → ℚ
  | .side _ => 1
  | .element _ => 3
  | .edge _ => 2

theorem twoLines_reached (source : ℚ) :
    Reached .lmh (FlowData.twoLines source)
      ⟨DarcyFlowMHSteady.assembledMatrix (FlowData.twoLines source),
        DarcyFlowMHSteady.assembledRhs (FlowData.twoLines source)⟩ (twoLines source) :=
  Reached.create rfl (TimeGovernor.create_tenUnits 0 (some 1) none rfl (by decide +kernel)
    (by decide +kernel) (by decide +kernel)).choose_spec

theorem twoLines_solves (source : ℚ) :
    Solves (TimeGovernor.tenUnitsMarks 10) (twoLines source) where
  running := oneLine_running
  finite := ⟨1, oneLine_timeStep⟩

/-- It satisfies all equations. -/
theorem twoLines_solved (row : FlowMesh.twoLines.Row) :
    ((twoLines 2).modified (TimeGovernor.tenUnitsMarks 10)).schur0.matrix.mulVec
      twoLinesSolution row =
        ((twoLines 2).modified (TimeGovernor.tenUnitsMarks 10)).schur0.rhs row := by
  revert row
  decide +kernel

theorem edgeConservative_iff_twoLines :
    EdgeConservative (((twoLines 2).modified (TimeGovernor.tenUnitsMarks 10)).solved .lmh
        (FlowData.twoLines 2) twoLinesSolution).schur0.solution ↔
      ∀ edge, FlowMesh.twoLines.Inner edge →
        DarcyFlowLMHUnsteady.imbalance (FlowData.twoLines 2) (FlowData.twoLines 2)
          ((twoLines 2).modified (TimeGovernor.tenUnitsMarks 10)).time.timeStep.value
          twoLinesSolution (twoLines 2).schur0.solution edge = 0 :=
  edgeConservative_iff (twoLines_reached 2) (twoLines_solves 2) (FlowData.twoLines 2)
    fun edge => twoLines_solved (.edge edge)

/-- A source in the two elements is taken from the fluxes of their common edge. -/
theorem not_always_edgeConservative :
    ¬ ∀ (mesh : FlowMesh) (data : FlowData mesh) (steady : FlowSystem mesh)
      (state : DarcyFlowUnsteady mesh) (marks : TimeMarks) (solution : mesh.Row → ℚ),
      Reached .lmh data steady state → Solves marks state →
      EdgeBalance (state.modified marks).schur0 solution →
      EdgeConservative ((state.modified marks).solved .lmh data solution).schur0.solution := by
  intro always
  have conservative := always _ _ _ _ _ _ (twoLines_reached 2) (twoLines_solves 2)
    fun edge => twoLines_solved (.edge edge)
  have inner : FlowMesh.twoLines.Inner ⟨1, by decide⟩ := ⟨by decide, by decide, nofun⟩
  exact absurd (conservative _ inner) (by decide +kernel)

end DarcyFlowUnsteady

end Flow123d
