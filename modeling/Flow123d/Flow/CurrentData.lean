import Flow123d.Flow.SchurEquivalence

/-!
# The data in the solved system

The system is assembled by the constructor, and `update_solution` only sets the fields to the
new time. A solved system has the current data when the fields have kept the values that it
was assembled from.
-/

set_option autoImplicit false

namespace Flow123d

open Flow123d.Library Matrix

variable {mesh : FlowMesh}

/-! ## Fields of the same values -/

/-- The values of the boundary condition that its type uses. -/
def FlowData.SameCondition (data now : FlowData mesh) (bcd : ℕ) : Prop :=
  now.bcType bcd = data.bcType bcd ∧
    (data.bcType bcd = .dirichlet ∨ data.bcType bcd = .robin →
      now.bcPressure bcd = data.bcPressure bcd) ∧
    (data.bcType bcd = .neumann → now.bcFlux bcd = data.bcFlux bcd) ∧
    (data.bcType bcd = .robin → now.bcRobinSigma bcd = data.bcRobinSigma bcd)

/-- No field that the system is made of differs. -/
structure FlowData.SameFields (flowClass : FlowClass) (data now : FlowData mesh) : Prop where
  localMatrix : now.localMatrix = data.localMatrix
  crossSection : now.crossSection = data.crossSection
  waterSourceDensity : now.waterSourceDensity = data.waterSourceDensity
  sigma : ∀ elm, ∀ ngh ∈ mesh.neighVb elm, now.sigma ngh.element = data.sigma ngh.element
  storativity : flowClass ≠ .steady → now.storativity = data.storativity
  condition : ∀ side bcd, mesh.cond side = some bcd → data.SameCondition now bcd

namespace FlowData.SameFields

variable {flowClass : FlowClass} {data now : FlowData mesh}

theorem conditionMatrix (same : SameFields flowClass data now) (side : mesh.Side) :
    now.conditionMatrix side = data.conditionMatrix side := by
  unfold FlowData.conditionMatrix
  cases cond : mesh.cond side with
  | none => rfl
  | some bcd =>
      obtain ⟨type, -, -, sigma⟩ := same.condition side bcd cond
      dsimp only
      rw [type, same.crossSection]
      cases known : data.bcType bcd with
      | robin => rw [sigma known]
      | _ => rfl

theorem conditionRhs (same : SameFields flowClass data now) (side : mesh.Side) :
    now.conditionRhs side = data.conditionRhs side := by
  unfold FlowData.conditionRhs
  cases cond : mesh.cond side with
  | none => rfl
  | some bcd =>
      obtain ⟨type, pressure, flux, sigma⟩ := same.condition side bcd cond
      dsimp only
      rw [type, same.crossSection]
      cases known : data.bcType bcd with
      | dirichlet => rw [pressure (.inl known)]
      | neumann => rw [flux known]
      | robin => rw [pressure (.inr known), sigma known]
      | _ => rfl

theorem sideRhs (same : SameFields flowClass data now) (side : mesh.Side) :
    now.sideRhs side = data.sideRhs side := by
  unfold FlowData.sideRhs
  cases cond : mesh.cond side with
  | none => rfl
  | some bcd =>
      obtain ⟨type, pressure, -, -⟩ := same.condition side bcd cond
      dsimp only [Option.elim]
      rw [type]
      by_cases known : data.bcType bcd = .dirichlet
      · rw [if_pos known, if_pos known, pressure (.inl known)]
      · rw [if_neg known, if_neg known]

theorem cVal (same : SameFields flowClass data now) (side : mesh.Side) :
    now.cVal side = data.cVal side := by
  unfold FlowData.cVal FlowData.isDirichlet
  cases cond : mesh.cond side with
  | none => rfl
  | some bcd =>
      obtain ⟨type, -⟩ := same.condition side bcd cond
      rw [Option.any_some, Option.any_some, type]

theorem neighbourMatrix (same : SameFields flowClass data now) {elm : mesh.Element}
    {ngh : FlowNeighbour mesh.nElements mesh.nEdges mesh.Side} (member : ngh ∈ mesh.neighVb elm) :
    now.neighbourMatrix elm ngh = data.neighbourMatrix elm ngh := by
  have value : now.neighbourValue ngh = data.neighbourValue ngh := by
    unfold FlowData.neighbourValue
    rw [same.sigma elm ngh member, same.crossSection]
  unfold FlowData.neighbourMatrix
  rw [value]

theorem elementMatrix (same : SameFields flowClass data now) (elm : mesh.Element) :
    now.elementMatrix elm = data.elementMatrix elm := by
  have sides : ∀ side, now.sideMatrix side = data.sideMatrix side := by
    intro side
    unfold FlowData.sideMatrix
    rw [same.conditionMatrix, same.cVal]
  have nghs : (mesh.neighVb elm).flatMap (now.neighbourMatrix elm) =
      (mesh.neighVb elm).flatMap (data.neighbourMatrix elm) :=
    List.flatMap_congr fun ngh member => same.neighbourMatrix member
  unfold FlowData.elementMatrix FlowData.localEntries
  rw [funext sides, same.localMatrix, nghs]

theorem elementRhs (same : SameFields flowClass data now) (elm : mesh.Element) :
    now.elementRhs elm = data.elementRhs elm := by
  unfold FlowData.elementRhs
  rw [funext same.conditionRhs, funext same.sideRhs, same.crossSection, same.waterSourceDensity]

theorem filled (same : SameFields flowClass data now) :
    SameFields flowClass data.filled now.filled where
  localMatrix := by
    unfold FlowData.filled
    rw [same.localMatrix]
  crossSection := same.crossSection
  waterSourceDensity := same.waterSourceDensity
  sigma := same.sigma
  storativity := same.storativity
  condition := same.condition

theorem assembledMatrix (same : SameFields flowClass data now) :
    DarcyFlowMHSteady.assembledMatrix now = DarcyFlowMHSteady.assembledMatrix data := by
  unfold DarcyFlowMHSteady.assembledMatrix
  rw [funext same.elementMatrix]

theorem assembledRhs (same : SameFields flowClass data now) :
    DarcyFlowMHSteady.assembledRhs now = DarcyFlowMHSteady.assembledRhs data := by
  unfold DarcyFlowMHSteady.assembledRhs
  rw [funext same.elementRhs]

end FlowData.SameFields

/-- The time term of a class on a row. -/
def FlowClass.timeTerm (flowClass : FlowClass) (data : FlowData mesh) (dt : ℚ) : mesh.Row → ℚ :=
  match flowClass with
  | .steady => 0
  | .unsteady flow => fun row => -(flow.storage data row / dt)

theorem FlowData.SameFields.timeTerm {flowClass : FlowClass} {data now : FlowData mesh}
    (same : SameFields flowClass data now) (dt : ℚ) :
    flowClass.timeTerm now dt = flowClass.timeTerm data dt := by
  cases flowClass with
  | steady => rfl
  | unsteady flow =>
      have storativity := same.storativity nofun
      funext row
      unfold FlowClass.timeTerm UnsteadyFlow.storage
      dsimp only
      rw [storativity, same.crossSection]

namespace DarcyFlow

variable {flowClass : FlowClass} {nSchurs : ℕ} {solver : ExactSolver} {data now : FlowData mesh}
  {state : DarcyFlow mesh} {marks : TimeMarks}

/-- The call solves a system, and in an unsteady equation the step is finite. -/
structure Solves (flowClass : FlowClass) (marks : TimeMarks) (state : DarcyFlow mesh) : Prop where
  running : state.time.isEnd = false
  finite : flowClass ≠ .steady →
    ∃ dt : ℚ, (state.modified flowClass marks).time.timeStep = .fin dt

/-- The states of an equation created with the fields `data`. The fields of every call may
be others. -/
inductive Reached (flowClass : FlowClass) (nSchurs : ℕ) (solver : ExactSolver)
    (data : FlowData mesh) : DarcyFlow mesh → Prop where
  | steady {marks : TimeMarks} {initTime : ℚ} {state : DarcyFlow mesh}
      (isSteady : flowClass = .steady)
      (created : create flowClass data (TimeGovernor.createSteady marks initTime).1 = .ok state) :
      Reached flowClass nSchurs solver data state
  | unsteady {before after marks : TimeMarks} {input : TimeGovernor.Record}
      {mask : TimeMark.MarkType} {time : TimeGovernor} {state : DarcyFlow mesh}
      (isUnsteady : flowClass ≠ .steady)
      (time_created : TimeGovernor.create before input mask = .ok (time, after))
      (created : create flowClass data (time.fixDtUntilMark marks).1 = .ok state) :
      Reached flowClass nSchurs solver data state
  | call {state next : DarcyFlow mesh} {request : Call mesh}
      (reached : Reached flowClass nSchurs solver data state)
      (finite : ∀ marks now, request = .updateSolution marks now → state.time.isEnd = false →
        Solves flowClass marks state)
      (called : state.call flowClass nSchurs solver request = .ok next) :
      Reached flowClass nSchurs solver data next

/-! ## What a call does -/

/-- The solver replaces the solution, and the complements insert the current blocks. -/
structure Solved (nSchurs : ℕ) (now : FlowData mesh) (state after : DarcyFlow mesh) : Prop where
  solution : ∃ solution, after.toDarcyFlowUnsteady =
    (state.withSolution solution).toDarcyFlowUnsteady
  inserted : Inserted state → Inserted after
  ia1 : nSchurs = 1 ∨ nSchurs = 2 → ∃ inverse, now.update = .ok inverse ∧
    after.ia1 = makeSchur1 state.ia1 inverse

theorem solveSystem_ok {after : DarcyFlow mesh}
    (solved : solveSystem nSchurs solver now state = .ok after) :
    Solved nSchurs now state after := by
  have insertedIa1 : ∀ inverse, Inserted state → ∀ row col : mesh.Side, row.1 ≠ col.1 →
      makeSchur1 state.ia1 inverse row col = 0 := by
    intro inverse inserted row col differ
    rw [makeSchur1_eq inserted.ia1]
    exact blockDiagonal'_apply_ne _ _ _ differ
  have insertedIa2 : ∀ schur1, Inserted state → ∀ row col : mesh.Element, row ≠ col →
      makeSchur2 state.ia2 schur1 row col = 0 := by
    intro schur1 inserted row col differ
    rw [makeSchur2_eq inserted.ia2]
    exact diagonal_apply_ne _ differ
  unfold solveSystem at solved
  match nSchurs, solved with
  | 0, solved =>
      cases solved
      refine ⟨⟨_, rfl⟩, fun inserted => ⟨inserted.ia1, inserted.ia2⟩, fun eliminates => ?_⟩
      omega
  | 1, solved =>
      cases updated : now.update with
      | error message =>
          rw [updated] at solved
          cases solved
      | ok inverse =>
          rw [updated] at solved
          cases solved
          exact ⟨⟨_, rfl⟩, fun inserted => ⟨insertedIa1 _ inserted, inserted.ia2⟩,
            fun _ => ⟨inverse, updated, rfl⟩⟩
  | 2, solved =>
      cases updated : now.update with
      | error message =>
          rw [updated] at solved
          cases solved
      | ok inverse =>
          rw [updated] at solved
          cases solved
          exact ⟨⟨_, rfl⟩, fun inserted => ⟨insertedIa1 _ inserted, insertedIa2 _ inserted⟩,
            fun _ => ⟨inverse, updated, rfl⟩⟩
  | n + 3, solved =>
      cases solved
      refine ⟨⟨state.schur0.solution, rfl⟩, id, fun eliminates => ?_⟩
      omega

theorem updateSolution_ended {next : DarcyFlow mesh} (ended : state.time.isEnd = true)
    (called : state.updateSolution flowClass nSchurs solver marks now = .ok next) :
    next = state := by
  unfold updateSolution at called
  rw [ended] at called
  cases called
  rfl

theorem updateSolution_ok {next : DarcyFlow mesh} (running : state.time.isEnd = false)
    (called : state.updateSolution flowClass nSchurs solver marks now = .ok next) :
    ∃ solved, Solved nSchurs now (state.modified flowClass marks) solved ∧
      next = solved.postprocess flowClass now := by
  unfold updateSolution at called
  rw [running, if_neg Bool.false_ne_true] at called
  cases outcome : solveSystem nSchurs solver now (state.modified flowClass marks) with
  | error message =>
      rw [outcome] at called
      cases called
  | ok solved =>
      rw [outcome] at called
      cases called
      exact ⟨solved, solveSystem_ok outcome, rfl⟩

/-! ## Runs -/

theorem Reached.inserted (reached : Reached flowClass nSchurs solver data state) :
    Inserted state := by
  induction reached with
  | steady _ created => exact (create_ok created).2.1
  | unsteady _ _ created => exact (create_ok created).2.1
  | @call state next request _ _ called inserted =>
      cases request with
      | updateSolution marks now =>
          change state.updateSolution flowClass nSchurs solver marks now = .ok next at called
          cases ended : state.time.isEnd with
          | true =>
              obtain rfl := updateSolution_ended ended called
              exact inserted
          | false =>
              obtain ⟨solved, step, rfl⟩ := updateSolution_ok ended called
              have stays := step.inserted ⟨inserted.ia1, inserted.ia2⟩
              exact ⟨stays.ia1, stays.ia2⟩
      | setTimeUpperConstraint dt =>
          cases called
          exact ⟨inserted.ia1, inserted.ia2⟩
      | setTimeLowerConstraint dt =>
          cases called
          exact ⟨inserted.ia1, inserted.ia2⟩
      | chooseNextTime marks =>
          cases called
          exact ⟨inserted.ia1, inserted.ia2⟩

/-- The steady system that the constructor assembles. -/
def assembledSystem (data : FlowData mesh) : FlowSystem mesh :=
  ⟨DarcyFlowMHSteady.assembledMatrix data.filled, DarcyFlowMHSteady.assembledRhs data.filled⟩

theorem create_schur0 {time : TimeGovernor}
    (created : create flowClass data time = .ok state) :
    state.toDarcyFlowUnsteady =
      ⟨time, flowClass.setup data.filled (assembledSystem data) time.timeStep.value⟩ ∧
    DarcyFlowMHSteady.assemblySteadyMhMatrix data.filled = .ok (assembledSystem data) := by
  unfold create at created
  cases made : DarcyFlowMHSteady.makeSchur0 data with
  | error message =>
      rw [made] at created
      cases created
  | ok steady =>
      rw [made] at created
      cases created
      obtain ⟨assembled, rfl, -⟩ := makeSchur0_ok made
      exact ⟨rfl, assembled⟩

/-- An unsteady equation is one of the equations with a time term. -/
theorem Reached.unsteady_reached {flow : UnsteadyFlow}
    (reached : Reached (.unsteady flow) nSchurs solver data state) :
    DarcyFlowUnsteady.Reached flow data.filled (assembledSystem data)
      state.toDarcyFlowUnsteady := by
  generalize known : FlowClass.unsteady flow = flowClass at reached
  induction reached with
  | steady isSteady _ =>
      subst isSteady
      cases known
  | unsteady _ time_created created =>
      subst known
      obtain ⟨same, assembled⟩ := create_schur0 created
      rw [same]
      exact .create assembled time_created
  | @call state next request _ finite called stays =>
      subst known
      cases request with
      | updateSolution marks now =>
          change state.updateSolution _ nSchurs solver marks now = .ok next at called
          cases ended : state.time.isEnd with
          | true =>
              obtain rfl := updateSolution_ended ended called
              exact stays
          | false =>
              have solves := finite marks now rfl ended
              obtain ⟨solved, ⟨⟨solution, same⟩, -, -⟩, rfl⟩ := updateSolution_ok ended called
              have next := DarcyFlowUnsteady.Reached.updateSolution marks now.filled solution
                stays ⟨ended, solves.finite nofun⟩
              obtain ⟨unsteady, ia1, ia2⟩ := solved
              dsimp only at same
              subst same
              exact next
      | setTimeUpperConstraint dt =>
          cases called
          exact .setTimeUpperConstraint dt stays
      | setTimeLowerConstraint dt =>
          cases called
          exact .setTimeLowerConstraint dt stays
      | chooseNextTime marks =>
          cases called
          exact .chooseNextTime marks stays

theorem Reached.steady_system (reached : Reached .steady nSchurs solver data state) :
    state.schur0.matrix = DarcyFlowMHSteady.assembledMatrix data.filled ∧
      state.schur0.rhs = DarcyFlowMHSteady.assembledRhs data.filled := by
  generalize known : FlowClass.steady = flowClass at reached
  induction reached with
  | steady _ created =>
      subst known
      obtain ⟨same, -⟩ := create_schur0 created
      rw [same]
      exact ⟨rfl, rfl⟩
  | unsteady isUnsteady _ _ => exact absurd known.symm isUnsteady
  | @call state next request _ _ called stays =>
      subst known
      cases request with
      | updateSolution marks now =>
          change state.updateSolution _ nSchurs solver marks now = .ok next at called
          cases ended : state.time.isEnd with
          | true =>
              obtain rfl := updateSolution_ended ended called
              exact stays
          | false =>
              obtain ⟨solved, ⟨⟨solution, same⟩, -, -⟩, rfl⟩ := updateSolution_ok ended called
              obtain ⟨unsteady, ia1, ia2⟩ := solved
              dsimp only at same
              subst same
              exact stays
      | setTimeUpperConstraint dt =>
          cases called
          exact stays
      | setTimeLowerConstraint dt =>
          cases called
          exact stays
      | chooseNextTime marks =>
          cases called
          exact stays

/-- The system of the call is the one assembled from its fields. -/
structure Current (flowClass : FlowClass) (nSchurs : ℕ) (solver : ExactSolver)
    (marks : TimeMarks) (now : FlowData mesh) (state : DarcyFlow mesh) : Prop where
  matrix : (state.modified flowClass marks).schur0.matrix =
    DarcyFlowMHSteady.assembledMatrix now.filled + diagonal
      (flowClass.timeTerm now.filled (state.modified flowClass marks).time.timeStep.value)
  rhs : ∀ row, (state.modified flowClass marks).schur0.rhs row =
    DarcyFlowMHSteady.assembledRhs now.filled row +
      flowClass.timeTerm now.filled (state.modified flowClass marks).time.timeStep.value row *
        state.schur0.solution row
  fluxBlock : ∀ side other,
    (state.modified flowClass marks).schur0.matrix (.side side) (.side other) =
      now.filled.fluxBlock side other
  ia1 : nSchurs = 1 ∨ nSchurs = 2 → ∀ next,
    state.updateSolution flowClass nSchurs solver marks now = .ok next →
      next.ia1 * (blocks (state.modified flowClass marks).schur0).matrix.toBlocks₁₁ = 1

/-- The solved system is always the one of the fields of construction. -/
theorem Reached.system (reached : Reached flowClass nSchurs solver data state)
    (solves : Solves flowClass marks state) :
    (state.modified flowClass marks).schur0.matrix =
        DarcyFlowMHSteady.assembledMatrix data.filled + diagonal
          (flowClass.timeTerm data.filled (state.modified flowClass marks).time.timeStep.value) ∧
      ∀ row, (state.modified flowClass marks).schur0.rhs row =
        DarcyFlowMHSteady.assembledRhs data.filled row +
          flowClass.timeTerm data.filled
            (state.modified flowClass marks).time.timeStep.value row *
              state.schur0.solution row := by
  cases flowClass with
  | steady =>
      obtain ⟨matrix, rhs⟩ := reached.steady_system
      refine ⟨?_, fun row => ?_⟩
      · change state.schur0.matrix = _ + diagonal 0
        rw [matrix, diagonal_zero', add_zero]
      · change state.schur0.rhs row = _ + 0 * _
        rw [rhs, zero_mul, add_zero]
  | unsteady flow =>
      have kept := reached.unsteady_reached.kept
      have unsteadySolves : DarcyFlowUnsteady.Solves marks state.toDarcyFlowUnsteady :=
        ⟨solves.running, solves.finite nofun⟩
      obtain ⟨-, -, term⟩ := kept.modified unsteadySolves
      have newDiagonal : (state.toDarcyFlowUnsteady.modified marks).schur0.newDiagonal =
          (FlowClass.unsteady flow).timeTerm data.filled
            (state.toDarcyFlowUnsteady.modified marks).time.timeStep.value :=
        funext term.newDiagonal
      refine ⟨?_, fun row => ?_⟩
      · change (state.toDarcyFlowUnsteady.modified marks).schur0.matrix = _
        rw [term.matrix, newDiagonal]
        rfl
      · have rhs := DarcyFlowUnsteady.modifySystem_rhs
          (state.toDarcyFlowUnsteady.modified marks).time state.schur0 row
        have steadyRhs := congrFun term.steadyRhs row
        have diagonalRow := congrFun newDiagonal row
        change (state.schur0.modifySystem
          (state.toDarcyFlowUnsteady.modified marks).time).steadyRhs row = _ at steadyRhs
        change (state.schur0.modifySystem
          (state.toDarcyFlowUnsteady.modified marks).time).newDiagonal row = _ at diagonalRow
        rw [steadyRhs, diagonalRow, add_comm] at rhs
        exact rhs

theorem timeTerm_side (flowClass : FlowClass) (data : FlowData mesh) (dt : ℚ) (side : mesh.Side) :
    flowClass.timeTerm data dt (.side side) = 0 := by
  cases flowClass with
  | steady => rfl
  | unsteady flow =>
      change -((0 : ℚ) / dt) = 0
      rw [zero_div, neg_zero]

/-- Fields that keep the values of construction are those of the solved system. -/
theorem reached_current (reached : Reached flowClass nSchurs solver data state)
    (solves : Solves flowClass marks state) (same : data.SameFields flowClass now) :
    Current flowClass nSchurs solver marks now state := by
  obtain ⟨matrix, rhs⟩ := reached.system solves
  rw [← same.filled.timeTerm, ← same.filled.assembledMatrix] at matrix
  rw [← same.filled.timeTerm, ← same.filled.assembledRhs] at rhs
  have near : NearSteady now (state.modified flowClass marks).schur0 :=
    ⟨_, timeTerm_side flowClass now.filled _, matrix⟩
  refine ⟨matrix, rhs, near.side_side, ?_⟩
  intro eliminates next called
  obtain ⟨solved, step, rfl⟩ := updateSolution_ok solves.running called
  obtain ⟨inverse, updated, ia1⟩ := step.ia1 eliminates
  have inserted : makeSchur1 (state.modified flowClass marks).ia1 inverse =
      blockDiagonal' inverse := makeSchur1_eq reached.inserted.ia1 inverse
  change solved.ia1 * _ = 1
  rw [ia1, inserted]
  exact (near.eliminates_sides updated).inverse

/-! ## A line of another conductivity -/

theorem closedLine_reached (nSchurs : ℕ) (solver : ExactSolver) :
    Reached (.unsteady .mh) nSchurs solver (FlowData.closedLine 1) (closedLine 1) :=
  .unsteady nofun (TimeGovernor.create_tenUnits 0 (some 1) none rfl (by decide +kernel)
    (by decide +kernel) (by decide +kernel)).choose_spec (create_closedLine 1)

theorem closedLine_solves (storativity : ℚ) :
    Solves (.unsteady .mh) (TimeGovernor.tenUnitsMarks 10) (closedLine storativity) where
  running := DarcyFlowUnsteady.oneLine_running
  finite := fun _ => ⟨1, DarcyFlowUnsteady.oneLine_timeStep⟩

theorem reached_current_closedLine :
    Current (.unsteady .mh) 1 .cramer (TimeGovernor.tenUnitsMarks 10) (FlowData.closedLine 1)
      (closedLine 1) :=
  reached_current (closedLine_reached 1 .cramer) (closedLine_solves 1)
    ⟨rfl, rfl, rfl, fun _ _ _ => rfl, fun _ => rfl, fun _ _ _ => ⟨rfl, by simp⟩⟩

/-- A conductivity that changes with time does not reach the system. -/
theorem not_always_current :
    ¬ ∀ (mesh : FlowMesh) (flowClass : FlowClass) (nSchurs : ℕ) (solver : ExactSolver)
      (data now : FlowData mesh) (state : DarcyFlow mesh) (marks : TimeMarks),
      Reached flowClass nSchurs solver data state → Solves flowClass marks state →
        Current flowClass nSchurs solver marks now state := by
  intro always
  have current := always _ _ _ _ _
    { FlowData.closedLine 1 with localMatrix := fun _ i j => if i = j then 1 / 2 else 0 } _ _
    (closedLine_reached 1 .cramer) (closedLine_solves 1)
  have flux := current.fluxBlock ⟨⟨0, Nat.one_pos⟩, 0⟩ ⟨⟨0, Nat.one_pos⟩, 0⟩
  exact absurd flux (by decide +kernel)

end DarcyFlow

end Flow123d
