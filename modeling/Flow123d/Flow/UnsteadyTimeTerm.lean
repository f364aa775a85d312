import Flow123d.Coupling.StepConstraints
import Flow123d.Flow.DarcyFlowUnsteady

/-!
# The time term of the solved systems

The diagonal of the time term is scaled from step to step. It stays the storage over the
current step, because the report of a changed step is right.
-/

set_option autoImplicit false

namespace Flow123d

open Flow123d.Library

namespace FlowMesh

variable (mesh : FlowMesh)

theorem sum_sides (value : mesh.Side → ℚ) :
    ((List.finRange mesh.nElements).map fun elm => ((mesh.sides elm).map value).sum).sum =
      ∑ side, value side := by
  rw [sum_finRange, Fintype.sum_sigma]
  refine Finset.sum_congr rfl fun elm _ => ?_
  unfold sides
  rw [List.map_map]
  exact sum_finRange fun i => value ⟨elm, i⟩

theorem sum_edgeSides (edge : mesh.Edge) (value : mesh.Side → ℚ) :
    ((mesh.edgeSides edge).map value).sum =
      ∑ side, if mesh.edgeIdx side = edge then value side else 0 := by
  have onEdge : (mesh.edgeSides edge).toFinset =
      Finset.univ.filter fun side => mesh.edgeIdx side = edge := by
    ext side
    simp [mesh.mem_edgeSides edge side]
  rw [← List.sum_toFinset value (mesh.edgeSides_nodup edge), onEdge, Finset.sum_filter]

end FlowMesh

/-! ## The storage -/

namespace UnsteadyFlow

variable {mesh : FlowMesh}

/-- What is stored for a unit of pressure on a row. -/
def storage (flow : UnsteadyFlow) (data : FlowData mesh) : mesh.Row → ℚ
  | .side _ => 0
  | .element elm =>
      match flow with
      | mh => data.storativity elm * mesh.measure elm
      | lmh => 0
  | .edge edge =>
      match flow with
      | mh => 0
      | lmh => ((mesh.edgeSides edge).map fun side =>
          mesh.measure side.1 * data.storativity side.1 * data.crossSection side.1 /
            mesh.nSides side.1).sum

end UnsteadyFlow

namespace DarcyFlowLMHUnsteady

variable {mesh : FlowMesh} (data : FlowData mesh)

theorem newDiagonal_edge (dt : ℚ) (edge : mesh.Edge) :
    newDiagonal data dt (.edge edge) =
      ((mesh.edgeSides edge).map fun side =>
        -mesh.measure side.1 * data.storativity side.1 * data.crossSection side.1 / dt /
          mesh.nSides side.1).sum := by
  unfold newDiagonal
  rw [addValues_apply, placeSum_flatMap, mesh.sum_edgeSides, ← mesh.sum_sides, Pi.zero_apply,
    zero_add]
  congr 2
  funext elm
  unfold timeEntries placeSum FlowMesh.sides
  simp only [List.map_map, Function.comp_def, FlowMesh.Row.edge.injEq]

theorem newDiagonal_other (dt : ℚ) (row : mesh.Row) (other : ∀ edge, row ≠ .edge edge) :
    newDiagonal data dt row = 0 := by
  unfold newDiagonal
  rw [addValues_apply, Pi.zero_apply, zero_add]
  refine placeSum_of_forall_ne ?_
  intro entry member
  obtain ⟨elm, -, ofElement⟩ := List.mem_flatMap.mp member
  obtain ⟨side, -, rfl⟩ := List.mem_map.mp ofElement
  exact (other _).symm

end DarcyFlowLMHUnsteady

namespace UnsteadyFlow

variable {mesh : FlowMesh} {data : FlowData mesh} {steady : FlowSystem mesh}

theorem setupTimeTerm_newDiagonal (flow : UnsteadyFlow) (dt : ℚ) (row : mesh.Row) :
    (flow.setupTimeTerm data steady dt).newDiagonal row = -(flow.storage data row / dt) := by
  cases flow with
  | mh =>
      cases row with
      | side side => exact (neg_eq_zero.mpr (zero_div dt)).symm
      | edge edge => exact (neg_eq_zero.mpr (zero_div dt)).symm
      | element elm =>
          change -data.storativity elm * mesh.measure elm / dt =
            -(data.storativity elm * mesh.measure elm / dt)
          ring
  | lmh =>
      change DarcyFlowLMHUnsteady.newDiagonal data dt row = _
      cases row with
      | side side =>
          rw [DarcyFlowLMHUnsteady.newDiagonal_other data dt _ fun _ equal => by cases equal]
          exact (neg_eq_zero.mpr (zero_div dt)).symm
      | element elm =>
          rw [DarcyFlowLMHUnsteady.newDiagonal_other data dt _ fun _ equal => by cases equal]
          exact (neg_eq_zero.mpr (zero_div dt)).symm
      | edge edge =>
          rw [DarcyFlowLMHUnsteady.newDiagonal_edge]
          change _ = -((List.map _ (mesh.edgeSides edge)).sum / dt)
          induction mesh.edgeSides edge with
          | nil => simp
          | cons side rest ih =>
              rw [List.map_cons, List.sum_cons, ih, List.map_cons, List.sum_cons]
              ring

theorem setupTimeTerm_matrix (flow : UnsteadyFlow) (dt : ℚ) :
    (flow.setupTimeTerm data steady dt).matrix =
      steady.matrix + Matrix.diagonal (flow.setupTimeTerm data steady dt).newDiagonal := by
  cases flow <;> rfl

theorem setupTimeTerm_steady (flow : UnsteadyFlow) (dt : ℚ) :
    (flow.setupTimeTerm data steady dt).steadyDiagonal = steady.matrix.diag ∧
      (flow.setupTimeTerm data steady dt).steadyRhs = steady.rhs := by
  cases flow <;> exact ⟨rfl, rfl⟩

end UnsteadyFlow

/-! ## One step -/

namespace DarcyFlowUnsteady

variable {mesh : FlowMesh} {flow : UnsteadyFlow} {data : FlowData mesh}
  {steady : FlowSystem mesh} {state : DarcyFlowUnsteady mesh} {marks : TimeMarks}

/-- The system is the steady one with a diagonal of the time term. -/
structure HasTimeTerm (flow : UnsteadyFlow) (data : FlowData mesh) (steady : FlowSystem mesh)
    (system : UnsteadySystem mesh) (dt : ℚ) : Prop where
  matrix : system.matrix = steady.matrix + Matrix.diagonal system.newDiagonal
  newDiagonal : ∀ row, system.newDiagonal row = -(flow.storage data row / dt)
  steadyDiagonal : system.steadyDiagonal = steady.matrix.diag
  steadyRhs : system.steadyRhs = steady.rhs

theorem HasTimeTerm.setup (dt : ℚ) :
    HasTimeTerm flow data steady (flow.setupTimeTerm data steady dt) dt where
  matrix := flow.setupTimeTerm_matrix dt
  newDiagonal := flow.setupTimeTerm_newDiagonal dt
  steadyDiagonal := (flow.setupTimeTerm_steady dt).1
  steadyRhs := (flow.setupTimeTerm_steady dt).2

theorem HasTimeTerm.rescaled {system : UnsteadySystem mesh} {last dt : ℚ}
    (term : HasTimeTerm flow data steady system last) (nonzero : last ≠ 0) :
    HasTimeTerm flow data steady (system.rescaled (last / dt)) dt where
  matrix := by
    unfold UnsteadySystem.rescaled UnsteadySystem.addDiagonal
    dsimp only
    congr 1
    rw [term.matrix, term.steadyDiagonal]
    ext row col
    unfold UnsteadySystem.insertDiagonal
    by_cases same : row = col
    · rw [if_pos same, same]
      rfl
    · rw [if_neg same, Matrix.add_apply, Matrix.diagonal_apply_ne _ same, add_zero]
  newDiagonal := by
    intro row
    change system.newDiagonal row * (last / dt) = _
    rw [term.newDiagonal row]
    field_simp
  steadyDiagonal := term.steadyDiagonal
  steadyRhs := term.steadyRhs

theorem HasTimeTerm.modifySystem {system : UnsteadySystem mesh} {time : TimeGovernor}
    {last dt : ℚ} (term : HasTimeTerm flow data steady system last) (nonzero : last ≠ 0)
    (lastStep : time.lastTimeStep = .fin last) (step : time.timeStep = .fin dt)
    (changed : time.dtChanged = true ↔ time.timeStep ≠ time.lastTimeStep) :
    HasTimeTerm flow data steady (system.modifySystem time) dt := by
  unfold UnsteadySystem.modifySystem
  rw [lastStep, step] at changed ⊢
  cases report : time.dtChanged with
  | true =>
      have scaled : HasTimeTerm flow data steady (system.rescaled (last / dt)) dt :=
        term.rescaled nonzero
      exact ⟨scaled.matrix, scaled.newDiagonal, scaled.steadyDiagonal, scaled.steadyRhs⟩
  | false =>
      rw [report] at changed
      have same : dt = last := by
        by_contra differs
        cases changed.mpr (mt Double.fin.inj differs)
      subst same
      exact ⟨term.matrix, term.newDiagonal, term.steadyDiagonal, term.steadyRhs⟩

theorem modifySystem_rhs (time : TimeGovernor) (system : UnsteadySystem mesh) (row : mesh.Row) :
    (system.modifySystem time).rhs row =
      (system.modifySystem time).newDiagonal row * system.solution row +
        (system.modifySystem time).steadyRhs row := by
  unfold UnsteadySystem.modifySystem
  cases time.dtChanged <;> rfl

theorem modifySystem_previousSolution (time : TimeGovernor) (system : UnsteadySystem mesh) :
    (system.modifySystem time).previousSolution = system.solution := by
  unfold UnsteadySystem.modifySystem
  cases time.dtChanged <;> rfl

/-! ## Runs -/

/-- What every state of a run keeps. At the end of the time nothing is solved any more. -/
structure Kept (flow : UnsteadyFlow) (data : FlowData mesh) (steady : FlowSystem mesh)
    (state : DarcyFlowUnsteady mesh) : Prop where
  tracked : state.time.Tracked
  term : HasTimeTerm flow data steady state.schur0 state.time.timeStep.value

theorem Kept.modified (kept : Kept flow data steady state) (solves : Solves marks state) :
    (state.modified marks).time.Tracked ∧ state.time.Stepped (state.modified marks).time ∧
      HasTimeTerm flow data steady (state.modified marks).schur0
        (state.modified marks).time.timeStep.value := by
  have running := solves.running
  obtain ⟨dt, finite⟩ := solves.finite
  have step : (state.modified marks).time = state.time.nextTime marks := by
    change DarcyFlowMH.updateSolution marks state.time = _
    unfold DarcyFlowMH.updateSolution
    rw [running]
    rfl
  rw [step] at finite
  obtain ⟨tracked, stepped⟩ := kept.tracked.nextTime running finite
  obtain ⟨last, positive, lastStep⟩ := kept.tracked.step running
  have term := kept.term
  rw [lastStep] at term
  have modified : HasTimeTerm flow data steady
      (state.schur0.modifySystem (state.time.nextTime marks)) dt :=
    term.modifySystem positive.ne' (stepped.lastTimeStep.trans lastStep) finite
      stepped.dtChanged
  have system : (state.modified marks).schur0 =
      state.schur0.modifySystem (state.modified marks).time := rfl
  rw [system, step, finite]
  exact ⟨tracked, stepped, modified⟩

theorem HasTimeTerm.solved {now : FlowData mesh} {solution : mesh.Row → ℚ} {dt : ℚ}
    (term : HasTimeTerm flow data steady state.schur0 dt) :
    HasTimeTerm flow data steady (state.solved flow now solution).schur0 dt := by
  cases flow <;>
    exact ⟨term.matrix, term.newDiagonal, term.steadyDiagonal, term.steadyRhs⟩

theorem setUpperConstraint_timeStep (time : TimeGovernor) (dt : Double) :
    (time.setUpperConstraint dt).1.timeStep = time.timeStep := by
  unfold TimeGovernor.setUpperConstraint
  split_ifs <;> rfl

theorem setLowerConstraint_timeStep (time : TimeGovernor) (dt : Double) :
    (time.setLowerConstraint dt).1.timeStep = time.timeStep := by
  unfold TimeGovernor.setLowerConstraint
  split_ifs <;> rfl

theorem fixDtUntilMark_timeStep (time : TimeGovernor) :
    (time.fixDtUntilMark marks).1.timeStep = time.timeStep := by
  unfold TimeGovernor.fixDtUntilMark
  split_ifs <;> rfl

theorem Reached.kept (reached : Reached flow data steady state) :
    Kept flow data steady state := by
  induction reached with
  | create _ created =>
      exact ⟨(TimeGovernor.create_tracked created).fixDtUntilMark, .setup _⟩
  | setTimeUpperConstraint dt _ kept =>
      refine ⟨kept.tracked.setUpperConstraint dt, ?_⟩
      rw [setUpperConstraint_timeStep]
      exact kept.term
  | setTimeLowerConstraint dt _ kept =>
      refine ⟨kept.tracked.setLowerConstraint dt, ?_⟩
      rw [setLowerConstraint_timeStep]
      exact kept.term
  | chooseNextTime marks _ kept =>
      refine ⟨kept.tracked.fixDtUntilMark, ?_⟩
      unfold EquationBase.chooseNextTime
      rw [fixDtUntilMark_timeStep]
      exact kept.term
  | updateSolution marks now solution _ solves kept =>
      obtain ⟨tracked, -, term⟩ := kept.modified solves
      exact ⟨tracked, term.solved⟩

/-- The system that is solved after `before` has the time term of the current step. -/
structure TimeTermSound (flow : UnsteadyFlow) (data : FlowData mesh)
    (steady : FlowSystem mesh) (before after : DarcyFlowUnsteady mesh) : Prop where
  isChangedDt : after.time.dtChanged = true ↔ after.time.timeStep ≠ before.time.timeStep
  diagonal : ∀ row, after.schur0.matrix row row =
    steady.matrix row row - flow.storage data row / after.time.timeStep.value
  offDiagonal : ∀ row col, row ≠ col →
    after.schur0.matrix row col = steady.matrix row col
  rhs : ∀ row, after.schur0.rhs row =
    steady.rhs row -
      flow.storage data row / after.time.timeStep.value * before.schur0.solution row
  scaling : ∀ row, after.schur0.newDiagonal row * after.time.timeStep.value =
    -flow.storage data row

/-- In every run the solved systems have the time term of their own step. -/
theorem reached_timeTermSound (reached : Reached flow data steady state)
    (solves : Solves marks state) :
    TimeTermSound flow data steady state (state.modified marks) := by
  obtain ⟨-, stepped, term⟩ := reached.kept.modified solves
  obtain ⟨dt, positive, step⟩ := stepped.positive
  have nonzero : (state.modified marks).time.timeStep.value ≠ 0 := by
    rw [step]
    exact positive.ne'
  refine ⟨?_, ?_, ?_, ?_, ?_⟩
  · rw [stepped.dtChanged, stepped.lastTimeStep]
  · intro row
    rw [term.matrix, Matrix.add_apply, Matrix.diagonal_apply_eq, term.newDiagonal,
      ← sub_eq_add_neg]
  · intro row col differ
    rw [term.matrix, Matrix.add_apply, Matrix.diagonal_apply_ne _ differ, add_zero]
  · intro row
    have rhs : (state.modified marks).schur0.rhs row = _ :=
      modifySystem_rhs (state.modified marks).time state.schur0 row
    have newDiagonal := term.newDiagonal row
    have steadyRhs := congrFun term.steadyRhs row
    change (state.schur0.modifySystem (state.modified marks).time).newDiagonal row = _
      at newDiagonal
    change (state.schur0.modifySystem (state.modified marks).time).steadyRhs row = _
      at steadyRhs
    rw [rhs, newDiagonal, steadyRhs]
    ring
  · intro row
    rw [term.newDiagonal, neg_mul, div_mul_cancel₀ _ nonzero]

end DarcyFlowUnsteady

/-! ## One element -/

/-- A line with its two ends on edges of their own. -/
def FlowMesh.oneLine : FlowMesh where
  nElements := 1
  nEdges := 2
  dim := fun _ => 1
  measure := fun _ => 1
  elementCentre := fun _ => 0
  sideCentre := fun _ => 0
  sideMeasure := fun _ => 1
  edgeIdx := fun side => side.2
  cond := fun _ => none
  boundaryMeasure := fun _ => 1
  neighVb := fun _ => []
  edgeSides := fun edge => [⟨0, edge⟩]
  edgeSides_nodup := fun _ => List.nodup_singleton _
  mem_edgeSides := by decide

/-- The fields of the line with a cross section and a source. -/
def FlowData.oneLine (crossSection source : ℚ) : FlowData FlowMesh.oneLine where
  crossSection := fun _ => crossSection
  storativity := fun _ => 1
  initPressure := fun _ => 1
  waterSourceDensity := fun _ => source
  sigma := fun _ => 0
  bcType := fun _ => .none
  bcPressure := fun _ => 0
  bcFlux := fun _ => 0
  bcRobinSigma := fun _ => 0
  localMatrix := fun _ _ _ => 1

namespace DarcyFlowUnsteady

def oneLineTime : TimeGovernor :=
  (((TimeGovernor.tenUnits (some 1) none).governor 1).fixDtUntilMark
    (TimeGovernor.tenUnitsMarks 10)).1

/-- The flow on the line with unit steps. -/
def oneLine (flow : UnsteadyFlow) (data : FlowData FlowMesh.oneLine) :
    DarcyFlowUnsteady FlowMesh.oneLine where
  time := oneLineTime
  schur0 := flow.setupTimeTerm data
    ⟨DarcyFlowMHSteady.assembledMatrix data, DarcyFlowMHSteady.assembledRhs data⟩ 1

theorem oneLine_reached (flow : UnsteadyFlow) (crossSection source : ℚ) :
    Reached flow (FlowData.oneLine crossSection source)
      ⟨DarcyFlowMHSteady.assembledMatrix (FlowData.oneLine crossSection source),
        DarcyFlowMHSteady.assembledRhs (FlowData.oneLine crossSection source)⟩
      (oneLine flow (FlowData.oneLine crossSection source)) :=
  Reached.create rfl (TimeGovernor.create_tenUnits 0 (some 1) none rfl (by decide +kernel)
    (by decide +kernel) (by decide +kernel)).choose_spec

theorem oneLine_running : oneLineTime.isEnd = false := by decide +kernel

theorem oneLine_timeStep :
    (DarcyFlowMH.updateSolution (TimeGovernor.tenUnitsMarks 10) oneLineTime).timeStep =
      .fin 1 := by decide +kernel

theorem oneLine_solves (flow : UnsteadyFlow) (data : FlowData FlowMesh.oneLine) :
    Solves (TimeGovernor.tenUnitsMarks 10) (oneLine flow data) where
  running := oneLine_running
  finite := ⟨1, oneLine_timeStep⟩

theorem reached_timeTermSound_oneLine :
    TimeTermSound .mh (FlowData.oneLine 1 0)
      ⟨DarcyFlowMHSteady.assembledMatrix (FlowData.oneLine 1 0),
        DarcyFlowMHSteady.assembledRhs (FlowData.oneLine 1 0)⟩
      (oneLine .mh (FlowData.oneLine 1 0))
      ((oneLine .mh (FlowData.oneLine 1 0)).modified (TimeGovernor.tenUnitsMarks 10)) :=
  reached_timeTermSound (oneLine_reached .mh 1 0) (oneLine_solves .mh _)

/-- The time term is subtracted from the diagonal. -/
theorem not_always_added :
    ¬ ∀ (mesh : FlowMesh) (flow : UnsteadyFlow) (data : FlowData mesh)
      (steady : FlowSystem mesh) (state : DarcyFlowUnsteady mesh) (marks : TimeMarks),
      Reached flow data steady state → Solves marks state → ∀ row,
        (state.modified marks).schur0.matrix row row = steady.matrix row row +
            flow.storage data row / (state.modified marks).time.timeStep.value ∧
          (state.modified marks).schur0.rhs row = steady.rhs row -
            flow.storage data row / (state.modified marks).time.timeStep.value *
              state.schur0.solution row := by
  intro always
  have added := (always _ .mh _ _ _ _ (oneLine_reached .mh 1 0) (oneLine_solves .mh _)
    (.element ⟨0, Nat.one_pos⟩)).1
  exact absurd added (by decide +kernel)

end DarcyFlowUnsteady

end Flow123d
