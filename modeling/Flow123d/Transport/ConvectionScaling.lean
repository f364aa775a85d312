import Flow123d.Transport.ConvectionTransport
import Flow123d.Library.Fold

/-!
# The scaling of the transport matrix

At every update of the concentrations the matrix is `I + dt M` and the boundary vectors
are `dt b` for the current data and the step being taken. Without an assembly this
takes unchanged data, and the step of the last time whenever new boundary conditions
come in or no rescaling is pending.
-/

set_option autoImplicit false

namespace Flow123d

open Flow123d.Library

namespace TransportMatrix

variable {n : ℕ} (matrix : TransportMatrix n)

theorem shift_shift_cancel : (matrix.shift (.fin 1)).shift (.fin (-1)) = matrix := by
  funext i j
  unfold shift
  by_cases same : i = j
  · rw [if_pos same, if_pos same, Double.add_neg_cancel]
  · rw [if_neg same, if_neg same]

variable {d : ℚ} {step : Double}

def Rescalable (step : Double) : Prop := step = .posInf ∨ ∃ e : ℚ, 0 < e ∧ step = .fin e

theorem mul_rescale (a : Double) (positive : 0 < d) (rescalable : Rescalable step) :
    a * .fin d * (step / .fin d) = a * step := by
  obtain infinite | ⟨e, new, finite⟩ := rescalable
  · rw [infinite]
    exact Double.mul_mul_posInf_div a positive
  · rw [finite]
    exact Double.mul_mul_div a positive new

/-- Rescaling in place. -/
theorem rescale (positive : 0 < d) (rescalable : Rescalable step) :
    ((((matrix.scale (.fin d)).shift (.fin 1)).shift (.fin (-1))).scale
      (step / .fin d)).shift (.fin 1) = (matrix.scale step).shift (.fin 1) := by
  rw [shift_shift_cancel]
  congr 1
  funext i j
  exact mul_rescale (matrix i j) positive rescalable

end TransportMatrix

namespace TransportVectors

variable {n nSubst : ℕ} {vectors : TransportVectors n nSubst} {d : ℚ} {step : Double}

theorem rescale (positive : 0 < d) (rescalable : TransportMatrix.Rescalable step) :
    (vectors.scale (.fin d)).scale (step / .fin d) = vectors.scale step := by
  funext sbi i
  exact TransportMatrix.mul_rescale (vectors sbi i) positive rescalable

theorem scale_ratio_self (nonzero : d ≠ 0) :
    vectors.scale (.fin d / .fin d) = vectors := by
  funext sbi i
  unfold scale
  rw [Double.fin_div_fin nonzero, div_self nonzero, Double.mul_one]

end TransportVectors

namespace ConvectionTransport

variable {n nSubst : ℕ} (mesh : TransportMesh n) (marks : TimeMarks)

/-! ## Runs -/

/-- The calls of the operator splitting, with the marks and the data of their time. -/
inductive Request (n nSubst : ℕ) where
  | setTargetTime (marks : TimeMarks) (targetTime : Double) (isTime : targetTime ≠ .nan)
  | computeOneStep (marks : TimeMarks) (input : StepInput n nSubst)

structure Observed (n nSubst : ℕ) where
  convection : ConvectionTransport n nSubst
  lastData : Option (TransportData n nSubst)

def Observed.request (mesh : TransportMesh n) (state : Observed n nSubst) :
    Request n nSubst → Observed n nSubst
  | .setTargetTime marks targetTime isTime =>
      { state with convection := (state.convection.setTargetTime marks targetTime isTime).1 }
  | .computeOneStep marks input =>
      { convection := state.convection.computeOneStep mesh marks input
        lastData := some input.data }

/-- The operands of the update are scaled exactly once by the step `dt`. -/
structure ScaledBy (mesh : TransportMesh n) (data : TransportData n nSubst) (dt : Double)
    (convection : ConvectionTransport n nSubst) : Prop where
  tm : convection.tm = ((mesh.assembleMatrix data).scale dt).shift (.fin 1)
  bcvcorr : convection.bcvcorr = (mesh.assembleBoundary data).scale dt

/-- What is asked of every call: before the end a step is taken with operands that are
scaled by it. -/
def ConsistentlyScaled (mesh : TransportMesh n) (state : Observed n nSubst) :
    Request n nSubst → Prop
  | .setTargetTime _ _ _ => True
  | .computeOneStep marks input => state.convection.time.isEnd = false →
      ScaledBy mesh input.data
        (state.convection.computeOneStep mesh marks input).time.timeStep
        (state.convection.computeOneStep mesh marks input)

/-- The data have not changed since the last step, but for announced boundary
conditions. -/
def Unchanged (mesh : TransportMesh n) (input : StepInput n nSubst)
    (last : TransportData n nSubst) : Prop :=
  mesh.assembleMatrix input.data = mesh.assembleMatrix last ∧
    (input.bcConcChanged = true ∨
      mesh.assembleBoundary input.data = mesh.assembleBoundary last)

def ScalingSound (mesh : TransportMesh n) (state : Observed n nSubst) :
    Request n nSubst → Prop
  | .setTargetTime marks targetTime isTime => state.convection.time.isEnd = false →
      (state.convection.time).MarkAhead
        (marks.add ⟨targetTime, state.convection.targetMarkType, isTime⟩)
  | .computeOneStep marks input => state.convection.time.isEnd = false →
      if state.convection.rebuilds input then state.convection.time.MarkAhead marks
      else
        (∃ last, state.lastData = some last ∧ Unchanged mesh input last) ∧
        (input.bcConcChanged = true ∨ state.convection.needTimeRescaling = false →
          state.convection.time.estimateDt marks = state.convection.time.timeStep) ∧
        (state.convection.time.lt state.convection.time.endOfFixedDtInterval = false →
          state.convection.time.MarkAhead marks)

structure Consistent (mesh : TransportMesh n) (state : Observed n nSubst) : Prop where
  proper : state.convection.time.Proper
  scaled : state.convection.time.isEnd = false → ∀ last, state.lastData = some last →
    state.convection.isConvectionMatrixScaled = true ∧
      ∃ d : ℚ, 0 < d ∧ state.convection.time.timeStep = .fin d ∧
        ScaledBy mesh last (.fin d) state.convection

/-! ## One step -/

section Step

variable {convection : ConvectionTransport n nSubst} {input : StepInput n nSubst}

theorem rebuilt_time (rebuilt : convection.rebuilds input = true) :
    (convection.reinitData mesh marks input).time =
      convection.time.refixed marks (mesh.cflMaxStep input.data) := by
  rw [reinitData_rebuilds mesh marks rebuilt]
  rfl

/-- After an assembly the boundary vectors are scaled at once and the matrix by the
pending rescaling. -/
theorem rebuilt_scaledBy (rebuilt : convection.rebuilds input = true) :
    ScaledBy mesh input.data ((convection.reinitData mesh marks input).time.estimateDt marks)
        ((convection.reinitData mesh marks input).rescale marks) ∧
      ((convection.reinitData mesh marks input).rescale marks).isConvectionMatrixScaled =
        true := by
  rw [reinitData_rebuilds mesh marks rebuilt]
  exact ⟨⟨rfl, rfl⟩, rfl⟩

variable {mesh marks}

/-- Without an assembly the old scaling is replaced by the new one. -/
theorem kept_scaledBy {last : TransportData n nSubst} {d : ℚ} {step : Double}
    (kept : convection.rebuilds input = false)
    (matrixScaled : convection.isConvectionMatrixScaled = true) (positive : 0 < d)
    (lastStep : convection.time.timeStep = .fin d)
    (scaled : ScaledBy mesh last (.fin d) convection) (unchanged : Unchanged mesh input last)
    (estimated : convection.time.estimateDt marks = step)
    (same : input.bcConcChanged = true ∨ convection.needTimeRescaling = false →
      step = .fin d)
    (rescalable : TransportMatrix.Rescalable step) :
    ScaledBy mesh input.data step ((convection.reinitData mesh marks input).rescale marks) ∧
      ((convection.reinitData mesh marks input).rescale marks).isConvectionMatrixScaled =
        true := by
  obtain ⟨matrix, boundary⟩ := unchanged
  unfold reinitData
  rw [if_neg (by simp [kept])]
  cases changed : input.bcConcChanged with
  | true =>
      have step_ := same (.inl changed)
      rw [step_] at estimated ⊢
      unfold rescale
      cases need : convection.needTimeRescaling with
      | true =>
          simp only [↓reduceIte, scaleBoundary, setBoundaryConditions, need, matrixScaled,
            estimated, lastStep]
          refine ⟨⟨?_, ?_⟩, trivial⟩
          · rw [scaled.tm, matrix]
            exact TransportMatrix.rescale _ positive (.inr ⟨d, positive, rfl⟩)
          · exact TransportVectors.scale_ratio_self positive.ne'
      | false =>
          simp only [↓reduceIte, scaleBoundary, setBoundaryConditions, need, matrixScaled,
            estimated, Bool.false_eq_true]
          refine ⟨⟨?_, rfl⟩, trivial⟩
          rw [matrix]
          exact scaled.tm
  | false =>
      have boundary_ := boundary.resolve_left (by simp [changed])
      unfold rescale
      cases need : convection.needTimeRescaling with
      | true =>
          simp only [↓reduceIte, need, matrixScaled, estimated, lastStep, Bool.false_eq_true]
          refine ⟨⟨?_, ?_⟩, trivial⟩
          · rw [scaled.tm, matrix]
            exact TransportMatrix.rescale _ positive rescalable
          · rw [scaled.bcvcorr, boundary_]
            exact TransportVectors.rescale positive rescalable
      | false =>
          have step_ := same (.inr need)
          simp only [need, matrixScaled, Bool.false_eq_true, ↓reduceIte]
          refine ⟨⟨?_, ?_⟩, trivial⟩
          · rw [matrix, step_]
            exact scaled.tm
          · rw [boundary_, step_]
            exact scaled.bcvcorr

end Step

/-! ## The governor in a step -/

section Governor

variable {marks} {tg : TimeGovernor}

theorem estimateDt_rescalable (proper : tg.Proper) (running : tg.isEnd = false)
    (ahead : tg.lt tg.endOfFixedDtInterval = false → tg.MarkAhead marks) :
    TransportMatrix.Rescalable (tg.estimateDt marks) := by
  obtain ⟨t, target, aims, -⟩ := proper.estimateDt_aims running ahead
  obtain infinite | ⟨count, counted, finite⟩ := aims.divides
  · exact .inl infinite
  · exact .inr ⟨_, div_pos (sub_pos.mpr aims.before) (Nat.cast_pos.mpr counted), finite⟩

theorem nextTime_timeStep (proper : tg.Proper) (running : tg.isEnd = false) :
    (tg.nextTime marks).timeStep = tg.estimateDt marks := by
  obtain ⟨dtFixedNow, dtChanged, next⟩ := proper.nextTime_eq running
  rw [next]
  rfl

theorem timeStep_of_running (proper : tg.Proper) (running : tg.isEnd = false)
    (ahead : tg.lt tg.endOfFixedDtInterval = false → tg.MarkAhead marks)
    (goesOn : (tg.nextTime marks).isEnd = false) :
    ∃ d : ℚ, 0 < d ∧ (tg.nextTime marks).timeStep = .fin d := by
  obtain infinite | ⟨d, positive, finite⟩ := estimateDt_rescalable proper running ahead
  · obtain ⟨t, -, time⟩ := proper.finiteTime running
    obtain ⟨dtFixedNow, dtChanged, next⟩ := proper.nextTime_eq running
    have ended : (tg.nextTime marks).time = .posInf := by
      rw [next]
      change tg.time + tg.estimateDt marks = _
      rw [time, infinite]
      rfl
    rw [TimeGovernor.isEnd_of_posInf ended] at goesOn
    cases goesOn
  · exact ⟨d, positive, (nextTime_timeStep proper running).trans finite⟩

end Governor

theorem reinitData_keeps (input : StepInput n nSubst)
    (convection : ConvectionTransport n nSubst) :
    (convection.reinitData mesh marks input).time.time = convection.time.time ∧
      (convection.reinitData mesh marks input).time.endTime = convection.time.endTime ∧
      (convection.reinitData mesh marks input).time.steady = convection.time.steady := by
  cases rebuilt : convection.rebuilds input with
  | true =>
      rw [rebuilt_time mesh marks rebuilt]
      obtain ⟨time, endTime, -⟩ :=
        TimeGovernor.refixed_time marks convection.time (mesh.cflMaxStep input.data)
      exact ⟨time, endTime, TimeGovernor.refixed_steady marks _ _⟩
  | false =>
      rw [reinitData_time mesh marks rebuilt]
      exact ⟨rfl, rfl, rfl⟩

theorem reinitData_isEnd (input : StepInput n nSubst)
    (convection : ConvectionTransport n nSubst) :
    (convection.reinitData mesh marks input).time.isEnd = convection.time.isEnd := by
  obtain ⟨time, endTime, -⟩ := reinitData_keeps mesh marks input convection
  exact TimeGovernor.isEnd_congr time endTime

theorem reinitData_proper {input : StepInput n nSubst}
    {convection : ConvectionTransport n nSubst} (proper : convection.time.Proper)
    (ahead : convection.time.isEnd = false → convection.rebuilds input = true →
      convection.time.MarkAhead marks) :
    (convection.reinitData mesh marks input).time.Proper := by
  cases rebuilt : convection.rebuilds input with
  | true =>
      rw [rebuilt_time mesh marks rebuilt]
      exact proper.refixed _ fun running => ahead running rebuilt
  | false =>
      rw [reinitData_time mesh marks rebuilt]
      exact proper

/-- What a step before the end needs of the governor after the update of the data. -/
structure StepReady (mesh : TransportMesh n) (marks : TimeMarks) (input : StepInput n nSubst)
    (convection : ConvectionTransport n nSubst) : Prop where
  proper : (convection.reinitData mesh marks input).time.Proper
  running : (convection.reinitData mesh marks input).time.isEnd = false
  ahead : (convection.reinitData mesh marks input).time.lt
      (convection.reinitData mesh marks input).time.endOfFixedDtInterval = false →
    (convection.reinitData mesh marks input).time.MarkAhead marks

variable {mesh marks}

namespace Consistent

variable {state : Observed n nSubst} {input : StepInput n nSubst}

theorem stepReady (consistent : Consistent mesh state)
    (running : state.convection.time.isEnd = false)
    (sound : ScalingSound mesh state (.computeOneStep marks input)) :
    StepReady mesh marks input state.convection := by
  have sound_ := sound running
  refine ⟨?_, ?_, ?_⟩
  · apply reinitData_proper mesh marks consistent.proper
    intro _ rebuilt
    rwa [if_pos rebuilt] at sound_
  · rw [reinitData_isEnd]
    exact running
  · cases rebuilt : state.convection.rebuilds input with
    | true =>
        rw [if_pos rebuilt] at sound_
        intro _
        rw [rebuilt_time mesh marks rebuilt, TimeGovernor.markAhead_refixed]
        exact sound_
    | false =>
        rw [if_neg (by simp [rebuilt])] at sound_
        obtain ⟨-, -, ahead⟩ := sound_
        rw [reinitData_time mesh marks rebuilt]
        exact ahead

theorem computeOneStep_scaledBy (consistent : Consistent mesh state)
    (running : state.convection.time.isEnd = false)
    (sound : ScalingSound mesh state (.computeOneStep marks input)) :
    ScaledBy mesh input.data
        (state.convection.computeOneStep mesh marks input).time.timeStep
        (state.convection.computeOneStep mesh marks input) ∧
      (state.convection.computeOneStep mesh marks input).isConvectionMatrixScaled = true := by
  have ready := consistent.stepReady running sound
  have sound_ := sound running
  obtain ⟨tm, bcvcorr, matrixScaled⟩ :=
    computeOneStep_operands mesh marks input state.convection
  rw [computeOneStep_time, nextTime_timeStep ready.proper ready.running, matrixScaled]
  cases rebuilt : state.convection.rebuilds input with
  | true =>
      obtain ⟨scaled, same⟩ := rebuilt_scaledBy mesh marks rebuilt
      exact ⟨⟨tm.trans scaled.tm, bcvcorr.trans scaled.bcvcorr⟩, same⟩
  | false =>
      rw [if_neg (by simp [rebuilt])] at sound_
      obtain ⟨⟨last, known, unchanged⟩, steady, ahead⟩ := sound_
      obtain ⟨wasScaled, d, positive, lastStep, scaledBefore⟩ :=
        consistent.scaled running last known
      rw [reinitData_time mesh marks rebuilt]
      obtain ⟨scaled, same⟩ := kept_scaledBy rebuilt wasScaled positive lastStep scaledBefore
        unchanged rfl (fun kept => (steady kept).trans lastStep)
        (estimateDt_rescalable consistent.proper running ahead)
      exact ⟨⟨tm.trans scaled.tm, bcvcorr.trans scaled.bcvcorr⟩, same⟩

theorem setTargetTime (consistent : Consistent mesh state) {targetTime : Double}
    (isTime : targetTime ≠ .nan)
    (sound : ScalingSound mesh state (.setTargetTime marks targetTime isTime)) :
    Consistent mesh (state.request mesh (.setTargetTime marks targetTime isTime)) := by
  refine ⟨consistent.proper.refixed _ sound, ?_⟩
  intro running last known
  have running_ : state.convection.time.isEnd = false := by
    rw [← TimeGovernor.refixed_isEnd
      (marks.add ⟨targetTime, state.convection.targetMarkType, isTime⟩)
      state.convection.time state.convection.cflMaxStep]
    exact running
  obtain ⟨wasScaled, d, positive, lastStep, scaled⟩ := consistent.scaled running_ last known
  refine ⟨wasScaled, d, positive, ?_, scaled.tm, scaled.bcvcorr⟩
  rw [← lastStep]
  exact TimeGovernor.refixed_timeStep _ _ _

theorem computeOneStep (consistent : Consistent mesh state)
    (sound : ScalingSound mesh state (.computeOneStep marks input)) :
    Consistent mesh (state.request mesh (.computeOneStep marks input)) := by
  have time := computeOneStep_time mesh marks input state.convection
  cases running : state.convection.time.isEnd with
  | true =>
      have ended : (state.convection.reinitData mesh marks input).time.isEnd = true := by
        rw [reinitData_isEnd, running]
      have proper : (state.convection.reinitData mesh marks input).time.Proper :=
        reinitData_proper mesh marks consistent.proper fun goesOn => by
          rw [running] at goesOn
          cases goesOn
      rw [TimeGovernor.nextTime_of_isEnd ended] at time
      refine ⟨?_, ?_⟩
      · change (state.convection.computeOneStep mesh marks input).time.Proper
        rw [time]
        exact proper
      · intro goesOn
        change (state.convection.computeOneStep mesh marks input).time.isEnd = false at goesOn
        rw [time, ended] at goesOn
        cases goesOn
  | false =>
      have ready := consistent.stepReady running sound
      obtain ⟨scaled, matrixScaled⟩ := consistent.computeOneStep_scaledBy running sound
      refine ⟨?_, ?_⟩
      · change (state.convection.computeOneStep mesh marks input).time.Proper
        rw [time]
        exact ready.proper.nextTime fun ⟨_, free⟩ => ready.ahead free
      · intro goesOn last known
        change (state.convection.computeOneStep mesh marks input).time.isEnd = false at goesOn
        rw [time] at goesOn
        obtain ⟨d, positive, step⟩ :=
          timeStep_of_running ready.proper ready.running ready.ahead goesOn
        rw [← time] at step
        rw [step] at scaled
        cases known
        exact ⟨matrixScaled, d, positive, step, scaled⟩

theorem request (consistent : Consistent mesh state) (request : Request n nSubst)
    (sound : ScalingSound mesh state request) : Consistent mesh (state.request mesh request) := by
  cases request with
  | setTargetTime marks targetTime isTime => exact consistent.setTargetTime isTime sound
  | computeOneStep marks input => exact consistent.computeOneStep sound

theorem consistentlyScaled (consistent : Consistent mesh state) (request : Request n nSubst)
    (sound : ScalingSound mesh state request) : ConsistentlyScaled mesh state request := by
  cases request with
  | setTargetTime marks targetTime isTime => trivial
  | computeOneStep marks input =>
      intro running
      exact (consistent.computeOneStep_scaledBy running sound).1

end Consistent

/-- Runs of the convection use consistently scaled operands if all calls are sound. -/
theorem run_consistentlyScaled {marks final : TimeMarks} {record : TimeGovernor.Record}
    {mask : TimeMark.MarkType} {tg : TimeGovernor} (mesh : TransportMesh n)
    (created : TimeGovernor.create marks record mask = .ok (tg, final))
    (tm : TransportMatrix n) (bcvcorr vconc : TransportVectors n nSubst)
    (requests : List (Request n nSubst))
    (sound : AlongRun (Observed.request mesh) (ScalingSound mesh)
      ⟨create tg mask tm bcvcorr vconc, none⟩ requests) :
    AlongRun (Observed.request mesh) (ConsistentlyScaled mesh)
      ⟨create tg mask tm bcvcorr vconc, none⟩ requests :=
  AlongRun.of_invariant (Consistent mesh)
    (fun _ request consistent sound => consistent.request request sound)
    (fun _ request consistent sound => consistent.consistentlyScaled request sound)
    ⟨TimeGovernor.create_proper created, fun _ _ unknown => by cases unknown⟩ sound

/-! ## Examples -/

def oneElement : TransportMesh 1 where
  measure := fun _ => 1
  sides := fun _ => [⟨⟨0, 0⟩, some 0, [⟨0, 0⟩]⟩, ⟨⟨0, 1⟩, some 1, [⟨0, 1⟩]⟩]
  neighVb := fun _ => []

def unitFlow : TransportData 1 1 where
  sideFlux := fun side => if side.sideIdx = 0 then -1 else 1
  crossSection := fun _ => 1
  porM := fun _ => 1
  bcConc := fun _ _ => 1

def unitInput (bcConcChanged : Bool) : StepInput 1 1 where
  data := unitFlow
  timeChanged := .fin 0
  porMChanged := false
  bcConcChanged := bcConcChanged
  sourcesCorr := fun _ _ => .fin 0

def unitConvection : ConvectionTransport 1 1 :=
  create ((TimeGovernor.tenUnits none none).governor 1) 1 TransportMatrix.zero
    (fun _ _ => .fin 0) (fun _ _ => .fin 0)

/-- A step to 1 and a step from there to 3/2, with or without new boundary conditions. -/
def twoTargets (bcConcChanged : Bool) : List (Request 1 1) :=
  [.setTargetTime (TimeGovernor.tenUnitsMarks 10) (.fin 1) (by decide),
    .computeOneStep (TimeGovernor.tenUnitsMarks 1) (unitInput false),
    .setTargetTime (TimeGovernor.tenUnitsMarks 1) (.fin (3 / 2)) (by simp),
    .computeOneStep ((TimeGovernor.tenUnitsMarks 1).add (TimeGovernor.markAt (3 / 2) 1))
      (unitInput bcConcChanged)]

theorem run_consistentlyScaled_two_targets :
    AlongRun (Observed.request oneElement) (ConsistentlyScaled oneElement)
      ⟨unitConvection, none⟩ (twoTargets false) := by
  refine run_consistentlyScaled oneElement
    (TimeGovernor.create_tenUnits 1 none none rfl (by decide +kernel) (by decide +kernel)
      (by decide +kernel)).choose_spec _ _ _ (twoTargets false) ⟨?_, ?_, ?_, ?_, trivial⟩
  · exact fun _ => ⟨1, by decide +kernel⟩
  · intro _
    rw [if_pos (by decide +kernel)]
    exact ⟨1, by decide +kernel⟩
  · exact fun _ => ⟨3 / 2, by decide +kernel⟩
  · intro _
    rw [if_neg (by decide +kernel)]
    exact ⟨⟨unitFlow, rfl, rfl, .inr rfl⟩,
      fun changed => absurd changed (by decide +kernel),
      fun free => absurd free (by decide +kernel)⟩

/-- New boundary conditions in the step after a new target are scaled twice. -/
theorem not_always_consistentlyScaled :
    ¬∀ (n nSubst : ℕ) (mesh : TransportMesh n) (marks final : TimeMarks)
      (record : TimeGovernor.Record) (mask : TimeMark.MarkType) (tg : TimeGovernor)
      (tm : TransportMatrix n) (bcvcorr vconc : TransportVectors n nSubst)
      (requests : List (Request n nSubst)),
      TimeGovernor.create marks record mask = .ok (tg, final) →
      AlongRun (Observed.request mesh) (ConsistentlyScaled mesh)
        ⟨create tg mask tm bcvcorr vconc, none⟩ requests := by
  intro always
  obtain ⟨final, created⟩ := TimeGovernor.create_tenUnits 1 none none rfl
    (by decide +kernel) (by decide +kernel) (by decide +kernel)
  obtain ⟨-, -, -, last, -⟩ := always 1 1 oneElement _ final _ 1 _ TransportMatrix.zero
    (fun _ _ => .fin 0) (fun _ _ => .fin 0) (twoTargets true) created
  have scaled := congrFun (congrFun (last (by decide +kernel)).bcvcorr 0) 0
  revert scaled
  decide +kernel

end ConvectionTransport

end Flow123d
