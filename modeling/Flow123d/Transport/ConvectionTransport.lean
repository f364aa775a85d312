import Flow123d.Coupling.Equation
import Flow123d.Transport.TransportMatrix

/-!
# Explicit convective transport

One step of the convection and the setting of its target time: when the matrix is
assembled, when the step is fixed, and how the matrix and the boundary vectors are
scaled by it. Dual porosity and sorption, which act on the concentrations after the
step, are left out.
-/

set_option autoImplicit false

namespace Flow123d

open Flow123d.Library

structure ConvectionTransport (n nSubst : ℕ) where
  time : TimeGovernor
  targetMarkType : TimeMark.MarkType
  cflMaxStep : Double
  transportMatrixTime : Double
  isConvectionMatrixScaled : Bool
  needTimeRescaling : Bool
  tm : TransportMatrix n
  bcvcorr : TransportVectors n nSubst
  vconc : TransportVectors n nSubst

namespace ConvectionTransport

/-- What a step reads besides the state: the current data, the time of the velocity
field, which fields `set_time` has found changed, and the sources. -/
structure StepInput (n nSubst : ℕ) where
  data : TransportData n nSubst
  timeChanged : Double
  porMChanged : Bool
  bcConcChanged : Bool
  sourcesCorr : TransportVectors n nSubst

variable {n nSubst : ℕ} (mesh : TransportMesh n) (marks : TimeMarks)

/-- The constructor, with the allocated matrix and vectors. -/
def create (time : TimeGovernor) (targetMarkType : TimeMark.MarkType)
    (tm : TransportMatrix n) (bcvcorr vconc : TransportVectors n nSubst) :
    ConvectionTransport n nSubst where
  time := time
  targetMarkType := targetMarkType
  cflMaxStep := time.endTime
  transportMatrixTime := .fin (-1)
  isConvectionMatrixScaled := false
  needTimeRescaling := true
  tm := tm
  bcvcorr := bcvcorr
  vconc := vconc

def createTransportMatrixMpi (data : TransportData n nSubst)
    (convection : ConvectionTransport n nSubst) : ConvectionTransport n nSubst :=
  { convection with
    tm := mesh.assembleMatrix data
    cflMaxStep := mesh.cflMaxStep data
    isConvectionMatrixScaled := false
    transportMatrixTime := convection.time.time }

def setBoundaryConditions (data : TransportData n nSubst)
    (convection : ConvectionTransport n nSubst) : ConvectionTransport n nSubst :=
  { convection with bcvcorr := mesh.assembleBoundary data }

def scaleBoundary (convection : ConvectionTransport n nSubst) :
    ConvectionTransport n nSubst :=
  { convection with
    bcvcorr := convection.bcvcorr.scale (convection.time.estimateDt marks) }

/-- New fixation of the time step. -/
def fixTimeStep (convection : ConvectionTransport n nSubst) :
    ConvectionTransport n nSubst :=
  { convection with
    time :=
      ((convection.time.setUpperConstraint convection.cflMaxStep).1.fixDtUntilMark marks).1 }

def rebuilds (input : StepInput n nSubst) (convection : ConvectionTransport n nSubst) : Bool :=
  convection.transportMatrixTime < input.timeChanged || input.porMChanged

/-- The update of the matrix and the boundary vectors if necessary. -/
def reinitData (input : StepInput n nSubst) (convection : ConvectionTransport n nSubst) :
    ConvectionTransport n nSubst :=
  if convection.rebuilds input then
    { scaleBoundary marks (setBoundaryConditions mesh input.data
        (fixTimeStep marks (createTransportMatrixMpi mesh input.data convection))) with
      needTimeRescaling := true }
  else if input.bcConcChanged then
    scaleBoundary marks (setBoundaryConditions mesh input.data convection)
  else convection

def rescale (convection : ConvectionTransport n nSubst) : ConvectionTransport n nSubst :=
  if convection.needTimeRescaling then
    if convection.isConvectionMatrixScaled then
      let ratio := convection.time.estimateDt marks / convection.time.timeStep
      { convection with
        tm := ((convection.tm.shift (.fin (-1))).scale ratio).shift (.fin 1)
        bcvcorr := convection.bcvcorr.scale ratio
        needTimeRescaling := false }
    else
      { convection with
        tm := (convection.tm.scale (convection.time.estimateDt marks)).shift (.fin 1)
        isConvectionMatrixScaled := true
        needTimeRescaling := false }
  else convection

def nextTime (convection : ConvectionTransport n nSubst) : ConvectionTransport n nSubst :=
  { convection with time := convection.time.nextTime marks }

def updateConcentrations (sourcesCorr : TransportVectors n nSubst)
    (convection : ConvectionTransport n nSubst) : ConvectionTransport n nSubst :=
  { convection with
    vconc := fun sbi => convection.tm.multAdd (convection.vconc sbi) fun i =>
      .fin 1 * convection.bcvcorr sbi i + sourcesCorr sbi i }

def computeOneStep (input : StepInput n nSubst) (convection : ConvectionTransport n nSubst) :
    ConvectionTransport n nSubst :=
  updateConcentrations input.sourcesCorr
    (nextTime marks (rescale marks (reinitData mesh marks input convection)))

def setTargetTime (targetTime : Double) (isTime : targetTime ≠ .nan)
    (convection : ConvectionTransport n nSubst) : ConvectionTransport n nSubst × TimeMarks :=
  let marks := marks.add ⟨targetTime, convection.targetMarkType, isTime⟩
  ({ fixTimeStep marks convection with needTimeRescaling := true }, marks)

/-! ## What the parts of a step leave alone -/

section Parts

variable {convection : ConvectionTransport n nSubst} {input : StepInput n nSubst}

theorem reinitData_rebuilds (rebuilt : convection.rebuilds input = true) :
    convection.reinitData mesh marks input =
      { scaleBoundary marks (setBoundaryConditions mesh input.data
          (fixTimeStep marks (createTransportMatrixMpi mesh input.data convection))) with
        needTimeRescaling := true } := by
  unfold reinitData
  rw [if_pos rebuilt]

theorem reinitData_time (kept : convection.rebuilds input = false) :
    (convection.reinitData mesh marks input).time = convection.time := by
  unfold reinitData
  rw [if_neg (by simp [kept])]
  split_ifs <;> rfl

@[simp] theorem rescale_time (convection : ConvectionTransport n nSubst) :
    (convection.rescale marks).time = convection.time := by
  unfold rescale
  split_ifs <;> rfl

theorem computeOneStep_time (input : StepInput n nSubst)
    (convection : ConvectionTransport n nSubst) :
    (convection.computeOneStep mesh marks input).time =
      ((convection.reinitData mesh marks input).time).nextTime marks := by
  unfold computeOneStep updateConcentrations nextTime
  rw [rescale_time]

theorem computeOneStep_operands (input : StepInput n nSubst)
    (convection : ConvectionTransport n nSubst) :
    (convection.computeOneStep mesh marks input).tm =
        ((convection.reinitData mesh marks input).rescale marks).tm ∧
      (convection.computeOneStep mesh marks input).bcvcorr =
        ((convection.reinitData mesh marks input).rescale marks).bcvcorr ∧
      (convection.computeOneStep mesh marks input).isConvectionMatrixScaled =
        ((convection.reinitData mesh marks input).rescale marks).isConvectionMatrixScaled :=
  ⟨rfl, rfl, rfl⟩

theorem reinitData_vconc (input : StepInput n nSubst)
    (convection : ConvectionTransport n nSubst) :
    (convection.reinitData mesh marks input).vconc = convection.vconc := by
  unfold reinitData
  split_ifs <;> rfl

@[simp] theorem rescale_vconc (convection : ConvectionTransport n nSubst) :
    (convection.rescale marks).vconc = convection.vconc := by
  unfold rescale
  split_ifs <;> rfl

theorem computeOneStep_vconc (input : StepInput n nSubst)
    (convection : ConvectionTransport n nSubst) :
    (convection.computeOneStep mesh marks input).vconc = fun sbi =>
      (convection.computeOneStep mesh marks input).tm.multAdd (convection.vconc sbi) fun i =>
        .fin 1 * (convection.computeOneStep mesh marks input).bcvcorr sbi i +
          input.sourcesCorr sbi i := by
  change (fun sbi => TransportMatrix.multAdd _
    (((convection.reinitData mesh marks input).rescale marks).vconc sbi) _) = _
  rw [rescale_vconc, reinitData_vconc]
  rfl

end Parts

end ConvectionTransport

/-! ## The governor of the convection -/

namespace TimeGovernor

variable {marks : TimeMarks} {tg : TimeGovernor} {upper : Double}

/-- The governor after a request of an upper constraint and a fixation. -/
def refixed (marks : TimeMarks) (tg : TimeGovernor) (upper : Double) : TimeGovernor :=
  ((tg.setUpperConstraint upper).1.fixDtUntilMark marks).1

theorem setUpperConstraint_time (tg : TimeGovernor) (upper : Double) :
    (tg.setUpperConstraint upper).1.time = tg.time ∧
      (tg.setUpperConstraint upper).1.endTime = tg.endTime ∧
      (tg.setUpperConstraint upper).1.fixedTimeMarkMask = tg.fixedTimeMarkMask := by
  unfold setUpperConstraint
  split_ifs <;> exact ⟨rfl, rfl, rfl⟩

theorem fixDtUntilMark_time (marks : TimeMarks) (tg : TimeGovernor) :
    (tg.fixDtUntilMark marks).1.time = tg.time ∧
      (tg.fixDtUntilMark marks).1.endTime = tg.endTime ∧
      (tg.fixDtUntilMark marks).1.fixedTimeMarkMask = tg.fixedTimeMarkMask := by
  unfold fixDtUntilMark
  split_ifs <;> exact ⟨rfl, rfl, rfl⟩

theorem refixed_time (marks : TimeMarks) (tg : TimeGovernor) (upper : Double) :
    (tg.refixed marks upper).time = tg.time ∧
      (tg.refixed marks upper).endTime = tg.endTime ∧
      (tg.refixed marks upper).fixedTimeMarkMask = tg.fixedTimeMarkMask := by
  obtain ⟨time, endTime, mask⟩ := setUpperConstraint_time tg upper
  obtain ⟨time', endTime', mask'⟩ := fixDtUntilMark_time marks (tg.setUpperConstraint upper).1
  exact ⟨time'.trans time, endTime'.trans endTime, mask'.trans mask⟩

theorem refixed_timeStep (marks : TimeMarks) (tg : TimeGovernor) (upper : Double) :
    (tg.refixed marks upper).timeStep = tg.timeStep := by
  unfold refixed fixDtUntilMark setUpperConstraint
  split_ifs <;> rfl

theorem refixed_isEnd (marks : TimeMarks) (tg : TimeGovernor) (upper : Double) :
    (tg.refixed marks upper).isEnd = tg.isEnd := by
  obtain ⟨time, endTime, -⟩ := refixed_time marks tg upper
  exact isEnd_congr time endTime

theorem refixed_steady (marks : TimeMarks) (tg : TimeGovernor) (upper : Double) :
    (tg.refixed marks upper).steady = tg.steady := by
  unfold refixed fixDtUntilMark setUpperConstraint
  split_ifs <;> rfl

theorem next_congr {other : TimeGovernor} (marks : TimeMarks) (mask : TimeMark.MarkType)
    (same : tg.time = other.time) : marks.next tg mask = marks.next other mask := by
  unfold TimeMarks.next lt
  rw [same]

theorem markAhead_congr {other : TimeGovernor} (time : tg.time = other.time)
    (mask : tg.fixedTimeMarkMask = other.fixedTimeMarkMask) :
    MarkAhead marks tg ↔ MarkAhead marks other := by
  unfold MarkAhead
  rw [mask, next_congr marks _ time]

theorem markAhead_refixed (upper : Double) :
    MarkAhead marks (tg.refixed marks upper) ↔ MarkAhead marks tg := by
  obtain ⟨time, -, mask⟩ := refixed_time marks tg upper
  exact markAhead_congr time mask

theorem estimateDt_fixDtUntilMark {t : ℚ} (running : tg.isEnd = false)
    (unsteady : tg.steady = false) (time : tg.time = .fin t) :
    (tg.fixDtUntilMark marks).1.estimateDt marks = tg.release.estimateDt marks := by
  have next := lt_next marks tg.fixedTimeMarkMask time
  rw [fixDtUntilMark_unsteady unsteady]
  exact estimateDt_fixed running unsteady next

theorem nextTime_time (marks : TimeMarks) (running : tg.isEnd = false)
    (unsteady : tg.steady = false) :
    (tg.nextTime marks).time = tg.time + (tg.nextTime marks).timeStep ∧
      (tg.nextTime marks).steady = false := by
  rw [nextTime_unsteady running unsteady]
  unfold chooseStep
  split_ifs
  · exact ⟨rfl, unsteady⟩
  · exact ⟨rfl, unsteady⟩

theorem nextTime_fixed (running : tg.isEnd = false) (unsteady : tg.steady = false)
    (fixed : tg.lt tg.endOfFixedDtInterval = true) :
    (tg.nextTime marks).timeStep = tg.correctedDt := by
  rw [nextTime_unsteady running unsteady]
  unfold chooseStep
  rw [if_pos fixed]
  rfl

theorem refixed_of_not_markAhead {t : ℚ} (upper : Double) (running : tg.isEnd = false)
    (unsteady : tg.steady = false) (time : tg.time = .fin t)
    (none_ : ¬MarkAhead marks tg) :
    (tg.refixed marks upper).estimateDt marks = .nan ∧
      ((tg.refixed marks upper).nextTime marks).timeStep = .nan := by
  obtain ⟨time', endTime', mask'⟩ := setUpperConstraint_time tg upper
  have goesOn := (isEnd_congr time' endTime').trans running
  have steady : (tg.setUpperConstraint upper).1.steady = false := by
    unfold setUpperConstraint
    split_ifs <;> exact unsteady
  have finite := time'.trans time
  have stopper := next_of_not_markAhead finite (mt (markAhead_congr time' mask').mp none_)
  have selected : (tg.setUpperConstraint upper).1.release.estimateDt marks = .nan :=
    estimateDt_of_not_markAhead goesOn steady (not_lt_negInf finite) finite
      (mt (markAhead_congr time' mask').mp none_)
  unfold refixed
  constructor
  · rw [estimateDt_fixDtUntilMark goesOn steady finite]
    exact selected
  · have fixed := lt_next marks (tg.setUpperConstraint upper).1.fixedTimeMarkMask finite
    rw [fixDtUntilMark_unsteady steady]
    refine (nextTime_fixed ?_ ?_ fixed).trans ?_
    · exact goesOn
    · exact steady
    unfold correctedDt
    simp only [selected, stopper, finite, Double.posInf_sub_fin]
    rfl

theorem Proper.refixed (proper : Proper tg) (upper : Double)
    (ahead : tg.isEnd = false → MarkAhead marks tg) : Proper (tg.refixed marks upper) := by
  obtain ⟨time, endTime, mask⟩ := setUpperConstraint_time tg upper
  apply (proper.setUpperConstraint upper).fixDtUntilMark
  intro running
  rw [isEnd_congr time endTime] at running
  exact (markAhead_congr time mask).mpr (ahead running)

theorem Proper.markAhead_of_refixed (proper : Proper tg) (running : tg.isEnd = false)
    {dt : ℚ} (estimated : (tg.refixed marks upper).estimateDt marks = .fin dt) :
    MarkAhead marks tg := by
  obtain ⟨t, -, time⟩ := proper.finiteTime running
  by_contra none_
  rw [(refixed_of_not_markAhead upper running proper.unsteady time none_).1] at estimated
  cases estimated

end TimeGovernor

end Flow123d

/-!
## Concentration sources

A source has a density and, where its concentration is above the current one, a part
that is proportional to the difference. The values of the three fields are those of the
last time they changed.
-/

namespace Flow123d

open Flow123d.Library

structure Sources (n nSubst : ℕ) where
  density : Fin nSubst → Fin n → ℚ
  conc : Fin nSubst → Fin n → ℚ
  sigma : Fin nSubst → Fin n → ℚ

namespace Sources

variable {n nSubst : ℕ} (sources : Sources n nSubst)

/-- The vectors `sources_corr` of all substances for the step `dt`. -/
def computeConcentrationSources (dt : Double) (vconc : TransportVectors n nSubst) :
    TransportVectors n nSubst := fun sbi elm =>
  let concDiff := .fin (sources.conc sbi elm) - vconc sbi elm
  if .fin 0 < concDiff then
    (.fin (sources.density sbi elm) + concDiff * .fin (sources.sigma sbi elm)) * dt
  else .fin (sources.density sbi elm) * dt

def computeConcentrationSourcesForMassBalance (vpconc : TransportVectors n nSubst) :
    TransportVectors n nSubst := fun sbi elm =>
  let concDiff := .fin (sources.conc sbi elm) - vpconc sbi elm
  if .fin 0 < concDiff then
    .fin (sources.density sbi elm) + concDiff * .fin (sources.sigma sbi elm)
  else .fin (sources.density sbi elm)

/-- No source takes anything away. -/
structure Nonneg : Prop where
  density : ∀ sbi elm, 0 ≤ sources.density sbi elm
  sigma : ∀ sbi elm, 0 ≤ sources.sigma sbi elm

variable {sources}

/-- The two functions differ by the time step. -/
theorem computeConcentrationSources_eq (sources : Sources n nSubst) (dt : Double)
    (vconc : TransportVectors n nSubst) (sbi : Fin nSubst) (elm : Fin n) :
    sources.computeConcentrationSources dt vconc sbi elm =
      sources.computeConcentrationSourcesForMassBalance vconc sbi elm * dt := by
  unfold computeConcentrationSources computeConcentrationSourcesForMassBalance
  simp only
  split_ifs with above
  · rfl
  · rfl

end Sources

end Flow123d
