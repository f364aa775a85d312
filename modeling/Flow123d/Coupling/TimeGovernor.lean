import Flow123d.Coupling.TimeMarks

/-!
# Time governor

The choice of time steps under the permanent limits, the constraints requested
for the next step and the fixed time marks. Warnings that `estimate_dt` only
prints are left out. Step counts are unbounded, and the conversion of a count
that is not finite keeps it.
-/

set_option autoImplicit false

namespace Flow123d

open Flow123d.Library

structure TimeGovernor where
  timeLevel : ℕ
  time : Double
  /-- No constructor sets it. -/
  lastTime : Option Double
  endOfFixedDtInterval : Double
  endTime : Double
  timeStep : Double
  lastTimeStep : Double
  fixedDt : Double
  dtFixedNow : Bool
  dtChanged : Bool
  upperConstraint : Double
  lowerConstraint : Double
  maxTimeStep : Double
  minTimeStep : Double
  fixedTimeMarkMask : TimeMark.MarkType
  steady : Bool
deriving DecidableEq

namespace TimeGovernor

def infTime : Double := .posInf

def timeStepLowerBound : ℚ := Double.epsilon

def roundNStepsPrecision : ℚ := 1 / 10 ^ 14

/-! ## Comparisons of times -/

def precision (time otherTime : Double) : Double :=
  .fin (16 * Double.epsilon) * Double.stdMax time.abs otherTime.abs

def gt (tg : TimeGovernor) (otherTime : Double) : Bool :=
  !decide (tg.time ≤ otherTime + precision tg.time otherTime)

def ge (tg : TimeGovernor) (otherTime : Double) : Bool :=
  decide (otherTime - precision tg.time otherTime ≤ tg.time)

def lt (tg : TimeGovernor) (otherTime : Double) : Bool :=
  !decide (otherTime - precision tg.time otherTime ≤ tg.time)

def le (tg : TimeGovernor) (otherTime : Double) : Bool :=
  decide (tg.time ≤ otherTime + precision tg.time otherTime)

def isEnd (tg : TimeGovernor) : Bool := tg.ge tg.endTime || tg.time == infTime

end TimeGovernor

/-- The first mark strictly behind the time of the governor that matches. The
search cannot run past the end stopper. -/
def TimeMarks.next (marks : TimeMarks) (tg : TimeGovernor) (mask : TimeMark.MarkType) :
    TimeMark :=
  ((marks.marks.dropWhile fun mark => mark.time < tg.time).find? fun mark =>
    tg.lt mark.time && mark.matchMask mask).getD TimeMark.endStopper

namespace TimeGovernor

/-! ## Constructors -/

/-- The input record. Its numbers are finite. -/
structure Record where
  startTime : ℚ
  endTime : ℚ
  initDt : Option ℚ
  minDt : Option ℚ
  maxDt : Option ℚ
deriving DecidableEq

namespace Record

/-- The permanent upper limit: the whole time of the simulation by default, or
the initial step when there is one. -/
def maxTimeStep (input : Record) : ℚ :=
  input.maxDt.getD (input.initDt.getD (input.endTime - input.startTime))

def minTimeStep (input : Record) : ℚ :=
  input.minDt.getD (input.initDt.getD timeStepLowerBound)

def governor (input : Record) (mask : TimeMark.MarkType) : TimeGovernor where
  timeLevel := 0
  time := .fin input.startTime
  lastTime := none
  endOfFixedDtInterval := .fin input.startTime
  endTime := .fin input.endTime
  timeStep := .fin (input.initDt.getD (input.endTime - input.startTime))
  lastTimeStep := .fin 0
  fixedDt := .fin 0
  dtFixedNow := false
  dtChanged := true
  upperConstraint := (input.initDt.map Double.fin).getD infTime
  lowerConstraint := .fin (input.initDt.getD timeStepLowerBound)
  maxTimeStep := .fin input.maxTimeStep
  minTimeStep := .fin input.minTimeStep
  fixedTimeMarkMask := mask
  steady := false

end Record

def markAt (time : ℚ) (type : TimeMark.MarkType) : TimeMark := ⟨.fin time, type, by simp⟩

/-- The constructor for unsteady solvers. The two marks it adds are lost when a
later check stops the program. -/
def create (marks : TimeMarks) (input : Record) (fixedTimeMask : TimeMark.MarkType) :
    Except String (TimeGovernor × TimeMarks) :=
  let mask := fixedTimeMask ||| marks.typeFixedTime
  if input.startTime < 0 then
    .error "Start time has to be equal or greater than ZERO.\n"
  else if input.endTime < input.startTime then
    .error "End time must be greater than start time.\n"
  else if input.initDt.any (· ≤ 0) then
    .error "Initial time step has to be greater than ZERO.\n"
  else if input.minTimeStep ≤ 0 then
    .error "Minimal time step has to be greater than ZERO.\n"
  else if input.maxTimeStep < input.minTimeStep then
    .error "Maximal time step has to be greater or equal to the minimal.\n"
  else
    .ok (input.governor mask,
      (marks.add (markAt input.startTime mask)).add (markAt input.endTime mask))

def tenUnits (initDt : Option ℚ) (maxDt : Option ℚ) : Record := ⟨0, 10, initDt, none, maxDt⟩

def tenUnitsMarks (mark : ℚ) : TimeMarks :=
  ((TimeMarks.create.add (markAt 0 1)).add (markAt 10 1)).add (markAt mark 1)

/-- The constructor of a steady governor, which leaves `dt_fixed_now` undefined;
a steady governor never reads it. -/
def createSteady (marks : TimeMarks) (initTime : ℚ) : TimeGovernor × TimeMarks :=
  ({ timeLevel := 0
     time := .fin initTime
     lastTime := none
     endOfFixedDtInterval := .fin initTime
     endTime := infTime
     timeStep := infTime
     lastTimeStep := .fin 0
     fixedDt := .fin 0
     dtFixedNow := false
     dtChanged := true
     upperConstraint := infTime
     lowerConstraint := .fin timeStepLowerBound
     maxTimeStep := infTime
     minTimeStep := .fin timeStepLowerBound
     fixedTimeMarkMask := 0
     steady := true },
    marks.add (markAt initTime 0))

/-! ## Constraints -/

def setPermanentConstraint (tg : TimeGovernor) (minDt maxDt : Double) :
    Except String TimeGovernor :=
  if minDt < .fin 0 then
    .error "Minimal time step has to be greater than ZERO.\n"
  else if maxDt < minDt then
    .error "Maximal time step has to be greater or equal to the minimal.\n"
  else
    let minTimeStep := Double.stdMax minDt (.fin timeStepLowerBound)
    let maxTimeStep := Double.stdMin maxDt (tg.endTime - tg.time)
    .ok { tg with
      minTimeStep := minTimeStep
      maxTimeStep := maxTimeStep
      upperConstraint := maxTimeStep
      lowerConstraint := minTimeStep }

def setUpperConstraint (tg : TimeGovernor) (upper : Double) : TimeGovernor × ℤ :=
  if tg.upperConstraint < upper then (tg, -1)
  else if tg.lowerConstraint ≤ upper then ({ tg with upperConstraint := upper }, 0)
  else if upper < tg.lowerConstraint then (tg, 1)
  else (tg, 0)

def setLowerConstraint (tg : TimeGovernor) (lower : Double) : TimeGovernor × ℤ :=
  if tg.upperConstraint < lower then (tg, -1)
  else if tg.minTimeStep ≤ lower then ({ tg with lowerConstraint := lower }, 0)
  else if lower < tg.minTimeStep then (tg, 1)
  else (tg, 0)

/-! ## Steps -/

/-- Rounds the number of steps till the next fixed time up, unless it is an
integer up to the rounding precision. -/
def numberOfSteps (fullStep stepEstimate : Double) : Double :=
  let nFloorSteps := (fullStep / stepEstimate).floor
  if (fullStep / stepEstimate - nFloorSteps).abs < .fin roundNStepsPrecision then nFloorSteps
  else (fullStep / stepEstimate).ceil

def estimateDt (marks : TimeMarks) (tg : TimeGovernor) : Double :=
  if tg.time = infTime ∨ tg.isEnd then .fin 0
  else if tg.steady ∧ tg.timeLevel = 0 then infTime
  else if tg.steady ∧ tg.timeLevel = 1 then .fin 0
  else if tg.lt tg.endOfFixedDtInterval then tg.fixedDt
  else
    let fullStep := (marks.next tg tg.fixedTimeMarkMask).time - tg.time
    let stepEstimate :=
      Double.stdMax (Double.stdMin fullStep tg.upperConstraint) tg.lowerConstraint
    fullStep / numberOfSteps fullStep stepEstimate

def estimateTime (marks : TimeMarks) (tg : TimeGovernor) : Double :=
  tg.time + tg.estimateDt marks

def release (tg : TimeGovernor) : TimeGovernor :=
  { tg with endOfFixedDtInterval := -infTime }

def fixDtUntilMark (marks : TimeMarks) (tg : TimeGovernor) : TimeGovernor × Double :=
  if tg.steady then (tg, .fin 0)
  else
    let endOfFixed := (marks.next tg tg.fixedTimeMarkMask).time
    ({ tg with
        fixedDt := tg.release.estimateDt marks
        dtFixedNow := true
        endOfFixedDtInterval := endOfFixed },
      endOfFixed)

def correctedDt (tg : TimeGovernor) : Double :=
  (tg.endOfFixedDtInterval - tg.time) /
    ((tg.endOfFixedDtInterval - tg.time) / tg.fixedDt).round

/-- The selection of the step in `next_time`. -/
def chooseStep (marks : TimeMarks) (tg : TimeGovernor) : TimeGovernor :=
  if tg.lt tg.endOfFixedDtInterval then
    { tg with
      fixedDt := tg.correctedDt
      lastTimeStep := tg.timeStep
      timeStep := tg.correctedDt
      dtFixedNow := false
      dtChanged := tg.dtFixedNow && !tg.timeStep.equal tg.correctedDt }
  else
    { tg with
      lastTimeStep := tg.timeStep
      timeStep := tg.estimateDt marks
      dtChanged := !tg.timeStep.equal (tg.estimateDt marks) }

/-- The advance of the time in `next_time` with the reset of the constraints. -/
def advance (tg : TimeGovernor) : TimeGovernor :=
  { tg with
    lastTime := some tg.time
    time := tg.time + tg.timeStep
    timeLevel := tg.timeLevel + 1
    upperConstraint := Double.stdMin (tg.endTime - (tg.time + tg.timeStep)) tg.maxTimeStep
    lowerConstraint := tg.minTimeStep }

def nextTime (marks : TimeMarks) (tg : TimeGovernor) : TimeGovernor :=
  if tg.time = infTime ∨ tg.isEnd then tg
  else if tg.steady then
    { tg with
      lastTimeStep := tg.endTime
      timeLevel := 1
      timeStep := .fin 0
      time := tg.endTime
      dtChanged := false }
  else (tg.chooseStep marks).advance

/-! ## Runs -/

inductive Call where
  | setUpperConstraint (upper : Double)
  | setLowerConstraint (lower : Double)
  | fixDtUntilMark
  | nextTime
deriving DecidableEq

def call (marks : TimeMarks) (tg : TimeGovernor) : Call → TimeGovernor
  | .setUpperConstraint upper => (tg.setUpperConstraint upper).1
  | .setLowerConstraint lower => (tg.setLowerConstraint lower).1
  | .fixDtUntilMark => (tg.fixDtUntilMark marks).1
  | .nextTime => tg.nextTime marks

def run (marks : TimeMarks) (tg : TimeGovernor) (calls : List Call) : TimeGovernor :=
  calls.foldl (call marks) tg

end TimeGovernor

end Flow123d
