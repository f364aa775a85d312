import Flow123d.Coupling.Equation
import Flow123d.Flow.DarcyFlowMH

/-!
# Unsteady flow: the time term

The mixed-hybrid and the lumped equation with their time governors. Arithmetic is exact, and
a run takes only steps of a finite length. What the solver finds is left open.
-/

set_option autoImplicit false

namespace Flow123d

open Flow123d.Library

/-- The number of a finite value. -/
def Library.Double.value : Double → ℚ
  | .fin value => value
  | _ => 0

/-- The vectors that both unsteady equations keep. -/
structure UnsteadySystem (mesh : FlowMesh) where
  matrix : Matrix mesh.Row mesh.Row ℚ
  rhs : mesh.Row → ℚ
  solution : mesh.Row → ℚ
  previousSolution : mesh.Row → ℚ
  steadyDiagonal : mesh.Row → ℚ
  newDiagonal : mesh.Row → ℚ
  steadyRhs : mesh.Row → ℚ

namespace UnsteadySystem

variable {mesh : FlowMesh}

/-- `MatDiagonalSet` with `INSERT_VALUES`. -/
def insertDiagonal (matrix : Matrix mesh.Row mesh.Row ℚ) (diagonal : mesh.Row → ℚ) :
    Matrix mesh.Row mesh.Row ℚ :=
  fun row col => if row = col then diagonal row else matrix row col

/-- `MatDiagonalSet` with `ADD_VALUES`. -/
def addDiagonal (matrix : Matrix mesh.Row mesh.Row ℚ) (diagonal : mesh.Row → ℚ) :
    Matrix mesh.Row mesh.Row ℚ :=
  matrix + Matrix.diagonal diagonal

/-- The common end of `setup_time_term`. -/
def setup (steady : FlowSystem mesh) (newDiagonal initial : mesh.Row → ℚ) :
    UnsteadySystem mesh where
  matrix := addDiagonal steady.matrix newDiagonal
  rhs := steady.rhs
  solution := initial
  previousSolution := initial
  steadyDiagonal := steady.matrix.diag
  newDiagonal := newDiagonal
  steadyRhs := steady.rhs

def rescaled (system : UnsteadySystem mesh) (factor : ℚ) : UnsteadySystem mesh :=
  let newDiagonal := fun row => system.newDiagonal row * factor
  { system with
    matrix := addDiagonal (insertDiagonal system.matrix system.steadyDiagonal) newDiagonal
    newDiagonal := newDiagonal }

/-- `modify_system` of both equations. -/
def modifySystem (time : TimeGovernor) (system : UnsteadySystem mesh) : UnsteadySystem mesh :=
  let scaled :=
    if time.dtChanged then
      system.rescaled (time.lastTimeStep.value / time.timeStep.value)
    else system
  { scaled with
    rhs := fun row => scaled.newDiagonal row * scaled.solution row + scaled.steadyRhs row
    previousSolution := scaled.solution
    solution := scaled.previousSolution }

end UnsteadySystem

namespace DarcyFlowMHUnsteady

variable {mesh : FlowMesh} (data : FlowData mesh)

def newDiagonal (dt : ℚ) : mesh.Row → ℚ
  | .element elm => -data.storativity elm * mesh.measure elm / dt
  | _ => 0

def initialSolution : mesh.Row → ℚ
  | .element elm => data.initPressure elm
  | _ => 0

def setupTimeTerm (steady : FlowSystem mesh) (dt : ℚ) : UnsteadySystem mesh :=
  .setup steady (newDiagonal data dt) (initialSolution data)

end DarcyFlowMHUnsteady

namespace DarcyFlowLMHUnsteady

variable {mesh : FlowMesh} (data : FlowData mesh)

def timeEntries (dt : ℚ) (elm : mesh.Element) : List mesh.VectorEntry :=
  (mesh.sides elm).map fun side =>
    (.edge (mesh.edgeIdx side),
      -mesh.measure elm * data.storativity elm * data.crossSection elm / dt / mesh.nSides elm)

def initialEntries (elm : mesh.Element) : List mesh.VectorEntry :=
  (mesh.sides elm).map fun side =>
    (.edge (mesh.edgeIdx side), data.initPressure elm / mesh.nSides elm)

def newDiagonal (dt : ℚ) : mesh.Row → ℚ :=
  addValues 0 ((List.finRange mesh.nElements).flatMap (timeEntries data dt))

def initialSolution : mesh.Row → ℚ :=
  addValues 0 ((List.finRange mesh.nElements).flatMap (initialEntries data))

def setupTimeTerm (steady : FlowSystem mesh) (dt : ℚ) : UnsteadySystem mesh :=
  .setup steady (newDiagonal data dt) (initialSolution data)

def timeCoef (dt : ℚ) (elm : mesh.Element) : ℚ :=
  -mesh.measure elm * data.crossSection elm * data.storativity elm / dt / mesh.nSides elm

/-- The time terms of an edge go to the fluxes of its sides. -/
def edgeEntries (dt : ℚ) (newPressure oldPressure : mesh.Row → ℚ) (edge : mesh.Edge) :
    List mesh.VectorEntry :=
  (mesh.edgeSides edge).map fun side =>
    (.side side, timeCoef data dt side.1 * (newPressure (.edge edge) - oldPressure (.edge edge)))

/-- The sources of an element go to the fluxes of its sides. -/
def sourceEntries (elm : mesh.Element) : List mesh.VectorEntry :=
  (mesh.sides elm).map fun side =>
    (.side side, -1 * mesh.measure elm * data.crossSection elm * data.waterSourceDensity elm /
      mesh.nSides elm)

def postprocess (dt : ℚ) (system : UnsteadySystem mesh) : UnsteadySystem mesh :=
  let timed := addValues system.solution ((List.finRange mesh.nEdges).flatMap
    (edgeEntries data dt system.solution system.previousSolution))
  { system with
    solution := addValues timed ((List.finRange mesh.nElements).flatMap (sourceEntries data)) }

end DarcyFlowLMHUnsteady

/-- The two classes of unsteady flow. -/
inductive UnsteadyFlow where
  | mh
  | lmh
deriving DecidableEq

namespace UnsteadyFlow

variable {mesh : FlowMesh}

def setupTimeTerm (flow : UnsteadyFlow) (data : FlowData mesh) (steady : FlowSystem mesh)
    (dt : ℚ) : UnsteadySystem mesh :=
  match flow with
  | mh => DarcyFlowMHUnsteady.setupTimeTerm data steady dt
  | lmh => DarcyFlowLMHUnsteady.setupTimeTerm data steady dt

def postprocess (flow : UnsteadyFlow) (data : FlowData mesh) (dt : ℚ)
    (system : UnsteadySystem mesh) : UnsteadySystem mesh :=
  match flow with
  | mh => system
  | lmh => DarcyFlowLMHUnsteady.postprocess data dt system

end UnsteadyFlow

structure DarcyFlowUnsteady (mesh : FlowMesh) where
  time : TimeGovernor
  schur0 : UnsteadySystem mesh

namespace DarcyFlowUnsteady

variable {mesh : FlowMesh}

/-- The equation when `update_solution` solves its system. -/
def modified (marks : TimeMarks) (state : DarcyFlowUnsteady mesh) : DarcyFlowUnsteady mesh :=
  let time := DarcyFlowMH.updateSolution marks state.time
  ⟨time, state.schur0.modifySystem time⟩

/-- The system is solved: the equation is not at its end, and the step is finite. -/
structure Solves (marks : TimeMarks) (state : DarcyFlowUnsteady mesh) : Prop where
  running : state.time.isEnd = false
  finite : ∃ dt : ℚ, (state.modified marks).time.timeStep = .fin dt

/-- The end of `update_solution` with the solution that the solver has found. The fields
are those of the new time. -/
def solved (flow : UnsteadyFlow) (now : FlowData mesh) (solution : mesh.Row → ℚ)
    (state : DarcyFlowUnsteady mesh) : DarcyFlowUnsteady mesh :=
  { state with
    schur0 := flow.postprocess now state.time.timeStep.value
      { state.schur0 with solution := solution } }

/-- The states of an equation whose system has been set up with the fields `data`. The
marks may be others at every call. -/
inductive Reached (flow : UnsteadyFlow) (data : FlowData mesh) (steady : FlowSystem mesh) :
    DarcyFlowUnsteady mesh → Prop where
  | create {before after marks : TimeMarks} {input : TimeGovernor.Record}
      {mask : TimeMark.MarkType} {time : TimeGovernor}
      (assembled : DarcyFlowMHSteady.assemblySteadyMhMatrix data = .ok steady)
      (created : TimeGovernor.create before input mask = .ok (time, after)) :
      Reached flow data steady
        ⟨(time.fixDtUntilMark marks).1,
          flow.setupTimeTerm data steady (time.fixDtUntilMark marks).1.timeStep.value⟩
  | setTimeUpperConstraint {state : DarcyFlowUnsteady mesh} (dt : Double)
      (reached : Reached flow data steady state) :
      Reached flow data steady { state with time := (state.time.setUpperConstraint dt).1 }
  | setTimeLowerConstraint {state : DarcyFlowUnsteady mesh} (dt : Double)
      (reached : Reached flow data steady state) :
      Reached flow data steady { state with time := (state.time.setLowerConstraint dt).1 }
  | chooseNextTime {state : DarcyFlowUnsteady mesh} (marks : TimeMarks)
      (reached : Reached flow data steady state) :
      Reached flow data steady
        { state with time := EquationBase.chooseNextTime marks state.time }
  | updateSolution {state : DarcyFlowUnsteady mesh} (marks : TimeMarks)
      (now : FlowData mesh) (solution : mesh.Row → ℚ)
      (reached : Reached flow data steady state) (solves : Solves marks state) :
      Reached flow data steady ((state.modified marks).solved flow now solution)

end DarcyFlowUnsteady

end Flow123d
