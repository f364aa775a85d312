import Flow123d.Flow.DarcyFlowUnsteady
import Flow123d.La.Schur
import Mathlib.LinearAlgebra.Matrix.Adjugate

/-!
# Solutions of the water flow

`update_solution` of the steady and of both unsteady equations for every `n_schurs`. The
fields have the values of the time that the call reaches, and only the Schur complements and
the corrections of the fluxes see them.
-/

set_option autoImplicit false

namespace Flow123d

open Flow123d.Library Matrix

/-! ## The local matrices -/

/-- `NUM_ZERO`, the quotient of `DBL_MIN` and `DBL_EPSILON`. -/
def numZero : ℚ := 1 / 2 ^ 970

namespace MHFEValues

variable {n : ℕ}

/-- `loc[j][i] = loc[i][j]` after the entry above the diagonal has been computed. -/
def locMatrix (entry : Fin n → Fin n → ℚ) : Matrix (Fin n) (Fin n) ℚ :=
  fun i j => if i ≤ j then entry i j else entry j i

def invLocMatrix (entry : Fin n → Fin n → ℚ) : Matrix (Fin n) (Fin n) ℚ :=
  (locMatrix entry).det⁻¹ • (locMatrix entry).adjugate

def singular (entry : Fin n → Fin n → ℚ) : Bool :=
  |(locMatrix entry).det| < numZero

end MHFEValues

namespace FlowData

variable {mesh : FlowMesh} (data : FlowData mesh)

/-- `MHFEValues::local_matrix` takes the entries above the diagonal. -/
def filled : FlowData mesh :=
  { data with localMatrix := fun elm => MHFEValues.locMatrix (data.localMatrix elm) }

/-- The inverse local matrices after `MHFEValues::update` of every element. -/
def update : Except String
    ((elm : mesh.Element) → Matrix (Fin (mesh.dim elm + 1)) (Fin (mesh.dim elm + 1)) ℚ) :=
  if (List.finRange mesh.nElements).any fun elm => MHFEValues.singular (data.localMatrix elm) then
    .error "det: %30.18e \n"
  else .ok fun elm => MHFEValues.invLocMatrix (data.localMatrix elm)

end FlowData

namespace DarcyFlowMHSteady

/-- The allocating pass has seen all conditions before the first local matrix is updated. -/
def makeSchur0 {mesh : FlowMesh} (data : FlowData mesh) : Except String (FlowSystem mesh) := do
  let steady ← assemblySteadyMhMatrix data.filled
  let _ ← data.update
  return steady

end DarcyFlowMHSteady

/-! ## The equations -/

/-- The classes of the water flow. -/
inductive FlowClass where
  | steady
  | unsteady (flow : UnsteadyFlow)
deriving DecidableEq

/-- The steady class leaves the vectors of the time term unused. -/
structure DarcyFlow (mesh : FlowMesh) extends DarcyFlowUnsteady mesh where
  ia1 : Matrix mesh.Side mesh.Side ℚ
  ia2 : Matrix mesh.Element mesh.Element ℚ

namespace FlowClass

variable {mesh : FlowMesh}

def modifySystem (flowClass : FlowClass) (time : TimeGovernor) (system : UnsteadySystem mesh) :
    UnsteadySystem mesh :=
  match flowClass with
  | steady => system
  | unsteady _ => system.modifySystem time

def postprocess (flowClass : FlowClass) (data : FlowData mesh) (dt : ℚ)
    (system : UnsteadySystem mesh) : UnsteadySystem mesh :=
  match flowClass with
  | steady => system
  | unsteady flow => flow.postprocess data dt system

def setup (flowClass : FlowClass) (data : FlowData mesh) (steadySystem : FlowSystem mesh)
    (dt : ℚ) : UnsteadySystem mesh :=
  match flowClass with
  | steady => ⟨steadySystem.matrix, steadySystem.rhs, 0, 0, 0, 0, 0⟩
  | unsteady flow => flow.setupTimeTerm data steadySystem dt

end FlowClass

namespace DarcyFlow

variable {mesh : FlowMesh}

/-- The constructor after its time governor. -/
def create (flowClass : FlowClass) (data : FlowData mesh) (time : TimeGovernor) :
    Except String (DarcyFlow mesh) := do
  let steadySystem ← DarcyFlowMHSteady.makeSchur0 data
  return ⟨⟨time, flowClass.setup data.filled steadySystem time.timeStep.value⟩, 0, 0⟩

/-- The rows of the sides stand first. -/
def blockRow : mesh.Side ⊕ (mesh.Element ⊕ mesh.Edge) → mesh.Row
  | .inl side => .side side
  | .inr (.inl elm) => .element elm
  | .inr (.inr edge) => .edge edge

def rowBlock : mesh.Row → mesh.Side ⊕ (mesh.Element ⊕ mesh.Edge)
  | .side side => .inl side
  | .element elm => .inr (.inl elm)
  | .edge edge => .inr (.inr edge)

/-- The system of `schur0` with its rows in blocks. -/
def blocks (system : UnsteadySystem mesh) : LinSys (mesh.Side ⊕ (mesh.Element ⊕ mesh.Edge)) where
  matrix := system.matrix.submatrix blockRow blockRow
  rhs := system.rhs ∘ blockRow

/-- `IA1` with the inverse local matrices inserted. -/
def makeSchur1 (ia1 : Matrix mesh.Side mesh.Side ℚ)
    (inverse : (elm : mesh.Element) →
      Matrix (Fin (mesh.dim elm + 1)) (Fin (mesh.dim elm + 1)) ℚ) :
    Matrix mesh.Side mesh.Side ℚ :=
  fun row col => if row.1 = col.1 then blockDiagonal' inverse row col else ia1 row col

/-- `IA2` with its diagonal set. `VecReciprocal` leaves what is zero. -/
def makeSchur2 (ia2 : Matrix mesh.Element mesh.Element ℚ)
    (schur1 : LinSys (mesh.Element ⊕ mesh.Edge)) : Matrix mesh.Element mesh.Element ℚ :=
  fun row col => if row = col then (schur1.matrix (.inl row) (.inl row))⁻¹ else ia2 row col

def withSolution (state : DarcyFlow mesh) (solution : mesh.Row → ℚ) : DarcyFlow mesh :=
  { state with schur0 := { state.schur0 with solution := solution } }

/-- The `switch` over `n_schurs`. -/
def solveSystem (nSchurs : ℕ) (solver : ExactSolver) (now : FlowData mesh)
    (state : DarcyFlow mesh) : Except String (DarcyFlow mesh) :=
  let orig := blocks state.schur0
  match nSchurs with
  | 0 => .ok (state.withSolution (solver.solve ⟨state.schur0.matrix, state.schur0.rhs⟩))
  | 1 => do
      let ia1 := makeSchur1 state.ia1 (← now.update)
      let schur1 := SchurComplement.formSchur ia1 orig
      let solution := SchurComplement.resolve ia1 orig (solver.solve schur1)
      return { state.withSolution (solution ∘ rowBlock) with ia1 := ia1 }
  | 2 => do
      let ia1 := makeSchur1 state.ia1 (← now.update)
      let schur1 := SchurComplement.formSchur ia1 orig
      let ia2 := makeSchur2 state.ia2 schur1
      let schur2 := SchurComplement.scale (-1) (SchurComplement.formSchur ia2 schur1)
      let inner := SchurComplement.resolve ia2 schur1 (solver.solve schur2)
      let solution := SchurComplement.resolve ia1 orig inner
      return { state.withSolution (solution ∘ rowBlock) with ia1 := ia1, ia2 := ia2 }
  | _ => .ok state

/-- The equation when the system is solved. -/
def modified (flowClass : FlowClass) (marks : TimeMarks) (state : DarcyFlow mesh) :
    DarcyFlow mesh :=
  let time := DarcyFlowMH.updateSolution marks state.time
  { state with time := time, schur0 := flowClass.modifySystem time state.schur0 }

def postprocess (flowClass : FlowClass) (now : FlowData mesh) (state : DarcyFlow mesh) :
    DarcyFlow mesh :=
  { state with
    schur0 := flowClass.postprocess now.filled state.time.timeStep.value state.schur0 }

def updateSolution (flowClass : FlowClass) (nSchurs : ℕ) (solver : ExactSolver)
    (marks : TimeMarks) (now : FlowData mesh) (state : DarcyFlow mesh) :
    Except String (DarcyFlow mesh) :=
  if state.time.isEnd then .ok state
  else do
    let solved ← solveSystem nSchurs solver now (state.modified flowClass marks)
    return solved.postprocess flowClass now

/-- A call that the coupling makes. The fields `now` are those that `data.set_time` gives. -/
inductive Call (mesh : FlowMesh) where
  | setTimeUpperConstraint (dt : Double)
  | setTimeLowerConstraint (dt : Double)
  | chooseNextTime (marks : TimeMarks)
  | updateSolution (marks : TimeMarks) (now : FlowData mesh)

def call (flowClass : FlowClass) (nSchurs : ℕ) (solver : ExactSolver) (state : DarcyFlow mesh) :
    Call mesh → Except String (DarcyFlow mesh)
  | .setTimeUpperConstraint dt => .ok { state with time := (state.time.setUpperConstraint dt).1 }
  | .setTimeLowerConstraint dt => .ok { state with time := (state.time.setLowerConstraint dt).1 }
  | .chooseNextTime marks =>
      .ok { state with time := EquationBase.chooseNextTime marks state.time }
  | .updateSolution marks now => state.updateSolution flowClass nSchurs solver marks now

def run (flowClass : FlowClass) (nSchurs : ℕ) (solver : ExactSolver) (state : DarcyFlow mesh)
    (calls : List (Call mesh)) : Except String (DarcyFlow mesh) :=
  calls.foldlM (call flowClass nSchurs solver) state

end DarcyFlow

end Flow123d
