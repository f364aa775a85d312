import Flow123d.Library.Assembly
import Mathlib.Data.Fintype.Sigma
import Mathlib.Tactic.DeriveFintype

/-!
# Assembly of the steady mixed-hybrid system

The rows of the system belong to the sides, the elements and the edges of the mesh. The
mortar methods are off. What is written only to allocate the matrix is left out.
-/

set_option autoImplicit false

namespace Flow123d

open Flow123d.Library

/-- A side of an element of a higher dimension that lies on the element `element`. -/
structure FlowNeighbour (n nEdges : ℕ) (side : Type) where
  element : Fin n
  edgeIdx : Fin nEdges
  side : side

structure FlowMesh where
  nElements : ℕ
  nEdges : ℕ
  dim : Fin nElements → Fin 4
  measure : Fin nElements → ℚ
  /-- The third coordinates of the centres. -/
  elementCentre : Fin nElements → ℚ
  sideCentre : ((elm : Fin nElements) × Fin (dim elm + 1)) → ℚ
  sideMeasure : ((elm : Fin nElements) × Fin (dim elm + 1)) → ℚ
  edgeIdx : ((elm : Fin nElements) × Fin (dim elm + 1)) → Fin nEdges
  /-- The boundary of a side, if it has one. -/
  cond : ((elm : Fin nElements) × Fin (dim elm + 1)) → Option ℕ
  boundaryMeasure : ℕ → ℚ
  neighVb : Fin nElements →
    List (FlowNeighbour nElements nEdges ((elm : Fin nElements) × Fin (dim elm + 1)))
  edgeSides : Fin nEdges → List ((elm : Fin nElements) × Fin (dim elm + 1))
  edgeSides_nodup : ∀ edge, (edgeSides edge).Nodup
  mem_edgeSides : ∀ edge side, side ∈ edgeSides edge ↔ edgeIdx side = edge

namespace FlowMesh

variable (mesh : FlowMesh)

abbrev Element : Type := Fin mesh.nElements

def nSides (elm : mesh.Element) : ℕ := mesh.dim elm + 1

abbrev Side : Type := (elm : mesh.Element) × Fin (mesh.dim elm + 1)

abbrev Edge : Type := Fin mesh.nEdges

def sides (elm : mesh.Element) : List mesh.Side :=
  (List.finRange (mesh.dim elm + 1)).map fun i => ⟨elm, i⟩

variable {mesh} in
theorem mem_sides {elm : mesh.Element} {side : mesh.Side} :
    side ∈ mesh.sides elm ↔ side.1 = elm := by
  constructor
  · intro member
    obtain ⟨i, -, rfl⟩ := List.mem_map.mp member
    rfl
  · rintro rfl
    exact List.mem_map.mpr ⟨side.2, List.mem_finRange _, rfl⟩

/-- A row of the system, named by what it belongs to. -/
inductive Row where
  | side (side : mesh.Side)
  | element (elm : mesh.Element)
  | edge (edge : mesh.Edge)
deriving DecidableEq, Fintype

abbrev MatrixEntry : Type := mesh.Row × mesh.Row × ℚ

abbrev VectorEntry : Type := mesh.Row × ℚ

end FlowMesh

inductive BCType where
  | none
  | dirichlet
  | neumann
  | robin
  | totalFlux
deriving DecidableEq

/-- The fields of the equation at one time, with what the finite element values give. -/
structure FlowData (mesh : FlowMesh) where
  crossSection : mesh.Element → ℚ
  storativity : mesh.Element → ℚ
  initPressure : mesh.Element → ℚ
  waterSourceDensity : mesh.Element → ℚ
  sigma : mesh.Element → ℚ
  bcType : ℕ → BCType
  bcPressure : ℕ → ℚ
  bcFlux : ℕ → ℚ
  bcRobinSigma : ℕ → ℚ
  localMatrix : (elm : mesh.Element) →
    Fin (mesh.dim elm + 1) → Fin (mesh.dim elm + 1) → ℚ

namespace FlowData

variable {mesh : FlowMesh} (data : FlowData mesh)

def isDirichlet (side : mesh.Side) : Bool :=
  (mesh.cond side).any fun bcd => data.bcType bcd = .dirichlet

/-- The entry of the blocks `C` and `C'`. -/
def cVal (side : mesh.Side) : ℚ := if data.isDirichlet side then 0 else 1

/-- What the condition of a side puts on the diagonal of its edge. -/
def conditionMatrix (side : mesh.Side) : List mesh.MatrixEntry :=
  let row := FlowMesh.Row.edge (mesh.edgeIdx side)
  match mesh.cond side with
  | none => []
  | some bcd =>
      match data.bcType bcd with
      | .dirichlet => [(row, row, -1)]
      | .robin =>
          [(row, row, -mesh.boundaryMeasure bcd * data.bcRobinSigma bcd *
            data.crossSection side.1)]
      | _ => []

def conditionRhs (side : mesh.Side) : List mesh.VectorEntry :=
  let row := FlowMesh.Row.edge (mesh.edgeIdx side)
  match mesh.cond side with
  | none => []
  | some bcd =>
      match data.bcType bcd with
      | .dirichlet => [(row, -data.bcPressure bcd)]
      | .neumann =>
          [(row, data.bcFlux bcd * mesh.boundaryMeasure bcd * data.crossSection side.1)]
      | .robin =>
          [(row, -mesh.boundaryMeasure bcd * data.bcRobinSigma bcd * data.bcPressure bcd *
            data.crossSection side.1)]
      | _ => []

/-- The gravity term, and the pressure of a Dirichlet condition. -/
def sideRhs (side : mesh.Side) : ℚ :=
  mesh.elementCentre side.1 - mesh.sideCentre side -
    ((mesh.cond side).elim 0 fun bcd =>
      if data.bcType bcd = .dirichlet then data.bcPressure bcd else 0)

def sideMatrix (side : mesh.Side) : List mesh.MatrixEntry :=
  data.conditionMatrix side ++
    [(.side side, .edge (mesh.edgeIdx side), data.cVal side),
      (.edge (mesh.edgeIdx side), .side side, data.cVal side)]

def neighbourValue (ngh : FlowNeighbour mesh.nElements mesh.nEdges mesh.Side) : ℚ :=
  data.sigma ngh.element * mesh.sideMeasure ngh.side * data.crossSection ngh.side.1

/-- A compatible connection of an element and an edge. -/
def neighbourMatrix (elm : mesh.Element)
    (ngh : FlowNeighbour mesh.nElements mesh.nEdges mesh.Side) : List mesh.MatrixEntry :=
  [(.element elm, .element elm, -data.neighbourValue ngh),
    (.element elm, .edge ngh.edgeIdx, data.neighbourValue ngh),
    (.edge ngh.edgeIdx, .element elm, data.neighbourValue ngh),
    (.edge ngh.edgeIdx, .edge ngh.edgeIdx, -data.neighbourValue ngh)]

/-- The block `A` of an element. -/
def localEntries (elm : mesh.Element) : List mesh.MatrixEntry :=
  (List.finRange (mesh.dim elm + 1)).flatMap fun i =>
    (List.finRange (mesh.dim elm + 1)).map fun j =>
      (.side ⟨elm, i⟩, .side ⟨elm, j⟩, data.localMatrix elm i j)

/-- The blocks `B` and `B'` of an element. -/
def divergenceEntries (elm : mesh.Element) : List mesh.MatrixEntry :=
  ((mesh.sides elm).map fun side => (.element elm, .side side, -1)) ++
    (mesh.sides elm).map fun side => (.side side, .element elm, -1)

def elementMatrix (elm : mesh.Element) : List mesh.MatrixEntry :=
  (mesh.sides elm).flatMap data.sideMatrix ++ data.localEntries elm ++
    divergenceEntries elm ++ [(.element elm, .element elm, 0)] ++
      (mesh.neighVb elm).flatMap (data.neighbourMatrix elm)

def elementRhs (elm : mesh.Element) : List mesh.VectorEntry :=
  (mesh.sides elm).flatMap data.conditionRhs ++
    ((mesh.sides elm).map fun side => (.side side, data.sideRhs side)) ++
      [(.element elm,
        -1 * mesh.measure elm * data.crossSection elm * data.waterSourceDensity elm)]

/-- All conditions are of a type that the assembly knows. -/
def supported : Bool :=
  (List.finRange mesh.nElements).all fun elm => (mesh.sides elm).all fun side =>
    (mesh.cond side).all fun bcd => data.bcType bcd ≠ .totalFlux

end FlowData

/-- The steady system. -/
structure FlowSystem (mesh : FlowMesh) where
  matrix : Matrix mesh.Row mesh.Row ℚ
  rhs : mesh.Row → ℚ

namespace DarcyFlowMHSteady

variable {mesh : FlowMesh}

def assembledMatrix (data : FlowData mesh) : Matrix mesh.Row mesh.Row ℚ :=
  addMatrixValues 0 ((List.finRange mesh.nElements).flatMap data.elementMatrix)

def assembledRhs (data : FlowData mesh) : mesh.Row → ℚ :=
  addValues 0 ((List.finRange mesh.nElements).flatMap data.elementRhs)

def assemblySteadyMhMatrix (data : FlowData mesh) : Except String (FlowSystem mesh) :=
  if data.supported then .ok ⟨assembledMatrix data, assembledRhs data⟩
  else .error "BC type not supported.\n"

end DarcyFlowMHSteady

end Flow123d
