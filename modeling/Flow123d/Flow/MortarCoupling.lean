import Flow123d.Flow.AcceptedMesh
import Flow123d.Library.RankOneSums
import Mathlib.LinearAlgebra.Matrix.Determinant.Basic
import Mathlib.LinearAlgebra.Matrix.Notation
import Mathlib.Logic.Equiv.Fin.Basic

/-!
# Mortar couplings of the flow

What the methods `P0` and `P1` add to the rows of edges of the steady system. The measures of
elements are numbers of any ordered field.
-/

set_option autoImplicit false

namespace Flow123d

open Flow123d.Library Matrix

inductive MortarMethod where
  | noMortar
  | mortarP0
  | mortarP1

/-- `mortar_sigma_` belongs to the base class, `mortar_sigma` to the steady equation. -/
structure MortarMembers (K : Type) where
  mortarMethod_ : MortarMethod
  mortarSigma_ : K
  mortarSigma : K

/-- The constructor of the steady equation, from what the memory held. -/
def MortarMembers.construct {K : Type} (memory : MortarMembers K) (mortarMethod : MortarMethod)
    (mortarSigma : K) : MortarMembers K :=
  match mortarMethod with
  | .noMortar => { memory with mortarMethod_ := .noMortar }
  | method => { memory with mortarMethod_ := method, mortarSigma_ := mortarSigma }

/-- The memory of a matrix of Armadillo goes along its columns. -/
def Arma.memptr {m n : ℕ} {K : Type} (matrix : Matrix (Fin m) (Fin n) K) (k : Fin (m * n)) : K :=
  let place := finProdFinEquiv.symm (Fin.cast (Nat.mul_comm m n) k)
  matrix place.2 place.1

/-- `mat_set_values` takes its values along the rows. -/
def rawBlock {m n : ℕ} {K : Type} (matrix : Matrix (Fin m) (Fin n) K) (i : Fin m) (j : Fin n) :
    K :=
  Arma.memptr matrix (finProdFinEquiv (i, j))

variable {setup : AcceptedMesh}

/-- The maps lead from the reference element of the intersection to those of both elements. -/
structure Intersection (setup : AcceptedMesh) (K : Type) where
  master : Fin setup.mesh.element.length
  slave : Fin setup.mesh.element.length
  /-- master lower dimension -/
  lower : (setup.dim master).val < (setup.dim slave).val
  masterMap : Matrix (Fin (setup.dim master)) (Fin (setup.dim master)) K
  slaveMap : Matrix (Fin (setup.dim slave)) (Fin (setup.dim master)) K
  masterShift : Fin (setup.dim master) → K
  slaveShift : Fin (setup.dim slave) → K

namespace Intersection

variable {K : Type} (isect : Intersection setup K)

theorem masterSides : 1 ≤ (setup.dim isect.master).val :=
  setup.mesh.bulkDim _ (List.get_mem _ _)

theorem masterNodes : 2 ≤ (setup.dim isect.master).val + 1 :=
  Nat.succ_le_succ isect.masterSides

def masterEdge (i : Fin 2) : Fin setup.topology.edges.length :=
  AcceptedMesh.Side.edgeIdx ⟨isect.master, Fin.castLE isect.masterNodes i⟩

theorem slaveSides : 3 ≤ (setup.dim isect.slave).val + 1 := by
  have masterSides := isect.masterSides
  have lower := isect.lower
  omega

def slaveEdge (i : Fin 3) : Fin setup.topology.edges.length :=
  AcceptedMesh.Side.edgeIdx ⟨isect.slave, Fin.castLE isect.slaveSides i⟩

variable [Field K]

def mapToMaster (point : Fin (setup.dim isect.master) → K) :
    Fin (setup.dim isect.master + 1) → K :=
  Fin.cons 1 (isect.masterMap *ᵥ point + isect.masterShift)

def mapToSlave (point : Fin (setup.dim isect.master) → K) :
    Fin (setup.dim isect.slave + 1) → K :=
  Fin.cons 1 (isect.slaveMap *ᵥ point + isect.slaveShift)

def intersectionTrueSize (measure : Fin setup.mesh.element.length → K) : K :=
  let factorial : Fin 4 → K := ![1, 1, 2, 6]
  measure isect.master * isect.masterMap.det / factorial (setup.dim isect.master)

end Intersection

/-- The elements of `master_elements` at a master. -/
def masterElements {K : Type} (isects : List (Intersection setup K))
    (elm : Fin setup.mesh.element.length) : List (Intersection setup K) :=
  isects.filter (·.master = elm)

namespace DarcyFlowMHSteady

variable {K : Type} [Field K] (measure : Fin setup.mesh.element.length → K) (mortarSigma : K)

/-! ## The method P0 -/

/-- A slave or the master of a list of intersections: its rows, map and size. -/
structure MortarPart (setup : AcceptedMesh) (K : Type) where
  size : ℕ
  idx : Fin size → Fin setup.topology.edges.length
  map : Fin size → K
  delta : K

def slavePart (isect : Intersection setup K) : MortarPart setup K where
  size := 3
  idx := isect.slaveEdge
  map := fun _ => -1 / 3
  delta := isect.intersectionTrueSize measure

def masterPart (isect : Intersection setup K) : MortarPart setup K where
  size := 2
  idx := isect.masterEdge
  map := fun _ => 1 / 2
  delta := measure isect.master

/-- The slaves of a master element and the element itself. -/
def mortarParts (front : Intersection setup K) (others : List (Intersection setup K)) :
    List (MortarPart setup K) :=
  (front :: others).map (slavePart measure) ++ [masterPart measure front]

def partProduct (delta0 : K) (left right : MortarPart setup K) :
    Matrix (Fin left.size) (Fin right.size) K :=
  of fun ii jj =>
    -mortarSigma * left.map ii * left.delta * right.delta * right.map jj / delta0

def masterEntries (isects : List (Intersection setup K)) (elm : Fin setup.mesh.element.length) :
    List (Fin setup.topology.edges.length × Fin setup.topology.edges.length × K) :=
  match masterElements isects elm with
  | [] => []
  | front :: others =>
      let parts := mortarParts measure front others
      parts.flatMap fun left => parts.flatMap fun right =>
        blockEntries left.idx right.idx
          (rawBlock (partProduct mortarSigma (measure front.master) left right))

def couplingP0MortarAssembly (isects : List (Intersection setup K)) :
    Matrix (Fin setup.topology.edges.length) (Fin setup.topology.edges.length) K :=
  addMatrixValues 0
    ((List.finRange setup.mesh.element.length).flatMap (masterEntries measure mortarSigma isects))

/-! ## The method P1 -/

/-- The functions of the sides of a triangle. -/
def base2D : Matrix (Fin 3) (Fin 3) K :=
  !![1, 0, -2;
     -1, 2, 2;
     1, -2, 0]

/-- The functions of the ends of a line. -/
def base1D : Matrix (Fin 2) (Fin 2) K :=
  !![1, -1;
     0, 1]

/-- The products with `base_2D` and `base_1D` are defined for lines in triangles. -/
def Planar (isect : Intersection setup K) : Prop :=
  (setup.dim isect.master).val = 1 ∧ (setup.dim isect.slave).val = 2

instance (isect : Intersection setup K) : Decidable (Planar isect) :=
  inferInstanceAs (Decidable (_ ∧ _))

/-- The values of the functions of both elements at a point of the intersection. -/
def difference (isect : Intersection setup K) (coordinate : K) : Fin (3 + 2) → K :=
  let point : Fin (setup.dim isect.master) → K := fun _ => coordinate
  let point2D : Fin 3 → K := isect.mapToSlave point ∘ Fin.castLE isect.slaveSides
  let point1D : Fin 2 → K :=
    isect.mapToMaster point ∘ Fin.castLE isect.masterNodes
  Fin.append (-(base2D *ᵥ point2D)) (base1D *ᵥ point1D)

def intersectionMatrix (isect : Intersection setup K) :
    Matrix (Fin (3 + 2)) (Fin (3 + 2)) K :=
  let differenceInX := difference isect 0
  let differenceInY := difference isect 1
  of fun i j => -mortarSigma * isect.intersectionTrueSize measure *
    (differenceInY i * differenceInY j + differenceInY i * differenceInX j / 2 +
      differenceInX i * differenceInY j / 2 + differenceInX i * differenceInX j) * (1 / 3)

/-- `idx`: the sides of the slave and those of the master. -/
def intersectionIdx (isect : Intersection setup K) :
    Fin (3 + 2) → Fin setup.topology.edges.length :=
  Fin.append isect.slaveEdge isect.masterEdge

def intersectionEntries (isect : Intersection setup K) :
    List (Fin setup.topology.edges.length × Fin setup.topology.edges.length × K) :=
  blockEntries (intersectionIdx isect) (intersectionIdx isect)
    (rawBlock (intersectionMatrix measure mortarSigma isect))

def mhAbstractAssemblyIntersection (isects : List (Intersection setup K)) :
    Option (Matrix (Fin setup.topology.edges.length) (Fin setup.topology.edges.length) K) :=
  if ∀ isect ∈ isects, Planar isect then
    some (addMatrixValues 0 (isects.flatMap (intersectionEntries measure mortarSigma)))
  else none

/-- What is added at the end of the assembly of the steady system. -/
def mortarAssembly (members : MortarMembers K) (isects : List (Intersection setup K)) :
    Option (Matrix (Fin setup.topology.edges.length) (Fin setup.topology.edges.length) K) :=
  match members.mortarMethod_ with
  | .noMortar => some 0
  | .mortarP0 => some (couplingP0MortarAssembly measure members.mortarSigma isects)
  | .mortarP1 => mhAbstractAssemblyIntersection measure members.mortarSigma isects

end DarcyFlowMHSteady

end Flow123d
