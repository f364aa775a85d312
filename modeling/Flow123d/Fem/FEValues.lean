import Flow123d.Fem.FEPDisc
import Flow123d.Library.Double
import Flow123d.Mesh.Element
import Mathlib.Analysis.CStarAlgebra.CStarMatrix

/-!
# Values of finite elements on a cell

The mapping `MappingP1` with the transformed quadratures of sides, and the element `FE_RT0`. A
cell is given by its dimension and the coordinates of its nodes, and all values at a quadrature
point are functions of the point of the reference element.
-/

set_option autoImplicit false

namespace Flow123d

open Matrix

/-- The functions of the numerical libraries. -/
structure Numerics (K : Type) extends Library.Libm K where
  sqrt : K → K
  pinv : (n : ℕ) → Matrix (Fin 3) (Fin n) K → Matrix (Fin n) (Fin 3) K

structure Quadrature (K : Type) where
  size : ℕ
  point : ℕ → ℕ → K
  weight : ℕ → K

/-- `RefElement<dim>::side_permutations`. -/
def RefElement.sidePermutations : ℕ → List (List ℕ)
  | 1 => [[0]]
  | 2 => [[0, 1], [1, 0]]
  | 3 => [[0, 1, 2], [0, 2, 1], [1, 0, 2], [1, 2, 0], [2, 0, 1], [2, 1, 0]]
  | _ => []

def RefElement.sideNode (dim sid i : ℕ) : ℕ := ((RefElement.sideNodes dim).getD sid []).getD i 0

variable {K : Type} [Field K] [LinearOrder K] (numerics : Numerics K)

def Numerics.norm (v : Fin 3 → K) : K := numerics.sqrt (v ⬝ᵥ v)

/-- `RefElement<dim>::normal_vector`. -/
def RefElement.normalVector (dim sid : ℕ) : Fin dim → K :=
  let new_sid := if dim = 1 then (sid + 1) % 2 else if dim = 2 then (sid + 2) % 3 else sid
  if new_sid = 0 then fun _ => 1 / numerics.sqrt dim
  else fun j => if j.val = new_sid - 1 then -1 else 0

/-! ## Mapping -/

namespace MappingP1

/-- The gradients of the barycentric coordinates. -/
def grad (n : ℕ) : Matrix (Fin (n + 1)) (Fin n) K :=
  of fun i j => if i = 0 then -1 else if i = j.succ then 1 else 0

def coords (n : ℕ) (node : ℕ → Fin 3 → K) : Matrix (Fin 3) (Fin (n + 1)) K :=
  of fun c i => node i c

def jacobian (n : ℕ) (node : ℕ → Fin 3 → K) : Matrix (Fin 3) (Fin n) K := coords n node * grad n

/-- `determinant` of a rectangular matrix. -/
def determinant : (n : ℕ) → Matrix (Fin 3) (Fin n) K → K
  | 1, m => numerics.sqrt (m 0 0 * m 0 0 + m 1 0 * m 1 0 + m 2 0 * m 2 0)
  | 2, m => numerics.sqrt
      ((m 0 0 * m 0 0 + m 1 0 * m 1 0 + m 2 0 * m 2 0) *
          (m 0 1 * m 0 1 + m 1 1 * m 1 1 + m 2 1 * m 2 1) -
        (m 0 0 * m 0 1 + m 1 0 * m 1 1 + m 2 0 * m 2 1) *
          (m 0 0 * m 0 1 + m 1 0 * m 1 1 + m 2 0 * m 2 1))
  | 3, m => m.det
  | _, _ => 0

def inverseJacobian : (n : ℕ) → Matrix (Fin 3) (Fin n) K → Matrix (Fin n) (Fin 3) K
  | 3, jac => Arma.inv jac
  | n, jac => numerics.pinv n jac

def barCoords (n : ℕ) (p : ℕ → K) : Fin (n + 1) → K :=
  Fin.cons (1 - ∑ j ∈ Finset.range n, p j) fun j => p j

/-- The point of the cell for a point of the reference element. -/
def point (n : ℕ) (node : ℕ → Fin 3 → K) (p : ℕ → K) : Fin 3 → K :=
  coords n node *ᵥ barCoords n p

/-- `transform_subquadrature` of one point: its barycentric coordinates on the side are those of
the nodes of the side in the order of the permutation. -/
def sidePoint (dim sid pid : ℕ) (p : ℕ → K) : ℕ → K :=
  let side_bar_coords := fun j =>
    if j = dim - 1 then 1 - ∑ j ∈ Finset.range (dim - 1), p j else p j
  (List.range dim).foldl (fun el_bar_coords i => Function.update el_bar_coords
    ((RefElement.sideNode dim sid
      (((RefElement.sidePermutations dim).getD pid []).getD i 0) + dim) % (dim + 1))
    (side_bar_coords ((i + dim - 1) % dim))) 0

def sideNodes (dim sid : ℕ) (node : ℕ → Fin 3 → K) : ℕ → Fin 3 → K :=
  fun i => node (RefElement.sideNode dim sid i)

/-- The determinant of the mapping of a side. -/
def sideDet (dim sid : ℕ) (node : ℕ → Fin 3 → K) : K :=
  if dim ≤ 1 then 1
  else |determinant numerics (dim - 1) (jacobian (dim - 1) (sideNodes dim sid node))|

/-- The outer normal vector of a side. -/
def normalVector (dim sid : ℕ) (node : ℕ → Fin 3 → K) : Fin 3 → K :=
  let n_cell := (inverseJacobian numerics dim (jacobian dim node))ᵀ *ᵥ
    RefElement.normalVector numerics dim sid
  (numerics.norm n_cell)⁻¹ • n_cell

end MappingP1

/-! ## Raviart-Thomas elements -/

namespace FERT0

def basisVector (dim i : ℕ) (p : ℕ → K) (c : Fin dim) : K :=
  if i = c.val + 1 then p c - 1 else p c

def generalizedSupportPoint (dim j : ℕ) (c : ℕ) : K :=
  if j = c + 1 then 0 else 1 / max 1 (dim : K)

/-- The fluxes of the raw functions through the sides. -/
def fluxMatrix (dim : ℕ) : Matrix (Fin (dim + 1)) (Fin (dim + 1)) K :=
  of fun i j =>
    let r := basisVector dim i (generalizedSupportPoint (K := K) dim j)
    let flux := if j = 0 then ∑ c, r c
      else ∑ c, if j.val = c.val + 1 then -r c else 0
    if dim = 1 then flux else flux / (1 * (dim : K) - 1)

def nodeMatrix (dim : ℕ) : Matrix (Fin (dim + 1)) (Fin (dim + 1)) K := Arma.inv (fluxMatrix dim)

/-- The shape functions on the reference element. -/
def basisVectors (dim : ℕ) (p : ℕ → K) : Matrix (Fin (dim + 1)) (Fin dim) K :=
  nodeMatrix dim * of fun i => basisVector dim i.val p

def shapeVector (dim : ℕ) (node : ℕ → Fin 3 → K) (num : ℕ) (p : ℕ → K) : Fin 3 → K :=
  let jac := MappingP1.jacobian dim node
  |MappingP1.determinant numerics dim jac|⁻¹ •
    (jac *ᵥ basisVectors dim p (Fin.ofNat (dim + 1) num))

end FERT0

end Flow123d
