import Flow123d.Fem.FEValues
import Flow123d.System.MathFce
import Mathlib.LinearAlgebra.CrossProduct

/-!
# Local matrices of the mixed-hybrid elements

`MHFEValues::update` with the geometry of elements and sides that it uses, in exact arithmetic.
The fields are functions of the point. The parameters of the basis functions are not kept.
-/

set_option autoImplicit false

namespace Flow123d

open Matrix

variable {K : Type} [Field K] [LinearOrder K] (sqrt : K → K)

namespace Arma

/-- `arma::norm(v, 2)`. -/
def norm (v : Fin 3 → K) : K := sqrt (v ⬝ᵥ v)

def normalised (v : Fin 3 → K) : Fin 3 → K := fun c => v c / norm sqrt v

end Arma

/-! ## Elements and sides -/

namespace Element

def measureOf (dim : ℕ) (node : ℕ → Fin 3 → K) : K :=
  match dim with
  | 1 => Arma.norm sqrt (node 1 - node 0)
  | 2 => Arma.norm sqrt ((node 1 - node 0) ⨯₃ (node 2 - node 0)) / 2
  | 3 => |((node 1 - node 0) ⨯₃ (node 2 - node 0)) ⬝ᵥ (node 3 - node 0)| / 6
  | _ => 1

def centreOf (dim : ℕ) (node : ℕ → Fin 3 → K) : Fin 3 → K :=
  fun c => (∑ li ∈ Finset.range (dim + 1), node li c) / (dim + 1 : ℕ)

end Element

namespace Side

/-- The measure of a side from its nodes. -/
def measureOf (dim : ℕ) (node : ℕ → Fin 3 → K) : K :=
  match dim with
  | 0 => 1
  | 1 => Arma.norm sqrt (node 1 - node 0)
  | 2 => 1 / 2 * Arma.norm sqrt ((node 1 - node 0) ⨯₃ (node 2 - node 0))
  | _ => 0

def normalTriangle (node : ℕ → Fin 3 → K) (elementCentre : Fin 3 → K) : Fin 3 → K :=
  let sideNormal := Arma.normalised sqrt ((node 1 - node 0) ⨯₃ (node 2 - node 0))
  if sideNormal ⬝ᵥ (elementCentre - node 0) > 0 then -sideNormal else sideNormal

def centreOf (dim : ℕ) (node : ℕ → Fin 3 → K) : Fin 3 → K :=
  fun c => (∑ i ∈ Finset.range (dim + 1), node i c) / (dim + 1 : ℕ)

end Side

namespace MHFEValues

/-- The entries below the diagonal are copies of those above. -/
def copied {n : ℕ} (entry : Fin n → Fin n → K) : Matrix (Fin n) (Fin n) K :=
  of fun i j => if i ≤ j then entry i j else entry j i

/-! ## Lines -/

def localMatrixLine (node : ℕ → Fin 3 → K) (anisotropy : (Fin 3 → K) → Matrix (Fin 3) (Fin 3) K)
    (scale : K) : Matrix (Fin 2) (Fin 2) K :=
  let lineVec := Arma.normalised sqrt (node 1 - node 0)
  let val := scale * (lineVec ⬝ᵥ (Arma.inv (anisotropy (Element.centreOf 1 node)) *ᵥ lineVec)) *
    Element.measureOf sqrt 1 node / 3
  !![val, -val / 2; -val / 2, val]

/-! ## Triangles -/

def nodeCoordinatesTriangle (node : ℕ → Fin 3 → K) : Fin 3 → Fin 2 → K :=
  let u := node 1 - node 0
  let v := node 2 - node 0
  let t := Arma.normalised sqrt u
  let n := Arma.normalised sqrt (u ⨯₃ v)
  let b := Arma.normalised sqrt (n ⨯₃ u)
  ![![0, 0], ![t ⬝ᵥ u, b ⬝ᵥ u], ![t ⬝ᵥ v, b ⬝ᵥ v]]

def sideMidpointTriangle (nod : Fin 3 → Fin 2 → K) : Fin 3 → Fin 2 → K :=
  ![![(nod 0 0 + nod 1 0) / 2, (nod 0 1 + nod 1 1) / 2],
    ![(nod 1 0 + nod 2 0) / 2, (nod 1 1 + nod 2 1) / 2],
    ![(nod 2 0 + nod 0 0) / 2, (nod 2 1 + nod 0 1) / 2]]

/-- The parameters of a basis function of a triangle. -/
structure BasisTriangle (K : Type) where
  alfa : K
  beta : K
  gama : K

def basFunc0Triangle (x0 y0 x1 y1 x2 y2 : K) : BasisTriangle K where
  alfa := x2
  beta := y2
  gama := 1 / |(x0 - x2) * (y1 - y0) + (y0 - y2) * (x0 - x1)|

def basisFunctionsTriangle (nod : Fin 3 → Fin 2 → K) : Fin 3 → BasisTriangle K :=
  ![basFunc0Triangle (nod 0 0) (nod 0 1) (nod 1 0) (nod 1 1) (nod 2 0) (nod 2 1),
    basFunc0Triangle (nod 1 0) (nod 1 1) (nod 2 0) (nod 2 1) (nod 0 0) (nod 0 1),
    basFunc0Triangle (nod 2 0) (nod 2 1) (nod 0 0) (nod 0 1) (nod 1 0) (nod 1 1)]

def calcPolynomTriangle (al_i be_i al_j be_j : K) (a : Matrix (Fin 2) (Fin 2) K) : Fin 6 → K :=
  ![a 0 0 * al_i * al_j + a 0 1 * be_i * al_j + a 1 0 * al_i * be_j + a 1 1 * be_i * be_j,
    (a 0 0 * al_i + a 0 0 * al_j + a 0 1 * be_i + a 1 0 * be_j) * -1,
    (a 1 1 * be_i + a 1 1 * be_j + a 1 0 * al_i + a 0 1 * al_j) * -1,
    a 0 0,
    a 0 1 + a 1 0,
    a 1 1]

def polynomValueTriangle (poly : Fin 6 → K) (point : Fin 2 → K) : K :=
  poly 0 + poly 1 * point 0 + poly 2 * point 1 + poly 3 * point 0 * point 0 +
    poly 4 * point 0 * point 1 + poly 5 * point 1 * point 1

def localMatrixTriangle (node : ℕ → Fin 3 → K)
    (anisotropy : (Fin 3 → K) → Matrix (Fin 3) (Fin 3) K) (scale : K) :
    Matrix (Fin 3) (Fin 3) K :=
  let ex := Arma.normalised sqrt (node 1 - node 0)
  let ez := Arma.normalised sqrt (ex ⨯₃ (node 2 - node 0))
  let ey := Arma.normalised sqrt (ez ⨯₃ ex)
  let r : Matrix (Fin 3) (Fin 2) K := of fun c k => ![ex c, ey c] k
  let resistanceTensor := rᵀ * (Arma.inv (anisotropy (Element.centreOf 2 node)) * r)
  let nodCoor := nodeCoordinatesTriangle sqrt node
  let midpoint := sideMidpointTriangle nodCoor
  let basis := basisFunctionsTriangle nodCoor
  copied fun i j =>
    let poly := calcPolynomTriangle (basis i).alfa (basis i).beta (basis j).alfa (basis j).beta
      resistanceTensor
    let p := fun k => polynomValueTriangle poly (midpoint k)
    scale * (basis i).gama * (basis j).gama * Element.measureOf sqrt 2 node *
      (p 0 + p 1 + p 2) / 3

/-! ## Tetrahedra -/

/-- The parameters of a basis function of a tetrahedron. -/
structure BasisTetrahedron (K : Type) where
  alfa : K
  beta : K
  gama : K
  delta : K

def basisFunctionTetrahedron (node : ℕ → Fin 3 → K) (li : ℕ) : BasisTetrahedron K :=
  let side := fun i => node (RefElement.sideNode 3 li i)
  let normal := Side.normalTriangle sqrt side (Element.centreOf 3 node)
  let centre := Side.centreOf 2 side
  { alfa := node li 0
    beta := node li 1
    gama := node li 2
    delta := 1 / (Side.measureOf sqrt 2 side *
      (normal 0 * centre 0 + normal 1 * centre 1 + normal 2 * centre 2 -
        normal 0 * node li 0 - normal 1 * node li 1 - normal 2 * node li 2)) }

def calcPolynomTetrahedron (al_i be_i ga_i al_j be_j ga_j : K) (a : Matrix (Fin 3) (Fin 3) K) :
    Fin 10 → K :=
  ![a 0 0 * al_i * al_j + a 0 1 * be_i * al_j + a 0 2 * ga_i * al_j +
      a 1 0 * al_i * be_j + a 1 1 * be_i * be_j + a 1 2 * ga_i * be_j +
      a 2 0 * al_i * ga_j + a 2 1 * be_i * ga_j + a 2 2 * ga_i * ga_j,
    (a 0 0 * al_i + a 0 1 * be_i + a 0 2 * ga_i +
      a 0 0 * al_j + a 1 0 * be_j + a 2 0 * ga_j) * -1,
    (a 1 0 * al_i + a 1 1 * be_i + a 1 2 * ga_i +
      a 0 1 * al_j + a 1 1 * be_j + a 2 1 * ga_j) * -1,
    (a 2 0 * al_i + a 2 1 * be_i + a 2 2 * ga_i +
      a 0 2 * al_j + a 1 2 * be_j + a 2 2 * ga_j) * -1,
    a 0 1 + a 1 0,
    a 0 2 + a 2 0,
    a 1 2 + a 2 1,
    a 0 0,
    a 1 1,
    a 2 2]

/-- The mean of a product of two coordinates. -/
def productMean (node : ℕ → Fin 3 → K) (t : Fin 3 → K) (r s : Fin 3) : K :=
  t r * t s + 1 / 20 * ((node 0 r - t r) * (node 0 s - t s) + (node 1 r - t r) * (node 1 s - t s) +
    (node 2 r - t r) * (node 2 s - t s) + (node 3 r - t r) * (node 3 s - t s))

def polynomIntegralTetrahedron (node : ℕ → Fin 3 → K) (poly : Fin 10 → K) : K :=
  let v := Element.measureOf sqrt 3 node
  let t := Element.centreOf 3 node
  poly 0 * v + poly 1 * v * t 0 + poly 2 * v * t 1 + poly 3 * v * t 2 +
    poly 4 * v * productMean node t 0 1 + poly 5 * v * productMean node t 0 2 +
    poly 6 * v * productMean node t 1 2 + poly 7 * v * productMean node t 0 0 +
    poly 8 * v * productMean node t 1 1 + poly 9 * v * productMean node t 2 2

def localMatrixTetrahedron (node : ℕ → Fin 3 → K)
    (anisotropy : (Fin 3 → K) → Matrix (Fin 3) (Fin 3) K) (scale : K) :
    Matrix (Fin 4) (Fin 4) K :=
  let resistanceTensor := Arma.inv (anisotropy (Element.centreOf 3 node))
  let basis := fun i : Fin 4 => basisFunctionTetrahedron sqrt node i
  copied fun i j =>
    let poly := calcPolynomTetrahedron (basis i).alfa (basis i).beta (basis i).gama
      (basis j).alfa (basis j).beta (basis j).gama resistanceTensor
    scale * (basis i).delta * (basis j).delta * polynomIntegralTetrahedron sqrt node poly

/-! ## Update -/

/-- What `update` leaves, and whether it reports a singular local matrix. -/
structure Updated (dim : ℕ) (K : Type) where
  localMatrix : Matrix (Fin (dim + 1)) (Fin (dim + 1)) K
  invLocalMatrix : Matrix (Fin (dim + 1)) (Fin (dim + 1)) K
  singular : Bool

/-- The local matrix after the switch over the dimension. -/
def localMatrix : (dim : ℕ) → (node : ℕ → Fin 3 → K) →
    (anisotropy : (Fin 3 → K) → Matrix (Fin 3) (Fin 3) K) → (scale : K) →
    (loc : Matrix (Fin (dim + 1)) (Fin (dim + 1)) K) → Matrix (Fin (dim + 1)) (Fin (dim + 1)) K
  | 1, node, anisotropy, scale, _ => localMatrixLine sqrt node anisotropy scale
  | 2, node, anisotropy, scale, _ => localMatrixTriangle sqrt node anisotropy scale
  | 3, node, anisotropy, scale, _ => localMatrixTetrahedron sqrt node anisotropy scale
  | _, _, _, _, loc => loc

/-- `update` of an element, with the contents of both matrices before. -/
def update (dim : ℕ) (node : ℕ → Fin 3 → K)
    (anisotropy : (Fin 3 → K) → Matrix (Fin 3) (Fin 3) K)
    (crossSection conductivity : (Fin 3 → K) → K)
    (loc inv : Matrix (Fin (dim + 1)) (Fin (dim + 1)) K) : Updated dim K :=
  let centre := Element.centreOf dim node
  let scale := 1 / conductivity centre / crossSection centre
  let localMatrix := localMatrix sqrt dim node anisotropy scale loc
  let inverted := matrixInverse (dim + 1) localMatrix inv
  ⟨localMatrix, inverted.b, decide (|inverted.det| < MathFce.numZero)⟩

/-! ## Values in points -/

def rt0ValueLine (node : ℕ → Fin 3 → K) (point : Fin 3 → K) (face : ℕ) : Fin 3 → K :=
  let lineVec := node 1 - node 0
  if face = 0 then
    fun c => -Arma.norm sqrt (point - node 1) * lineVec c / (lineVec ⬝ᵥ lineVec)
  else fun c => Arma.norm sqrt (point - node 0) * lineVec c / (lineVec ⬝ᵥ lineVec)

def rt0ValueTriangle (node : ℕ → Fin 3 → K) (point : Fin 3 → K) (face : Fin 3) : Fin 3 → K :=
  let ex := Arma.normalised sqrt (node 1 - node 0)
  let ac := node 2 - node 0
  let ez := Arma.normalised sqrt (ex ⨯₃ ac)
  let ey := Arma.normalised sqrt (ez ⨯₃ ex)
  let u := point - node 0
  let bas := basisFunctionsTriangle (nodeCoordinatesTriangle sqrt node) face
  fun c => bas.gama * ((u ⬝ᵥ ex - bas.alfa) * ex c + (u ⬝ᵥ ey - bas.beta) * ey c)

def rt0ValueTetrahedron (node : ℕ → Fin 3 → K) (point : Fin 3 → K) (face : ℕ) : Fin 3 → K :=
  let bas := basisFunctionTetrahedron sqrt node face
  fun c => bas.delta * (point c - ![bas.alfa, bas.beta, bas.gama] c)

/-- `RT0_value` after `update`; there is no value for a point. -/
def rt0Value : (dim : ℕ) → (node : ℕ → Fin 3 → K) → (point : Fin 3 → K) →
    (face : Fin (dim + 1)) → Fin 3 → K
  | 1, node, point, face => rt0ValueLine sqrt node point face
  | 2, node, point, face => rt0ValueTriangle sqrt node point face
  | 3, node, point, face => rt0ValueTetrahedron sqrt node point face
  | _, _, _, _ => 0

end MHFEValues

end Flow123d
