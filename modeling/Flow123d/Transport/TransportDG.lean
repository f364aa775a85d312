import Flow123d.Fem.FEValues
import Flow123d.Flow.AcceptedMesh
import Flow123d.Library.GroupedSums
import Flow123d.Library.Writes

/-!
# Transport by the discontinuous Galerkin method

The integrals that `TransportDG` assembles, and those of its mass balance, on one process. A
degree of freedom is named by its element and its number on it.
-/

set_option autoImplicit false

namespace Flow123d

open Flow123d.Library Matrix

inductive DGVariant where
  | nonSymmetric
  | incomplete
  | symmetric
deriving DecidableEq

/-- The value of the enumerator. -/
def DGVariant.value {K : Type} [Ring K] : DGVariant → K
  | nonSymmetric => -1
  | incomplete => 0
  | symmetric => 1

namespace AcceptedMesh

variable (setup : AcceptedMesh)

/-- The side that an accessor points to. -/
def sideAt (si : SideIter) : Option setup.Side :=
  if inside : si.element < setup.mesh.element.length then
    if bound : si.elIdx < setup.dim ⟨si.element, inside⟩ + 1 then
      some ⟨⟨si.element, inside⟩, ⟨si.elIdx, bound⟩⟩
    else none
  else none

/-- The sides of every edge, in the order of `Edge::side`. -/
def edgeList : List (List setup.Side) :=
  setup.topology.edges.map fun edge => edge.sides.filterMap setup.sideAt

/-- `Mesh::vb_neighbours_`. -/
def vbNeighbours :
    List (FlowNeighbour setup.mesh.element.length setup.topology.edges.length setup.Side) :=
  setup.topology.vbNeighbours.pmap neighbour fun _ member => member

end AcceptedMesh

/-- What a `TransportDG` keeps during a run. -/
structure TransportDG (K : Type) extends AcceptedMesh where
  numerics : Numerics K
  /-- `Element::permutation_idx_` of a side. -/
  permutationIdx : SideIter → ℕ
  q : ℕ → Quadrature K
  dgOrder : Fin 3
  dgVariant : DGVariant
  nSubst : ℕ
  bulkSize : ℕ
  boundarySize : ℕ
  /-- `Region::bulk_idx` of an element. -/
  bulkIdx : ℕ → Fin bulkSize
  /-- `Region::boundary_idx` of a boundary element. -/
  boundaryIdx : ℕ → Fin boundarySize

/-- The fluxes of `MH_DofHandler`. -/
structure SideFluxes (K : Type) where
  sideFlux : SideIter → K
  precision : K

namespace TransportDG

variable {K : Type} (dg : TransportDG K)

abbrev Element : Type := Fin dg.mesh.element.length

abbrev Point : Type := Fin 3 → K

/-- The fields at one time: the values at points of elements or of boundary elements. -/
structure EqData where
  porM : dg.Element → (Fin 3 → K) → K
  crossSection : dg.Element → (Fin 3 → K) → K
  dispL : dg.Element → (Fin 3 → K) → Fin dg.nSubst → K
  dispT : dg.Element → (Fin 3 → K) → Fin dg.nSubst → K
  diffM : dg.Element → (Fin 3 → K) → Fin dg.nSubst → K
  sigmaC : dg.Element → (Fin 3 → K) → Fin dg.nSubst → K
  dgPenalty : dg.Element → (Fin 3 → K) → Fin dg.nSubst → K
  sourcesDensity : dg.Element → (Fin 3 → K) → Fin dg.nSubst → K
  sourcesSigma : dg.Element → (Fin 3 → K) → Fin dg.nSubst → K
  sourcesConc : dg.Element → (Fin 3 → K) → Fin dg.nSubst → K
  bcConc : ℕ → (Fin 3 → K) → Fin dg.nSubst → K

def nDofs (elm : dg.Element) : ℕ := FEPDisc.nDofs dg.dgOrder (dg.dim elm)

/-- A row of the systems. -/
abbrev Row : Type := (elm : dg.Element) × Fin (dg.nDofs elm)

/-- `get_dof_indices`. -/
def dofIndices (elm : dg.Element) (i : Fin (dg.nDofs elm)) : dg.Row := ⟨elm, i⟩

/-- `Side::cond_idx`. -/
def cond (side : dg.Side) : Option ℕ := dg.topology.condIdx side.iter

/-- The elements in the order of the loops for the dimensions 1, 2 and 3. -/
def cells : List dg.Element :=
  [1, 2, 3].flatMap fun d => (List.finRange _).filter fun elm => (dg.dim elm).val = d

/-- The sides of edges that `assemble_fluxes_boundary` treats, with their boundaries. -/
def boundarySide (d : ℕ) : List dg.Side → Option (dg.Side × ℕ)
  | [side] => if (dg.dim side.1).val = d then (dg.cond side).map fun b => (side, b) else none
  | _ => none

def boundarySides : List (dg.Side × ℕ) :=
  [1, 2, 3].flatMap fun d => dg.edgeList.filterMap (dg.boundarySide d)

/-- The edges of several sides. -/
def innerEdges : List (List dg.Side) :=
  [1, 2, 3].flatMap fun d => dg.edgeList.filter fun sides =>
    2 ≤ sides.length ∧ sides.head?.any fun side => (dg.dim side.1).val = d

def couplings : List (FlowNeighbour dg.mesh.element.length dg.topology.edges.length dg.Side) :=
  [2, 3].flatMap fun d => dg.vbNeighbours.filter fun nb => (dg.dim nb.element).val + 1 = d

variable {dg} [Field K]

/-! ## Geometry -/

def node (elm : dg.Element) (i : ℕ) : Fin 3 → K :=
  fun c => (dg.mesh.point ((dg.element elm).nodes.getD i 0) c : ℚ)

def centre (elm : dg.Element) : Fin 3 → K :=
  fun c => (dg.mesh.centre (dg.element elm).nodes c : ℚ)

variable [LinearOrder K]

/-- `arma::cross`. -/
abbrev cross {R : Type} [CommRing R] (u v : Fin 3 → R) : Fin 3 → R := crossProduct u v

/-- `Side::measure`. -/
def measure (side : dg.Side) : K :=
  let sideNode := MappingP1.sideNodes (dg.dim side.1) side.2 (node side.1)
  match (dg.dim side.1).val with
  | 1 => 1
  | 2 => dg.numerics.norm (sideNode 1 - sideNode 0)
  | 3 => 1 / 2 * dg.numerics.norm
      (cross (sideNode 1 - sideNode 0) (sideNode 2 - sideNode 0))
  | _ => 0

/-- The side diameter, or 1 for a point. -/
def diameter (side : dg.Side) : K :=
  let sideNode := MappingP1.sideNodes (dg.dim side.1) side.2 (node side.1)
  if (dg.dim side.1).val = 1 then 1
  else (pairs (List.range (dg.dim side.1))).foldl
    (fun h ij => max h (dg.numerics.norm (sideNode ij.1 - sideNode ij.2))) 0

/-! ## Values at quadrature points -/

section Values

variable (elm : dg.Element) (side : dg.Side) (k : ℕ)

def cellQuadrature : Quadrature K := dg.q (dg.dim elm)

def sideQuadrature : Quadrature K := dg.q ((dg.dim side.1).val - 1)

/-- The quadrature point of a side in the reference element. -/
def sideRefPoint : ℕ → K :=
  MappingP1.sidePoint (dg.dim side.1) side.2 (dg.permutationIdx side.iter)
    ((sideQuadrature side).point k)

def cellPoint : Fin 3 → K :=
  MappingP1.point (dg.dim elm) (node elm) ((cellQuadrature elm).point k)

def sidePoint : Fin 3 → K := MappingP1.point (dg.dim side.1) (node side.1) (sideRefPoint side k)

def cellJxW : K :=
  |MappingP1.determinant dg.numerics (dg.dim elm) (MappingP1.jacobian (dg.dim elm) (node elm))| *
    (cellQuadrature elm).weight k

def sideJxW : K :=
  MappingP1.sideDet dg.numerics (dg.dim side.1) side.2 (node side.1) *
    (sideQuadrature side).weight k

def normalVector : Fin 3 → K :=
  MappingP1.normalVector dg.numerics (dg.dim side.1) side.2 (node side.1)

def inverseJacobian : Matrix (Fin (dg.dim elm)) (Fin 3) K :=
  MappingP1.inverseJacobian dg.numerics (dg.dim elm)
    (MappingP1.jacobian (dg.dim elm) (node elm))

def cellValue : Fin (dg.nDofs elm) → K :=
  FEPDisc.shapeValue dg.dgOrder (dg.dim elm) ((cellQuadrature elm).point k)

def cellGrad : Fin (dg.nDofs elm) → Fin 3 → K :=
  FEPDisc.shapeGrad dg.dgOrder (dg.dim elm) ((cellQuadrature elm).point k) (inverseJacobian elm)

def sideValue : Fin (dg.nDofs side.1) → K :=
  FEPDisc.shapeValue dg.dgOrder (dg.dim side.1) (sideRefPoint side k)

def sideGrad : Fin (dg.nDofs side.1) → Fin 3 → K :=
  FEPDisc.shapeGrad dg.dgOrder (dg.dim side.1) (sideRefPoint side k) (inverseJacobian side.1)

end Values

/-! ## Velocity and dispersion -/

/-- The node number that the map `node_nums` holds for a node. -/
def nodeNum (elm : dg.Element) (n : ℕ) : ℕ :=
  (((List.range (dg.element elm).nNodes).filter fun i =>
    (dg.element elm).nodes.getD i 0 = n).getLast?).getD 0

def velocityNum (side : dg.Side) : ℕ :=
  (dg.dim side.1 * (dg.dim side.1 + 1) / 2 : ℕ) -
    (((dg.element side.1).sideNodes side.2).map (nodeNum side.1)).sum

/-- `calculate_velocity` at a point of the reference element. -/
def calculateVelocity (fluxes : SideFluxes K) (elm : dg.Element) (p : ℕ → K) : Fin 3 → K :=
  ∑ sid : Fin (dg.dim elm + 1), fluxes.sideFlux (AcceptedMesh.Side.iter ⟨elm, sid⟩) •
    FERT0.shapeVector dg.numerics (dg.dim elm) (node elm) (velocityNum ⟨elm, sid⟩) p

/-- `numeric_limits<double>::epsilon()`. -/
def epsilon : K := 1 / 2 ^ 52

def calculateDispersivityTensor (numerics : Numerics K) (velocity : Fin 3 → K)
    (dm alphaL alphaT porosity cross_cut : K) : Matrix (Fin 3) (Fin 3) K :=
  let vnorm := numerics.norm velocity
  let mechanical : Matrix (Fin 3) (Fin 3) K :=
    if |vnorm| > numerics.sqrt epsilon then
      of fun i j => velocity i * velocity j / (vnorm * vnorm) * (alphaL - alphaT) +
        alphaT * (if i = j then 1 else 0)
    else 0
  (vnorm * porosity * cross_cut) • mechanical +
    (dm * numerics.pow porosity (1 / 3)) • (1 : Matrix (Fin 3) (Fin 3) K)

variable (data : EqData dg) (fluxes : SideFluxes K) (sbi : Fin dg.nSubst)

def cellVelocity (elm : dg.Element) (k : ℕ) : Fin 3 → K :=
  calculateVelocity fluxes elm ((cellQuadrature elm).point k)

def sideVelocity (side : dg.Side) (k : ℕ) : Fin 3 → K :=
  calculateVelocity fluxes side.1 (sideRefPoint side k)

namespace EqData

def cellTensor (elm : dg.Element) (k : ℕ) : Matrix (Fin 3) (Fin 3) K :=
  let x := cellPoint elm k
  calculateDispersivityTensor dg.numerics (cellVelocity fluxes elm k) (data.diffM elm x sbi)
    (data.dispL elm x sbi) (data.dispT elm x sbi) (data.porM elm x) (data.crossSection elm x)

def sideTensor (side : dg.Side) (k : ℕ) : Matrix (Fin 3) (Fin 3) K :=
  let x := sidePoint side k
  calculateDispersivityTensor dg.numerics (sideVelocity fluxes side k) (data.diffM side.1 x sbi)
    (data.dispL side.1 x sbi) (data.dispT side.1 x sbi) (data.porM side.1 x)
    (data.crossSection side.1 x)

/-! ## Parameters of the method -/

/-- The average value of `Kn.n` on the side. -/
def delta (side : dg.Side) (normal_vector : Fin 3 → K) : K :=
  (∑ k ∈ Finset.range (sideQuadrature side).size,
    (data.sideTensor fluxes sbi side k *ᵥ normal_vector) ⬝ᵥ normal_vector) /
      (sideQuadrature side).size

/-- `set_DG_parameters_boundary`. -/
def boundaryGamma (side : dg.Side) : K :=
  1 / 2 * |fluxes.sideFlux side.iter / measure side| +
    data.dgPenalty side.1 (centre side.1) sbi / diameter side *
      data.delta fluxes sbi side (normalVector side)

end EqData

/-- The flux from the first to the second side of an edge. -/
def transportFlux (sides : List dg.Side) (s1 s2 : dg.Side) : K :=
  let flux := fun side : dg.Side => fluxes.sideFlux side.iter / measure side
  let pflux := (sides.map fun side => if flux side > 0 then flux side else 0).sum
  let nflux := (sides.map fun side => if flux side > 0 then 0 else flux side).sum
  if flux s2 > 0 ∧ flux s1 < 0 then flux s1 * |flux s2 / pflux|
  else if flux s2 < 0 ∧ flux s1 > 0 then flux s1 * |flux s2 / nflux|
  else 0

/-- The penalty, the weights and the flux for a pair of sides. -/
structure EdgeParameters (K : Type) where
  gamma : K
  omega : Fin 2 → K
  transportFlux : K

/-- `set_DG_parameters_edge` for two different sides. -/
def EqData.setDGParametersEdge (sides : List dg.Side) (s1 s2 : dg.Side)
    (normal_vector : Fin 3 → K) : EdgeParameters K :=
  let transport_flux := transportFlux fluxes sides s1 s2
  let local_alpha := max (data.dgPenalty s1.1 (centre s1.1) sbi)
    (data.dgPenalty s2.1 (centre s2.1) sbi)
  let delta := ![data.delta fluxes sbi s1 normal_vector, data.delta fluxes sbi s2 normal_vector]
  let delta_sum := delta 0 + delta 1
  if delta_sum > epsilon then
    { gamma := 1 / 2 * |transport_flux| +
        local_alpha / diameter s1 * (delta 0 * delta 1 / delta_sum)
      omega := ![delta 1 / delta_sum, delta 0 / delta_sum]
      transportFlux := transport_flux }
  else
    { gamma := 1 / 2 * |transport_flux|
      omega := 0
      transportFlux := transport_flux }

/-! ## Assembly -/

namespace EqData

def localMassMatrix (elm : dg.Element) (i j : Fin (dg.nDofs elm)) : K :=
  ∑ k ∈ Finset.range (cellQuadrature elm).size,
    data.crossSection elm (cellPoint elm k) * data.porM elm (cellPoint elm k) *
      cellValue elm k j * cellValue elm k i * cellJxW elm k

/-- `assemble_mass_matrix`. -/
def assembleMassMatrix : List (dg.Row × dg.Row × K) :=
  dg.cells.flatMap fun elm =>
    blockEntries (dg.dofIndices elm) (dg.dofIndices elm) (data.localMassMatrix elm)

def localVolumeMatrix (elm : dg.Element) (i j : Fin (dg.nDofs elm)) : K :=
  ∑ k ∈ Finset.range (cellQuadrature elm).size,
    let x := cellPoint elm k
    let Kt_grad_i := (data.cellTensor fluxes sbi elm k)ᵀ *ᵥ cellGrad elm k i
    let velocity_dot_grad_i_times_JxW :=
      (cellVelocity fluxes elm k ⬝ᵥ cellGrad elm k i) * cellJxW elm k
    (Kt_grad_i ⬝ᵥ cellGrad elm k j) * (data.porM elm x * data.crossSection elm x * cellJxW elm k) -
      cellValue elm k j * velocity_dot_grad_i_times_JxW +
        data.sourcesSigma elm x sbi * cellValue elm k j * cellValue elm k i * cellJxW elm k

def assembleVolumeIntegrals : List (dg.Row × dg.Row × K) :=
  dg.cells.flatMap fun elm =>
    blockEntries (dg.dofIndices elm) (dg.dofIndices elm) (data.localVolumeMatrix fluxes sbi elm)

def sourceTerm (elm : dg.Element) (k : ℕ) : K :=
  let x := cellPoint elm k
  (data.sourcesDensity elm x sbi + data.sourcesConc elm x sbi * data.sourcesSigma elm x sbi) *
    cellJxW elm k

/-- `set_sources`. -/
def setSources : List (dg.Row × K) :=
  dg.cells.flatMap fun elm => partEntries (dg.dofIndices elm) fun i =>
    ∑ k ∈ Finset.range (cellQuadrature elm).size,
      data.sourceTerm sbi elm k * cellValue elm k i

/-! ### Edges of several sides -/

/-- `WAVERAGE`. -/
def waverage (nv : Fin 3 → K) (omega : K) (side : dg.Side) (k : ℕ)
    (i : Fin (dg.nDofs side.1)) : K :=
  data.porM side.1 (sidePoint side k) * data.crossSection side.1 (sidePoint side k) *
    ((data.sideTensor fluxes sbi side k *ᵥ sideGrad side k i) ⬝ᵥ nv) * omega

/-- The sign of `JUMP`. -/
def jumpSign (n : Fin 2) : K := if n = 0 then 1 else -1

/-- The block of two of the sides of a pair, where `first` is the first side of the edge. -/
def localEdgeMatrix (first : dg.Side) (parameters : EdgeParameters K) (sd : Fin 2 → dg.Side)
    (n m : Fin 2) (i : Fin (dg.nDofs (sd n).1)) (j : Fin (dg.nDofs (sd m).1)) : K :=
  ∑ k ∈ Finset.range (sideQuadrature first).size,
    let nv := normalVector (sd 0)
    let jxw := sideJxW first k
    let jump_i := jumpSign n * sideValue (sd n) k i
    let jump_j := jumpSign m * sideValue (sd m) k j
    let average_j := sideValue (sd m) k j * (1 / 2)
    let waverage_i := data.waverage fluxes sbi nv (parameters.omega n) (sd n) k i
    let waverage_j := data.waverage fluxes sbi nv (parameters.omega m) (sd m) k j
    parameters.transportFlux * jxw * jump_i * average_j + parameters.gamma * jxw * jump_i * jump_j -
      waverage_j * (jxw * jump_i) - jump_j * (jxw * waverage_i * dg.dgVariant.value)

def pairEntries (sides : List dg.Side) (first : dg.Side) (pair : dg.Side × dg.Side) :
    List (dg.Row × dg.Row × K) :=
  let sd := ![pair.1, pair.2]
  let parameters := data.setDGParametersEdge fluxes sbi sides pair.1 pair.2 (normalVector first)
  (List.finRange 2).flatMap fun n => (List.finRange 2).flatMap fun m =>
    blockEntries (dg.dofIndices (sd n).1) (dg.dofIndices (sd m).1)
      (data.localEdgeMatrix fluxes sbi first parameters sd n m)

def assembleFluxesElementElement : List (dg.Row × dg.Row × K) :=
  dg.innerEdges.flatMap fun sides => sides.head?.elim [] fun first =>
    (pairs sides).flatMap (data.pairEntries fluxes sbi sides first)

/-! ### Boundary -/

/-- The flux of the boundary term. -/
def boundaryFlux (side : dg.Side) : K :=
  let transport_flux := fluxes.sideFlux side.iter / measure side
  if fluxes.sideFlux side.iter < -fluxes.precision then
    transport_flux + data.boundaryGamma fluxes sbi side
  else transport_flux

def localBoundaryMatrix (side : dg.Side) (i j : Fin (dg.nDofs side.1)) : K :=
  ∑ k ∈ Finset.range (sideQuadrature side).size,
    data.boundaryFlux fluxes sbi side * sideJxW side k * sideValue side k i * sideValue side k j

def assembleFluxesBoundary : List (dg.Row × dg.Row × K) :=
  dg.boundarySides.flatMap fun bcd =>
    blockEntries (dg.dofIndices bcd.1.1) (dg.dofIndices bcd.1.1)
      (data.localBoundaryMatrix fluxes sbi bcd.1)

/-- What `assemble_fluxes_boundary` leaves in `gamma[sbi]`. -/
def storeGamma (gamma : ℕ → K) : ℕ → K :=
  writeAll gamma (dg.boundarySides.map fun bcd =>
    (bcd.2, data.boundaryGamma fluxes sbi bcd.1))

/-- The boundary term of the right-hand side, with the stored penalties. -/
def setBoundaryConditions (gamma : ℕ → K) : List (dg.Row × K) :=
  (dg.boundarySides.filter fun bcd =>
    fluxes.sideFlux bcd.1.iter < -fluxes.precision).flatMap fun bcd =>
      partEntries (dg.dofIndices bcd.1.1) fun i =>
        ∑ k ∈ Finset.range (sideQuadrature bcd.1).size,
          gamma bcd.2 * data.bcConc bcd.2 (sidePoint bcd.1 k) sbi * sideJxW bcd.1 k *
            sideValue bcd.1 k i

/-! ### Couplings -/

/-- `comm_flux[m][n]` at a quadrature point of a coupling: the index 0 is the element of lower
dimension. -/
def commFlux (nb : FlowNeighbour dg.mesh.element.length dg.topology.edges.length dg.Side)
    (k : ℕ) (m n : Fin 2) : K :=
  let transport_flux := fluxes.sideFlux nb.side.iter / measure nb.side
  let csection := data.crossSection nb.side.1 (sidePoint nb.side k)
  let por_m := ![data.porM nb.element (cellPoint nb.element k),
    data.porM nb.side.1 (sidePoint nb.side k)]
  let sigma := data.sigmaC nb.element (cellPoint nb.element k) sbi
  let exchange := if m = 0 then csection * por_m 0 * sigma - min 0 transport_flux
    else csection * por_m 1 * sigma + max 0 transport_flux
  (if m = n then exchange else -exchange) * cellJxW nb.element k

/-- The element of lower dimension and the element of the side. -/
def coupled (nb : FlowNeighbour dg.mesh.element.length dg.topology.edges.length dg.Side) :
    Fin 2 → dg.Element :=
  ![nb.element, nb.side.1]

def coupledValue (nb : FlowNeighbour dg.mesh.element.length dg.topology.edges.length dg.Side)
    (k : ℕ) : (n : Fin 2) → Fin (dg.nDofs (coupled nb n)) → K
  | 0 => cellValue nb.element k
  | 1 => sideValue nb.side k

def localCouplingMatrix
    (nb : FlowNeighbour dg.mesh.element.length dg.topology.edges.length dg.Side) (n m : Fin 2)
    (i : Fin (dg.nDofs (coupled nb n))) (j : Fin (dg.nDofs (coupled nb m))) : K :=
  ∑ k ∈ Finset.range (cellQuadrature nb.element).size,
    data.commFlux fluxes sbi nb k m n * coupledValue nb k m j * coupledValue nb k n i

def assembleFluxesElementSide : List (dg.Row × dg.Row × K) :=
  dg.couplings.flatMap fun nb =>
    (List.finRange 2).flatMap fun n => (List.finRange 2).flatMap fun m =>
      blockEntries (dg.dofIndices (coupled nb n)) (dg.dofIndices (coupled nb m))
        (data.localCouplingMatrix fluxes sbi nb n m)

def assembleStiffnessMatrix : List (dg.Row × dg.Row × K) :=
  data.assembleVolumeIntegrals fluxes sbi ++ data.assembleFluxesBoundary fluxes sbi ++
    data.assembleFluxesElementElement fluxes sbi ++ data.assembleFluxesElementSide fluxes sbi

end EqData

/-! ## Mass balance -/

variable (conc : dg.Row → K)

/-- The concentration at a quadrature point of an element. -/
def cellConc (elm : dg.Element) (k : ℕ) : K :=
  ∑ i, cellValue elm k i * conc (dg.dofIndices elm i)

def sideConc (side : dg.Side) (k : ℕ) : K :=
  ∑ i, sideValue side k i * conc (dg.dofIndices side.1 i)

namespace EqData

def massFlux (gamma : ℕ → K) (bcd : dg.Side × ℕ) : K :=
  ∑ k ∈ Finset.range (sideQuadrature bcd.1).size,
    ((if fluxes.sideFlux bcd.1.iter < -fluxes.precision then
        -(gamma bcd.2 * (data.bcConc bcd.2 (sidePoint bcd.1 k) sbi - sideConc conc bcd.1 k) *
          sideJxW bcd.1 k)
      else 0) +
      fluxes.sideFlux bcd.1.iter / measure bcd.1 * sideConc conc bcd.1 k * sideJxW bcd.1 k)

/-- The arrays of `calc_fluxes` for a substance, by regions. -/
structure BoundaryBalance (dg : TransportDG K) where
  balance : Fin dg.boundarySize → K
  plus : Fin dg.boundarySize → K
  minus : Fin dg.boundarySize → K

def calcFluxes (gamma : ℕ → K) : BoundaryBalance dg :=
  let fluxes := dg.boundarySides.map fun bcd =>
    (dg.boundaryIdx bcd.2, data.massFlux fluxes sbi conc gamma bcd)
  { balance := addValues 0 fluxes
    plus := addValues 0 (fluxes.filter fun flux => flux.2 > 0)
    minus := addValues 0 (fluxes.filter fun flux => ¬ flux.2 > 0) }

def massSum (elm : dg.Element) : K :=
  ∑ k ∈ Finset.range (cellQuadrature elm).size,
    data.porM elm (cellPoint elm k) * data.crossSection elm (cellPoint elm k) *
      cellConc conc elm k * cellJxW elm k

def sourcesSum (elm : dg.Element) : K :=
  ∑ k ∈ Finset.range (cellQuadrature elm).size,
    let x := cellPoint elm k
    let conc_diff := data.sourcesConc elm x sbi - cellConc conc elm k
    (data.sourcesDensity elm x sbi + conc_diff * data.sourcesSigma elm x sbi) * cellJxW elm k

/-- The arrays of `calc_elem_sources` for a substance, by regions. -/
structure ElementBalance (dg : TransportDG K) where
  mass : Fin dg.bulkSize → K
  srcBalance : Fin dg.bulkSize → K

def calcElemSources : ElementBalance dg where
  mass := addValues 0
    (dg.cells.map fun elm : dg.Element => (dg.bulkIdx elm.val, data.massSum conc elm))
  srcBalance := addValues 0
    (dg.cells.map fun elm : dg.Element => (dg.bulkIdx elm.val, data.sourcesSum sbi conc elm))

end EqData

end TransportDG

end Flow123d

/-!
## Time steps of the discontinuous Galerkin transport

`TransportDG::update_solution` with the objects it keeps between the calls: the mass matrix, to
which every assembly adds, the stiffness matrices, the right-hand sides and the penalties of the
boundary. The solver is a parameter.
-/

namespace Flow123d

open Flow123d.Library Matrix

namespace TransportDG

variable {K : Type} {dg : TransportDG K}

/-- `changed()` of the fields. -/
structure Changed where
  porM : Bool
  crossSection : Bool
  dispL : Bool
  dispT : Bool
  diffM : Bool
  sigmaC : Bool
  dgPenalty : Bool
  sourcesDensity : Bool
  sourcesSigma : Bool
  sourcesConc : Bool
  bcConc : Bool

/-- A system that is solved. -/
structure System (dg : TransportDG K) where
  matrix : Matrix dg.Row dg.Row K
  rhs : dg.Row → K

structure State (dg : TransportDG K) where
  data : EqData dg
  fluxes : SideFluxes K
  fluxChanged : Bool
  allocationDone : Bool
  gamma : Fin dg.nSubst → ℕ → K
  massMatrix : Option (Matrix dg.Row dg.Row K)
  stiffnessMatrix : Option (Fin dg.nSubst → Matrix dg.Row dg.Row K)
  rhs : Option (Fin dg.nSubst → dg.Row → K)
  solution : Fin dg.nSubst → dg.Row → K

/-- A call of `update_solution`: what `data.set_time` gives, and the length of the step. -/
structure Call (dg : TransportDG K) where
  data : EqData dg
  changed : Changed
  dt : K

namespace State

variable (state : State dg)

def setVelocityField (fluxes : SideFluxes K) : State dg :=
  { state with fluxes := fluxes, fluxChanged := true }

variable [Field K] [LinearOrder K]

/-- The first call preallocates the matrices, which fills the penalties already. -/
def allocate : State dg :=
  if state.allocationDone then state
  else
    { state with
      massMatrix := none
      stiffnessMatrix := none
      rhs := none
      gamma := fun sbi => state.data.storeGamma state.fluxes sbi (state.gamma sbi)
      allocationDone := true }

variable (changed : Changed)

/-- The values are added to those of the last assembly. -/
def updateMass : State dg :=
  if state.massMatrix.isNone || changed.crossSection || changed.porM then
    { state with
      massMatrix := some
        (addMatrixValues (state.massMatrix.getD 0) state.data.assembleMassMatrix) }
  else state

def stiffnessGuard : Bool :=
  state.stiffnessMatrix.isNone || state.fluxChanged || changed.dispL || changed.dispT ||
    changed.diffM || changed.sigmaC || changed.dgPenalty || changed.porM || changed.crossSection

def updateStiffness : State dg :=
  if state.stiffnessGuard changed then
    { state with
      stiffnessMatrix := some fun sbi =>
        addMatrixValues 0 (state.data.assembleStiffnessMatrix state.fluxes sbi)
      gamma := fun sbi => state.data.storeGamma state.fluxes sbi (state.gamma sbi) }
  else state

def rhsGuard : Bool :=
  state.rhs.isNone || state.fluxChanged || changed.bcConc || changed.dgPenalty ||
    changed.sourcesConc || changed.sourcesDensity || changed.sourcesSigma

def updateRhs : State dg :=
  if state.rhsGuard changed then
    { state with
      rhs := some fun sbi => addValues 0 (state.data.setSources sbi ++
        state.data.setBoundaryConditions state.fluxes sbi (state.gamma sbi)) }
  else state

/-- The state in which the systems are solved. -/
def prepare (call : Call dg) : State dg :=
  let state := { state with data := call.data }.allocate.updateMass call.changed
  let state := (state.updateStiffness call.changed).updateRhs call.changed
  { state with fluxChanged := false }

/-- `A^k = A + 1/dt M` and `f^k = f + 1/dt M u^{k-1}`. -/
def system (dt : K) (sbi : Fin dg.nSubst) : System dg :=
  let massMatrix := state.massMatrix.getD 0
  let stiffnessMatrix := (state.stiffnessMatrix.getD 0) sbi
  let rhs := (state.rhs.getD 0) sbi
  { matrix := stiffnessMatrix + (1 / dt) • massMatrix
    rhs := (1 / dt) • (massMatrix *ᵥ state.solution sbi) + rhs }

def updateSolution (solver : System dg → dg.Row → K) (call : Call dg) : State dg :=
  let state := state.prepare call
  { state with solution := fun sbi => solver (state.system call.dt sbi) }

end State

end TransportDG

end Flow123d
