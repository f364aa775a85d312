import Flow123d.Transport.ConvectionTransport

/-!
# Mass balance of the convection

The fluxes through the boundary, the mass and the sources by regions, their totals, and
the totals integrated over time. Only the mobile phase counts without dual porosity and
sorption. The first process gathers the sums of all processes.
-/

set_option autoImplicit false

namespace Flow123d

open Flow123d.Library

/-! ## Edges of the mesh -/

/-- An edge with its sides. The balance stops the program at a boundary with several
sides, and the edge of a side that faces a lower dimensional element has no other one. -/
inductive MeshEdge (n : ℕ) where
  | boundary (bcd : ℕ) (side : TransportSide n)
  | neighbour (element : Fin n) (side : TransportSide n)
  | inner (sides : List (TransportSide n))
deriving DecidableEq

namespace MeshEdge

variable {n : ℕ}

def sides : MeshEdge n → List (TransportSide n)
  | boundary _ side => [side]
  | neighbour _ side => [side]
  | inner sides => sides

def cond : MeshEdge n → Option ℕ
  | boundary bcd _ => some bcd
  | neighbour _ _ => none
  | inner _ => none

/-- The sides of the edge as the loop over the sides of an element sees them. -/
def elementSides (edge : MeshEdge n) : List (ElementSide n) :=
  edge.sides.map fun side => ⟨side, edge.cond, edge.sides⟩

/-- The neighbouring that the edge belongs to, if there is one. -/
def neighbourings : MeshEdge n → List (Fin n × TransportSide n)
  | boundary _ _ => []
  | neighbour element side => [(element, side)]
  | inner _ => []

def boundaries : MeshEdge n → List (ℕ × TransportSide n)
  | boundary bcd side => [(bcd, side)]
  | neighbour _ _ => []
  | inner _ => []

end MeshEdge

/-- The sides and the neighbours of all elements are those of the edges. -/
structure BalanceMesh (n nBcd nBulk : ℕ) where
  mesh : TransportMesh n
  edges : List (MeshEdge n)
  boundaryRegion : ℕ → Fin nBcd
  bulkRegion : Fin n → Fin nBulk
  sides_perm : ∀ elm, (mesh.sides elm).Perm
    ((edges.flatMap MeshEdge.elementSides).filter fun side => side.side.element = elm)
  neighVb_perm : ∀ elm, (mesh.neighVb elm).Perm
    (((edges.flatMap MeshEdge.neighbourings).filter fun neighbouring =>
      neighbouring.1 = elm).map Prod.snd)

/-! ## Sums by regions -/

abbrev RegionTable (nSubst nReg : ℕ) := Fin nSubst → Fin nReg → Double

namespace RegionTable

variable {nSubst nReg : ℕ}

def zero : RegionTable nSubst nReg := fun _ _ => .fin 0

def add (table : RegionTable nSubst nReg) (region : Fin nReg) (value : Fin nSubst → Double) :
    RegionTable nSubst nReg := fun sbi r =>
  if region = r then table sbi r + value sbi else table sbi r

def total (table : RegionTable nSubst nReg) : Fin nSubst → Double := fun sbi =>
  (List.finRange nReg).foldl (fun sum r => sum + table sbi r) (.fin 0)

end RegionTable

structure BoundaryFluxes (nSubst nBcd : ℕ) where
  balance : RegionTable nSubst nBcd
  plusBalance : RegionTable nSubst nBcd
  minusBalance : RegionTable nSubst nBcd

structure ElemSources (nSubst nBulk : ℕ) where
  mass : RegionTable nSubst nBulk
  srcBalance : RegionTable nSubst nBulk

namespace BalanceMesh

variable {n nSubst nBcd nBulk : ℕ} (mesh : BalanceMesh n nBcd nBulk)

def boundaries : List (ℕ × TransportSide n) := mesh.edges.flatMap MeshEdge.boundaries

/-- The flux of the substances through a boundary. -/
def massFlux (data : TransportData n nSubst) (vpconc : TransportVectors n nSubst)
    (bcd : ℕ × TransportSide n) : Fin nSubst → Double := fun sbi =>
  if data.sideFlux bcd.2 < 0 then
    .fin (data.sideFlux bcd.2) * .fin (data.bcConc bcd.1 sbi)
  else .fin (data.sideFlux bcd.2) * vpconc sbi bcd.2.element

def calcFluxes (data : TransportData n nSubst) (vpconc : TransportVectors n nSubst) :
    BoundaryFluxes nSubst nBcd :=
  mesh.boundaries.foldl (fun fluxes bcd =>
      let region := mesh.boundaryRegion bcd.1
      let flux := massFlux data vpconc bcd
      { balance := fluxes.balance.add region flux
        plusBalance := fluxes.plusBalance.add region fun sbi =>
          if .fin 0 < flux sbi then flux sbi else .fin 0
        minusBalance := fluxes.minusBalance.add region fun sbi =>
          if .fin 0 < flux sbi then .fin 0 else flux sbi })
    ⟨.zero, .zero, .zero⟩

def elementMass (data : TransportData n nSubst) (vconc : TransportVectors n nSubst)
    (elm : Fin n) : Fin nSubst → Double := fun sbi =>
  .fin (data.porM elm) * .fin (data.crossSection elm) * (.fin 0 + vconc sbi elm) *
    .fin (mesh.mesh.measure elm)

def elementSource (sources : Sources n nSubst) (vpconc : TransportVectors n nSubst)
    (elm : Fin n) : Fin nSubst → Double := fun sbi =>
  sources.computeConcentrationSourcesForMassBalance vpconc sbi elm *
    .fin (mesh.mesh.measure elm)

def calcElemSources (data : TransportData n nSubst) (sources : Sources n nSubst)
    (vconc vpconc : TransportVectors n nSubst) : ElemSources nSubst nBulk :=
  (List.finRange n).foldl (fun tables elm =>
      let region := mesh.bulkRegion elm
      { mass := tables.mass.add region (mesh.elementMass data vconc elm)
        srcBalance := tables.srcBalance.add region (mesh.elementSource sources vpconc elm) })
    ⟨.zero, .zero⟩

end BalanceMesh

/-! ## The balance over time -/

structure MassBalance (nSubst nBcd nBulk : ℕ) where
  fluxes : BoundaryFluxes nSubst nBcd
  elemSources : ElemSources nSubst nBulk
  bcdTotalBalance : Fin nSubst → Double
  bcdTotalInflow : Fin nSubst → Double
  bcdTotalOutflow : Fin nSubst → Double
  massTotal : Fin nSubst → Double
  srcTotalBalance : Fin nSubst → Double
  initialMass : Fin nSubst → Double
  integratedSources : Fin nSubst → Double
  integratedFluxes : Fin nSubst → Double
  initialTime : Double
  lastTime : Double
  initial : Bool

namespace MassBalance

variable {nSubst nBcd nBulk : ℕ}

def create : MassBalance nSubst nBcd nBulk where
  fluxes := ⟨.zero, .zero, .zero⟩
  elemSources := ⟨.zero, .zero⟩
  bcdTotalBalance := fun _ => .fin 0
  bcdTotalInflow := fun _ => .fin 0
  bcdTotalOutflow := fun _ => .fin 0
  massTotal := fun _ => .fin 0
  srcTotalBalance := fun _ => .fin 0
  initialMass := fun _ => .fin 0
  integratedSources := fun _ => .fin 0
  integratedFluxes := fun _ => .fin 0
  initialTime := .fin 0
  lastTime := .fin (-1)
  initial := true

/-- The totals, and the beginning of the balance at the first call. -/
def gather (fluxes : BoundaryFluxes nSubst nBcd) (elemSources : ElemSources nSubst nBulk)
    (time : Double) (balance : MassBalance nSubst nBcd nBulk) :
    MassBalance nSubst nBcd nBulk :=
  { balance with
    fluxes := fluxes
    elemSources := elemSources
    bcdTotalBalance := fluxes.balance.total
    bcdTotalOutflow := fluxes.plusBalance.total
    bcdTotalInflow := fluxes.minusBalance.total
    massTotal := elemSources.mass.total
    srcTotalBalance := elemSources.srcBalance.total
    initialMass := if balance.initial then elemSources.mass.total else balance.initialMass
    initialTime := if balance.initial then time else balance.initialTime
    lastTime := if balance.initial then time else balance.lastTime
    initial := false }

/-- The sums for both Euler schemes. -/
def integrate (time : Double) (balance : MassBalance nSubst nBcd nBulk) :
    MassBalance nSubst nBcd nBulk :=
  { balance with
    integratedSources := fun sbi =>
      balance.integratedSources sbi +
        balance.srcTotalBalance sbi * (time - balance.lastTime)
    integratedFluxes := fun sbi =>
      balance.integratedFluxes sbi +
        balance.bcdTotalBalance sbi * (time - balance.lastTime)
    lastTime := time }

def calculate (fluxes : BoundaryFluxes nSubst nBcd) (elemSources : ElemSources nSubst nBulk)
    (time : Double) (balance : MassBalance nSubst nBcd nBulk) :
    MassBalance nSubst nBcd nBulk :=
  if balance.lastTime.equal time then balance
  else (balance.gather fluxes elemSources time).integrate time

end MassBalance

end Flow123d
