import Mathlib.Algebra.Order.Floor.Ring
import Flow123d.Library.Fold
import Flow123d.Library.Double
import Flow123d.Library.RootFinder

/-!
# Isotherms

The equilibrium between the dissolved and the sorbed concentration of one substance: by
interpolation in a table, by precipitation above the limit of solubility, or by a root
finder on the isotherm. Numbers are exact.
-/

set_option autoImplicit false

namespace Flow123d

open Flow123d.Library

/-- `other` stands for a value of the enumeration that no case of the switches names. -/
inductive SorptionType where
  | none
  | linear
  | freundlich
  | langmuir
  | other
  deriving DecidableEq

/-- `ConcPair`: the dissolved and the sorbed concentration. -/
abbrev ConcPair (K : Type) := K × K

inductive IsothermError (K : Type) where
  /-- `total_mass %f seems to have negative value.` -/
  | negativeMass (totalMass : K)
  /-- `limited solubility is considered, but the solubility limit has wrong, negative value %f` -/
  | wrongLimit (tableLimit : K)
  /-- The exception of `toms748_solve`. -/
  | rootFinder

section Functors

variable {K : Type} [Field K] [LinearOrder K] [FloorRing K]

/-- The functors are `none` where their result is not a finite number. -/
def Linear (multCoef x : K) : Option K := some (multCoef * x)

def Freundlich (libm : Libm K) (multCoef exponent x : K) : Option K :=
  if x < 0 ∧ (⌊exponent⌋ : K) ≠ exponent ∨ x = 0 ∧ exponent < 0 then none
  else some (multCoef * libm.pow x exponent)

def Langmuir (multCoef alpha x : K) : Option K :=
  if alpha * x + 1 = 0 then none else some (multCoef * (alpha * x) / (alpha * x + 1))

def CrossFunction (func : K → Option K) (totalMass scaleAqua scaleSorbed rhoAqua concAqua : K) :
    Option K :=
  (func (concAqua / rhoAqua)).map fun sorbed =>
    scaleSorbed * sorbed + scaleAqua * concAqua - totalMass

end Functors

structure Isotherm (K : Type) where
  adsorptionType : SorptionType
  multCoef : K
  secondCoef : K
  tableLimit : K
  limitedSolubilityOn : Bool
  rhoAqua : K
  scaleAqua : K
  scaleSorbed : K
  invScaleAqua : K
  invScaleSorbed : K
  interpolationTable : List K
  totalMassStep : K

namespace Isotherm

variable {K : Type} [Field K] [LinearOrder K] [FloorRing K]

def reinit (adsorptionType : SorptionType)
    (rhoAqua scaleAqua scaleSorbed cAquaLimit multCoef secondCoef : K)
    (isotherm : Isotherm K) : Isotherm K :=
  { isotherm with
    adsorptionType := adsorptionType
    rhoAqua := rhoAqua
    scaleAqua := scaleAqua
    scaleSorbed := scaleSorbed
    invScaleAqua := scaleAqua / (scaleAqua * scaleAqua + scaleSorbed * scaleSorbed)
    invScaleSorbed := scaleSorbed / (scaleAqua * scaleAqua + scaleSorbed * scaleSorbed)
    tableLimit := cAquaLimit
    limitedSolubilityOn := decide (cAquaLimit > 0)
    multCoef := multCoef
    secondCoef := secondCoef }

def totalMass (isotherm : Isotherm K) (conc : ConcPair K) : K :=
  isotherm.scaleAqua * conc.1 + isotherm.scaleSorbed * conc.2

def precipitate (isotherm : Isotherm K) (conc : ConcPair K) :
    Except (IsothermError K) (ConcPair K) :=
  if isotherm.tableLimit > 0 then
    .ok (isotherm.tableLimit,
      (isotherm.totalMass conc - isotherm.scaleAqua * isotherm.tableLimit) /
        isotherm.scaleSorbed)
  else .error (.wrongLimit isotherm.tableLimit)

/-! ## The iterative solution -/

def upperSolutionBound (func : K → Option K) (isotherm : Isotherm K) : Option K :=
  (func (isotherm.tableLimit / isotherm.rhoAqua)).map fun sorbed =>
    (isotherm.tableLimit * isotherm.scaleAqua + sorbed * isotherm.scaleSorbed) /
      isotherm.scaleAqua + 1 / 100000

def eqFunc (func : K → Option K) (isotherm : Isotherm K) (conc : ConcPair K) :
    K → Option K :=
  CrossFunction func (isotherm.totalMass conc) isotherm.scaleAqua isotherm.scaleSorbed
    isotherm.rhoAqua

/-- `solve_conc<Func>`. -/
def solveConcWith (rootFinder : RootFinder K) (func : K → Option K) (isotherm : Isotherm K)
    (conc : ConcPair K) : Except (IsothermError K) (ConcPair K) :=
  match rootFinder (isotherm.eqFunc func conc) 0 (isotherm.upperSolutionBound func) with
  | none => .error .rootFinder
  | some solution =>
      let cAqua := (solution.1 + solution.2) / 2
      .ok (cAqua,
        (isotherm.totalMass conc - isotherm.scaleAqua * cAqua) / isotherm.scaleSorbed)

/-- The object that the switch over the adsorption type makes. -/
def func (libm : Libm K) (isotherm : Isotherm K) : Option (K → Option K) :=
  match isotherm.adsorptionType with
  | .none => some (Linear 0)
  | .linear => some (Linear isotherm.multCoef)
  | .freundlich => some (Freundlich libm isotherm.multCoef isotherm.secondCoef)
  | .langmuir => some (Langmuir isotherm.multCoef isotherm.secondCoef)
  | .other => none

variable (libm : Libm K) (rootFinder : RootFinder K)

def solveConc (isotherm : Isotherm K) (conc : ConcPair K) :
    Except (IsothermError K) (ConcPair K) :=
  match isotherm.func libm with
  | some func => isotherm.solveConcWith rootFinder func conc
  | none => .ok conc

/-! ## The reaction -/

def computeProjection (isotherm : Isotherm K) (conc : ConcPair K) :
    Except (IsothermError K) (ConcPair K) :=
  let totalMass := isotherm.totalMass conc
  let totalMassSteps := totalMass / isotherm.totalMassStep
  let totalMassIdx := ⌊totalMassSteps⌋
  if totalMassIdx < 0 then .error (.negativeMass totalMass)
  else if totalMassIdx.toNat < isotherm.interpolationTable.length - 1 then
    let low := isotherm.interpolationTable.getD totalMassIdx.toNat 0
    let high := isotherm.interpolationTable.getD (totalMassIdx.toNat + 1) 0
    let rotSorbed := low + (totalMassSteps - totalMassIdx) * (high - low)
    .ok (totalMass * isotherm.invScaleAqua - rotSorbed * isotherm.invScaleSorbed,
      totalMass * isotherm.invScaleSorbed + rotSorbed * isotherm.invScaleAqua)
  else if isotherm.limitedSolubilityOn then isotherm.precipitate conc
  else isotherm.solveConc libm rootFinder conc

def isPrecomputed (isotherm : Isotherm K) : Bool := !isotherm.interpolationTable.isEmpty

def computeReaction (isotherm : Isotherm K) (conc : ConcPair K) :
    Except (IsothermError K) (ConcPair K) :=
  if isotherm.isPrecomputed then isotherm.computeProjection libm rootFinder conc
  else if isotherm.limitedSolubilityOn && decide (conc.1 > isotherm.tableLimit) then do
    -- the result is overwritten with the pair saved before
    let _ ← isotherm.precipitate conc
    .ok conc
  else isotherm.solveConc libm rootFinder conc

/-! ## The table -/

/-- The second of the rotated coordinates. -/
def rotSorbed (isotherm : Isotherm K) (conc : ConcPair K) : K :=
  conc.2 * isotherm.scaleAqua - conc.1 * isotherm.scaleSorbed

/-- The pair with which the table starts a call. -/
def tableConc (isotherm : Isotherm K) (mass : K) : ConcPair K :=
  (mass / isotherm.scaleAqua, 0)

/-- The loop over the masses, `count` turns before its end. -/
def fillTable (func : K → Option K) : ℕ → K → Isotherm K → Except (IsothermError K) (Isotherm K)
  | 0, _, isotherm => .ok isotherm
  | count + 1, mass, isotherm => do
      let solved ← isotherm.solveConcWith rootFinder func (isotherm.tableConc mass)
      fillTable func count (mass + isotherm.totalMassStep)
        { isotherm with interpolationTable :=
            isotherm.interpolationTable ++ [isotherm.rotSorbed solved] }

/-- `make_table<Func>`; a limit of the mass that is not a number makes the root finder fail. -/
def makeTableWith (func : K → Option K) (nSteps : ℤ) (isotherm : Isotherm K) :
    Except (IsothermError K) (Isotherm K) :=
  let tableLimit := if isotherm.tableLimit ≤ 0 then 1 else isotherm.tableLimit
  match func (tableLimit / isotherm.rhoAqua) with
  | none => .error .rootFinder
  | some sorbed =>
      let massLimit := isotherm.scaleAqua * tableLimit + isotherm.scaleSorbed * sorbed
      fillTable rootFinder func (nSteps + 1).toNat 0
        { isotherm with tableLimit := tableLimit, totalMassStep := massLimit / nSteps }

def tableSteps (isotherm : Isotherm K) (nrOfPoints : ℤ) : ℤ :=
  if isotherm.adsorptionType = .none then 1 else nrOfPoints

def makeTable (nrOfPoints : ℤ) (isotherm : Isotherm K) :
    Except (IsothermError K) (Isotherm K) :=
  match isotherm.func libm with
  | some func => makeTableWith rootFinder func (isotherm.tableSteps nrOfPoints) isotherm
  | none => .ok isotherm

end Isotherm

end Flow123d
