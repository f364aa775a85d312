import Mathlib.Data.Fintype.Basic
import Flow123d.Reaction.Isotherm

/-!
# Sorption

The isotherms of the regions and the adsorbing species: when their tables are built, when
they are initialised element by element, and the reaction of all local elements.
-/

set_option autoImplicit false

namespace Flow123d

open Flow123d.Library

/-- Something for each field that decides about the tables. -/
structure SorptionFields (α : Type) where
  rockDensity : α
  multCoefs : α
  secondParams : α
  porosity : α
  immobPorosity : α
  phi : α

def SorptionFields.all (flags : SorptionFields Bool) : Bool :=
  flags.rockDensity && flags.multCoefs && flags.secondParams && flags.porosity &&
    flags.immobPorosity && flags.phi

/-- The values of the fields at one element; there are `n + 1` species. -/
structure SorptionData (n : ℕ) (K : Type) where
  rockDensity : K
  sorptionTypes : Fin (n + 1) → SorptionType
  multCoefs : Fin (n + 1) → K
  secondParams : Fin (n + 1) → K
  porosity : K
  immobPorosity : K
  phi : K

/-- What a step reads: which fields `set_time` has changed, the region set `BULK`, and the
values on the regions and the local elements. On a region where a field has a constant
accessor, its value is the same everywhere. -/
structure SorptionInput (n nrOfRegions lsize : ℕ) (K : Type) where
  changedDuringSetTime : SorptionFields Bool
  bulk : List (Fin nrOfRegions)
  constAccessor : Fin nrOfRegions → SorptionFields Bool
  regionData : Fin nrOfRegions → SorptionData n K
  region : Fin lsize → Fin nrOfRegions
  elementData : Fin lsize → SorptionData n K
  bulk_nodup : bulk.Nodup
  constant : ∀ locEl, (constAccessor (region locEl)).all = true →
    elementData locEl = { regionData (region locEl) with
      sorptionTypes := (elementData locEl).sorptionTypes }

inductive SorptionError (K : Type) where
  /-- `Parameter scale_sorbed (phi * (1 - por_m - por_imm) * rock_density *
  molar_masses[i_subst]) is equal to zero.` -/
  | zeroScale
  | isotherm (error : IsothermError K)

structure Sorption (n nrOfRegions : ℕ) (K : Type) where
  nrOfPoints : ℤ
  solventDens : K
  molarMasses : Fin (n + 1) → K
  cAqMax : Fin (n + 1) → K
  isotherms : Fin nrOfRegions → Fin (n + 1) → Isotherm K

/-- `concentration_matrix` of the transported substances and `sorbed_conc_array`. -/
structure SorptionConcentrations (n nSubst lsize : ℕ) (K : Type) where
  concentrationMatrix : Fin nSubst → Fin lsize → K
  sorbedConcArray : Fin (n + 1) → Fin lsize → K

namespace Sorption

variable {n nrOfRegions nSubst lsize : ℕ} {K : Type} [Field K] [LinearOrder K] [FloorRing K]
  (libm : Libm K) (rootFinder : RootFinder K)

def scaleSorbed (data : SorptionData n K) (sorption : Sorption n nrOfRegions K)
    (iSubst : Fin (n + 1)) : K :=
  data.phi * (1 - data.porosity - data.immobPorosity) * data.rockDensity *
    sorption.molarMasses iSubst

/-- The isotherm of one species with the parameters of the data. -/
def reinitialised (data : SorptionData n K) (sorption : Sorption n nrOfRegions K)
    (iSubst : Fin (n + 1)) (isotherm : Isotherm K) : Isotherm K :=
  isotherm.reinit (data.sorptionTypes iSubst) sorption.solventDens data.porosity
    (sorption.scaleSorbed data iSubst) (sorption.cAqMax iSubst) (data.multCoefs iSubst)
    (data.secondParams iSubst)

def isothermReinit (data : SorptionData n K) (sorption : Sorption n nrOfRegions K)
    (isotherms : Fin (n + 1) → Isotherm K) :
    Except (SorptionError K) (Fin (n + 1) → Isotherm K) :=
  if ∃ iSubst, sorption.scaleSorbed data iSubst = 0 then .error .zeroScale
  else .ok fun iSubst => sorption.reinitialised data iSubst (isotherms iSubst)

def makeTable (nrOfPoints : ℤ) (isotherm : Isotherm K) :
    Except (SorptionError K) (Isotherm K) :=
  match isotherm.makeTable libm rootFinder nrOfPoints with
  | .error error => .error (.isotherm error)
  | .ok made => .ok made

/-- The tables of one region. -/
def makeRegionTables (nrOfPoints : ℤ) (isotherms : Fin (n + 1) → Isotherm K) :
    Except (SorptionError K) (Fin (n + 1) → Isotherm K) :=
  (List.finRange (n + 1)).foldlM
    (fun isotherms iSubst => do
      let made ← makeTable libm rootFinder nrOfPoints (isotherms iSubst)
      .ok (Function.update isotherms iSubst made))
    isotherms

def setIsotherms (regIdx : Fin nrOfRegions) (isotherms : Fin (n + 1) → Isotherm K)
    (sorption : Sorption n nrOfRegions K) : Sorption n nrOfRegions K :=
  { sorption with isotherms := Function.update sorption.isotherms regIdx isotherms }

/-- Creates the tables of a region in the case of constant rock matrix parameters. -/
def makeTablesOf (input : SorptionInput n nrOfRegions lsize K)
    (sorption : Sorption n nrOfRegions K) (regIdx : Fin nrOfRegions) :
    Except (SorptionError K) (Sorption n nrOfRegions K) :=
  if (input.constAccessor regIdx).all then do
    let isotherms ← isothermReinit (input.regionData regIdx) sorption
      (sorption.isotherms regIdx)
    let made ← makeRegionTables libm rootFinder sorption.nrOfPoints isotherms
    .ok (sorption.setIsotherms regIdx made)
  else .ok sorption

def makeTables (input : SorptionInput n nrOfRegions lsize K)
    (sorption : Sorption n nrOfRegions K) :
    Except (SorptionError K) (Sorption n nrOfRegions K) :=
  input.bulk.foldlM (makeTablesOf libm rootFinder input) sorption

section SetIsotherms

variable {sorption : Sorption n nrOfRegions K} {regIdx other : Fin nrOfRegions}
  {isotherms : Fin (n + 1) → Isotherm K}

omit [Field K] [LinearOrder K] [FloorRing K] in
theorem setIsotherms_self : (sorption.setIsotherms regIdx isotherms).isotherms regIdx =
    isotherms :=
  Function.update_self ..

omit [Field K] [LinearOrder K] [FloorRing K] in
theorem setIsotherms_of_ne (different : other ≠ regIdx) :
    (sorption.setIsotherms regIdx isotherms).isotherms other = sorption.isotherms other :=
  Function.update_of_ne different ..

end SetIsotherms

/-! ## The reaction -/

/-- The isotherms are initialised anew unless the first one has a table. -/
def elementIsotherms (data : SorptionData n K) (sorption : Sorption n nrOfRegions K)
    (isotherms : Fin (n + 1) → Isotherm K) :
    Except (SorptionError K) (Fin (n + 1) → Isotherm K) :=
  if (isotherms 0).isPrecomputed then .ok isotherms
  else isothermReinit data sorption isotherms

def reactSubstance (substanceIds : Fin (n + 1) → Fin nSubst) (locEl : Fin lsize)
    (isotherms : Fin (n + 1) → Isotherm K)
    (concentrations : SorptionConcentrations n nSubst lsize K) (iSubst : Fin (n + 1)) :
    Except (SorptionError K) (SorptionConcentrations n nSubst lsize K) :=
  match (isotherms iSubst).computeReaction libm rootFinder
      (concentrations.concentrationMatrix (substanceIds iSubst) locEl,
        concentrations.sorbedConcArray iSubst locEl) with
  | .error error => .error (.isotherm error)
  | .ok after => .ok
      { concentrationMatrix :=
          Function.update concentrations.concentrationMatrix (substanceIds iSubst)
            (Function.update (concentrations.concentrationMatrix (substanceIds iSubst)) locEl
              after.1)
        sorbedConcArray :=
          Function.update concentrations.sorbedConcArray iSubst
            (Function.update (concentrations.sorbedConcArray iSubst) locEl after.2) }

def computeReaction (substanceIds : Fin (n + 1) → Fin nSubst)
    (input : SorptionInput n nrOfRegions lsize K)
    (state : Sorption n nrOfRegions K × SorptionConcentrations n nSubst lsize K)
    (locEl : Fin lsize) :
    Except (SorptionError K)
      (Sorption n nrOfRegions K × SorptionConcentrations n nSubst lsize K) := do
  let regIdNr := input.region locEl
  let isotherms ← elementIsotherms (input.elementData locEl) state.1
    (state.1.isotherms regIdNr)
  let concentrations ← (List.finRange (n + 1)).foldlM
    (reactSubstance libm rootFinder substanceIds locEl isotherms) state.2
  .ok (state.1.setIsotherms regIdNr isotherms, concentrations)

def computeOneStep (substanceIds : Fin (n + 1) → Fin nSubst)
    (state : Sorption n nrOfRegions K × SorptionConcentrations n nSubst lsize K)
    (input : SorptionInput n nrOfRegions lsize K) :
    Except (SorptionError K)
      (Sorption n nrOfRegions K × SorptionConcentrations n nSubst lsize K) := do
  let sorption ←
    if input.changedDuringSetTime.all then makeTables libm rootFinder input state.1
    else .ok state.1
  (List.finRange lsize).foldlM (computeReaction libm rootFinder substanceIds input)
    (sorption, state.2)

end Sorption

end Flow123d
