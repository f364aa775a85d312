import Mathlib.Tactic.FieldSimp
import Mathlib.Tactic.Positivity
import Mathlib.Tactic.Ring
import Flow123d.Reaction.Isotherm

/-!
# Conservation of the total mass

Every way through `compute_reaction` keeps the total mass of the two concentrations.
-/

set_option autoImplicit false

namespace Flow123d

open Flow123d.Library

namespace Isotherm

variable {K : Type} [Field K] [LinearOrder K]

/-- What `reinit` computes from the scales and the limit. -/
structure Prepared (isotherm : Isotherm K) : Prop where
  invScaleAqua : isotherm.invScaleAqua = isotherm.scaleAqua /
    (isotherm.scaleAqua * isotherm.scaleAqua + isotherm.scaleSorbed * isotherm.scaleSorbed)
  invScaleSorbed : isotherm.invScaleSorbed = isotherm.scaleSorbed /
    (isotherm.scaleAqua * isotherm.scaleAqua + isotherm.scaleSorbed * isotherm.scaleSorbed)
  limited : isotherm.limitedSolubilityOn = true → 0 < isotherm.tableLimit

theorem reinit_prepared (adsorptionType : SorptionType)
    (rhoAqua scaleAqua scaleSorbed cAquaLimit multCoef secondCoef : K)
    (isotherm : Isotherm K) :
    (isotherm.reinit adsorptionType rhoAqua scaleAqua scaleSorbed cAquaLimit multCoef
      secondCoef).Prepared where
  invScaleAqua := rfl
  invScaleSorbed := rfl
  limited := of_decide_eq_true

section Paths

variable {libm : Libm K} {rootFinder : RootFinder K} {isotherm : Isotherm K}
  {conc : ConcPair K}

/-- The outcome has the total mass of the pair; without one the root finder has failed. -/
def Conserves (rootFinder : RootFinder K) (isotherm : Isotherm K) (conc : ConcPair K) :
    Except (IsothermError K) (ConcPair K) → Prop
  | .ok after => isotherm.totalMass after = isotherm.totalMass conc
  | .error error => error = .rootFinder ∧
      ∃ func lower upper, rootFinder func lower upper = none

omit [LinearOrder K] in
theorem totalMass_rest (sorbed : isotherm.scaleSorbed ≠ 0) (mass cAqua : K) :
    isotherm.totalMass (cAqua, (mass - isotherm.scaleAqua * cAqua) / isotherm.scaleSorbed) =
      mass := by
  unfold totalMass
  rw [mul_div_cancel₀ _ sorbed]
  ring

theorem precipitate_conserves (sorbed : isotherm.scaleSorbed ≠ 0)
    (positive : 0 < isotherm.tableLimit) :
    isotherm.Conserves rootFinder conc (isotherm.precipitate conc) := by
  rw [precipitate, if_pos positive]
  exact totalMass_rest sorbed _ _

omit [LinearOrder K] in
theorem solveConcWith_conserves (sorbed : isotherm.scaleSorbed ≠ 0) (func : K → Option K) :
    isotherm.Conserves rootFinder conc (isotherm.solveConcWith rootFinder func conc) := by
  cases found : rootFinder (isotherm.eqFunc func conc) 0 (isotherm.upperSolutionBound func) with
  | none =>
      simp only [solveConcWith, found]
      exact ⟨rfl, _, _, _, found⟩
  | some solution =>
      simp only [solveConcWith, found]
      exact totalMass_rest sorbed _ _

variable [IsStrictOrderedRing K]

/-- Every point of the rotated coordinates has the mass on its first axis. -/
theorem totalMass_rotated
    (invScaleAqua : isotherm.invScaleAqua = isotherm.scaleAqua /
      (isotherm.scaleAqua * isotherm.scaleAqua + isotherm.scaleSorbed * isotherm.scaleSorbed))
    (invScaleSorbed : isotherm.invScaleSorbed = isotherm.scaleSorbed /
      (isotherm.scaleAqua * isotherm.scaleAqua + isotherm.scaleSorbed * isotherm.scaleSorbed))
    (sorbed : isotherm.scaleSorbed ≠ 0) (mass rotSorbed : K) :
    isotherm.totalMass
      (mass * isotherm.invScaleAqua - rotSorbed * isotherm.invScaleSorbed,
        mass * isotherm.invScaleSorbed + rotSorbed * isotherm.invScaleAqua) = mass := by
  have norm : isotherm.scaleAqua * isotherm.scaleAqua +
      isotherm.scaleSorbed * isotherm.scaleSorbed ≠ 0 :=
    (add_pos_of_nonneg_of_pos (mul_self_nonneg _) (mul_self_pos.mpr sorbed)).ne'
  unfold totalMass
  rw [invScaleAqua, invScaleSorbed]
  field_simp
  ring

variable [FloorRing K]

omit [IsStrictOrderedRing K] in
theorem solveConc_conserves (sorbed : isotherm.scaleSorbed ≠ 0) :
    isotherm.Conserves rootFinder conc (isotherm.solveConc libm rootFinder conc) := by
  unfold solveConc
  cases isotherm.func libm with
  | none => rfl
  | some func => exact solveConcWith_conserves sorbed func

theorem computeProjection_conserves (prepared : isotherm.Prepared)
    (sorbed : isotherm.scaleSorbed ≠ 0) (nonneg : 0 ≤ isotherm.totalMass conc)
    (step : 0 < isotherm.totalMassStep) :
    isotherm.Conserves rootFinder conc
      (isotherm.computeProjection libm rootFinder conc) := by
  have index : ¬ ⌊isotherm.totalMass conc / isotherm.totalMassStep⌋ < 0 :=
    not_lt.mpr (Int.floor_nonneg.mpr (div_nonneg nonneg step.le))
  unfold computeProjection
  simp only [index, if_false]
  split
  · exact totalMass_rotated prepared.invScaleAqua prepared.invScaleSorbed sorbed _ _
  · split
    case isTrue limited => exact precipitate_conserves sorbed (prepared.limited limited)
    case isFalse => exact solveConc_conserves sorbed

/-- On all paths, for every root finder. -/
theorem computeReaction_conserves (prepared : isotherm.Prepared)
    (sorbed : isotherm.scaleSorbed ≠ 0) (nonneg : 0 ≤ isotherm.totalMass conc)
    (step : isotherm.isPrecomputed = true → 0 < isotherm.totalMassStep) :
    isotherm.Conserves rootFinder conc (isotherm.computeReaction libm rootFinder conc) := by
  unfold computeReaction
  split
  case isTrue precomputed =>
    exact computeProjection_conserves prepared sorbed nonneg (step precomputed)
  case isFalse =>
    split
    case isTrue limited =>
      have positive := prepared.limited (Bool.and_eq_true_iff.mp limited).1
      rw [precipitate, if_pos positive]
      exact rfl
    case isFalse => exact solveConc_conserves sorbed

end Paths

/-! ## A table of two points -/

/-- The linear isotherm `c_s = c_a` with unit scales, and its table up to the mass 2. -/
def unitLinear : Isotherm ℚ :=
  { (Isotherm.mk .linear 1 0 0 false 1 1 1 0 0 [0, 0] 2 : Isotherm ℚ).reinit
      .linear 1 1 1 1 1 0 with interpolationTable := [0, 0], totalMassStep := 2 }

/-- What is found when the lower bound is a root. -/
def lowerRoot : RootFinder ℚ := fun _ lower _ => some (lower, lower)

theorem computeReaction_conserves_unitLinear :
    unitLinear.Conserves lowerRoot (1, 0)
      (unitLinear.computeReaction ⟨fun _ _ => 0, fun _ => 0⟩ lowerRoot (1, 0)) := by
  apply computeReaction_conserves
  · exact ⟨rfl, rfl, fun _ => by decide +kernel⟩
  · decide +kernel
  · decide +kernel
  · intro _
    decide +kernel

end Isotherm

end Flow123d
