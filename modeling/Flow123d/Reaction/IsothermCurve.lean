import Mathlib.Analysis.SpecialFunctions.Pow.Continuity
import Mathlib.Topology.Order.IntermediateValue
import Flow123d.Reaction.Isotherm

/-!
# The curve of an isotherm

Over the real numbers the isotherms are increasing continuous functions of a nonnegative
concentration, so that every mass above that of the origin belongs to one point.
-/

set_option autoImplicit false

namespace Flow123d

open Flow123d.Library

/-! ## The functors -/

/-- A functor computes an increasing continuous function where the argument is not negative. -/
structure Curve (func : ℝ → Option ℝ) (value : ℝ → ℝ) : Prop where
  eval : ∀ x, 0 ≤ x → func x = some (value x)
  nonneg : ∀ x, 0 ≤ x → 0 ≤ value x
  mono : MonotoneOn value (Set.Ici 0)
  continuous : ContinuousOn value (Set.Ici 0)

theorem Linear.curve {multCoef : ℝ} (nonneg : 0 ≤ multCoef) :
    Curve (Linear multCoef) fun x => multCoef * x where
  eval := fun _ _ => rfl
  nonneg := fun _ positive => mul_nonneg nonneg positive
  mono := fun _ _ _ _ ordered => mul_le_mul_of_nonneg_left ordered nonneg
  continuous := (continuous_const.mul continuous_id).continuousOn

theorem Freundlich.curve {multCoef exponent : ℝ} (nonneg : 0 ≤ multCoef)
    (growing : 0 ≤ exponent) :
    Curve (Freundlich Libm.real multCoef exponent) fun x => multCoef * x ^ exponent where
  eval := by
    intro x positive
    have regular : ¬ (x < 0 ∧ (⌊exponent⌋ : ℝ) ≠ exponent ∨ x = 0 ∧ exponent < 0) := by
      rintro (⟨negative, _⟩ | ⟨_, falling⟩)
      · exact absurd positive (not_le.mpr negative)
      · exact absurd growing (not_le.mpr falling)
    exact if_neg regular
  nonneg := fun x positive => mul_nonneg nonneg (Real.rpow_nonneg positive exponent)
  mono := fun _ positive _ _ ordered =>
    mul_le_mul_of_nonneg_left (Real.rpow_le_rpow positive ordered growing) nonneg
  continuous := (continuous_const.mul (Real.continuous_rpow_const growing)).continuousOn

theorem Langmuir.curve {multCoef alpha : ℝ} (nonneg : 0 ≤ multCoef) (affine : 0 ≤ alpha) :
    Curve (Langmuir multCoef alpha) fun x => multCoef * (alpha * x) / (alpha * x + 1) where
  eval := by
    intro x positive
    have denominator : alpha * x + 1 ≠ 0 := by
      have product := mul_nonneg affine positive
      linarith
    exact if_neg denominator
  nonneg := by
    intro x positive
    have product := mul_nonneg affine positive
    exact div_nonneg (mul_nonneg nonneg product) (by linarith)
  mono := by
    intro x positive y later ordered
    have first : 0 ≤ alpha * x := mul_nonneg affine positive
    have grown : alpha * x ≤ alpha * y := mul_le_mul_of_nonneg_left ordered affine
    have scaled := mul_le_mul_of_nonneg_left grown nonneg
    have firstDenominator : 0 < alpha * x + 1 := by linarith
    have lastDenominator : 0 < alpha * y + 1 := by linarith
    refine (div_le_div_iff₀ firstDenominator lastDenominator).mpr ?_
    nlinarith
  continuous := by
    intro x positive
    have product : 0 ≤ alpha * x := mul_nonneg affine positive
    have denominator : alpha * x + 1 ≠ 0 := by linarith
    apply ContinuousAt.continuousWithinAt
    fun_prop (disch := exact denominator)

namespace Isotherm

/-- The parameters that have a physical meaning. -/
structure Physical (isotherm : Isotherm ℝ) : Prop where
  multCoef : 0 ≤ isotherm.multCoef
  secondCoef : 0 ≤ isotherm.secondCoef
  scaleAqua : 0 < isotherm.scaleAqua
  scaleSorbed : 0 < isotherm.scaleSorbed
  rhoAqua : 0 < isotherm.rhoAqua

/-- The sorbed concentration on the isotherm. -/
noncomputable def value (isotherm : Isotherm ℝ) (x : ℝ) : ℝ :=
  match isotherm.adsorptionType with
  | .none => 0 * x
  | .linear => isotherm.multCoef * x
  | .freundlich => isotherm.multCoef * x ^ isotherm.secondCoef
  | .langmuir => isotherm.multCoef * (isotherm.secondCoef * x) / (isotherm.secondCoef * x + 1)
  | .other => 0

/-- The total mass of the point of the isotherm with the dissolved concentration. -/
noncomputable def massAt (isotherm : Isotherm ℝ) (cAqua : ℝ) : ℝ :=
  isotherm.scaleSorbed * isotherm.value (cAqua / isotherm.rhoAqua) +
    isotherm.scaleAqua * cAqua

variable {isotherm : Isotherm ℝ} {func : ℝ → Option ℝ}

theorem Physical.curve (physical : isotherm.Physical)
    (known : isotherm.func Libm.real = some func) : Curve func isotherm.value := by
  unfold Isotherm.func at known
  unfold value
  cases adsorptionType : isotherm.adsorptionType with
  | none =>
      rw [adsorptionType] at known
      cases known
      exact Linear.curve (le_refl 0)
  | linear =>
      rw [adsorptionType] at known
      cases known
      exact Linear.curve physical.multCoef
  | freundlich =>
      rw [adsorptionType] at known
      cases known
      exact Freundlich.curve physical.multCoef physical.secondCoef
  | langmuir =>
      rw [adsorptionType] at known
      cases known
      exact Langmuir.curve physical.multCoef physical.secondCoef
  | other =>
      rw [adsorptionType] at known
      cases known

/-- Only the exponent zero has a sorbed concentration at the origin. -/
theorem value_zero (isotherm : Isotherm ℝ) :
    isotherm.value 0 =
      if isotherm.adsorptionType = .freundlich ∧ isotherm.secondCoef = 0 then
        isotherm.multCoef
      else 0 := by
  unfold value
  cases isotherm.adsorptionType with
  | none => simp
  | linear => simp
  | freundlich =>
      by_cases zero : isotherm.secondCoef = 0
      · simp [zero]
      · simp [zero, Real.zero_rpow zero]
  | langmuir => simp
  | other => simp

section Mass

variable (physical : isotherm.Physical) (curve : Curve func isotherm.value)

include physical curve

theorem massAt_strictMono : StrictMonoOn isotherm.massAt (Set.Ici 0) := by
  intro x positive y later ordered
  have sorbed : isotherm.value (x / isotherm.rhoAqua) ≤ isotherm.value (y / isotherm.rhoAqua) :=
    curve.mono (div_nonneg positive physical.rhoAqua.le)
      (div_nonneg later physical.rhoAqua.le)
      (div_le_div_of_nonneg_right ordered.le physical.rhoAqua.le)
  have scaledSorbed := mul_le_mul_of_nonneg_left sorbed physical.scaleSorbed.le
  have scaledAqua := mul_lt_mul_of_pos_left ordered physical.scaleAqua
  unfold massAt
  linarith

theorem massAt_continuous : ContinuousOn isotherm.massAt (Set.Ici 0) := by
  have quotient : ContinuousOn (fun x : ℝ => x / isotherm.rhoAqua) (Set.Ici 0) :=
    (continuous_id.div_const _).continuousOn
  have sorbed := curve.continuous.comp quotient fun x positive =>
    div_nonneg positive physical.rhoAqua.le
  exact (continuousOn_const.mul sorbed).add (continuousOn_const.mul continuousOn_id)

theorem scaleAqua_mul_le_massAt {x : ℝ} (positive : 0 ≤ x) :
    isotherm.scaleAqua * x ≤ isotherm.massAt x := by
  have sorbed := curve.nonneg _ (div_nonneg positive physical.rhoAqua.le)
  have scaled := mul_nonneg physical.scaleSorbed.le sorbed
  unfold massAt
  linarith

/-- A mass between those of two concentrations is that of one between them. -/
theorem exists_massAt_eq {lower upper mass : ℝ} (positive : 0 ≤ lower)
    (ordered : lower ≤ upper) (below : isotherm.massAt lower ≤ mass)
    (above : mass ≤ isotherm.massAt upper) :
    ∃ x, lower ≤ x ∧ x ≤ upper ∧ isotherm.massAt x = mass := by
  have continuous := (massAt_continuous physical curve).mono
    (fun x inside => positive.trans inside.1 : Set.Icc lower upper ⊆ Set.Ici 0)
  obtain ⟨x, inside, found⟩ := intermediate_value_Icc ordered continuous ⟨below, above⟩
  exact ⟨x, inside.1, inside.2, found⟩

theorem eqFunc_eq {conc : ConcPair ℝ} {x : ℝ} (positive : 0 ≤ x) :
    isotherm.eqFunc func conc x = some (isotherm.massAt x - isotherm.totalMass conc) := by
  unfold eqFunc CrossFunction
  rw [curve.eval _ (div_nonneg positive physical.rhoAqua.le)]
  rfl

end Mass

end Isotherm

end Flow123d
