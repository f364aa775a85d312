import Mathlib.Algebra.Order.Floor.Defs
import Mathlib.Tactic.Positivity
import Mathlib.Tactic.Ring
import Mathlib.Topology.Algebra.Order.Field
import Mathlib.Topology.Instances.Real.Lemmas
import Mathlib.Topology.Order.IntermediateValue
import Flow123d.Library.Double
import Flow123d.Library.NewtonIteration
import Flow123d.Reaction.Isotherm

/-!
# Sorption in the convection equation

`compute_sorption` divides the mass in a zone between the water and the solid, by an iteration for
the nonlinear isotherms, and `transport_sorption` calls it for the mobile and the immobile zone.
A computation that divides by zero or takes a power that is not a number has no result.
-/

set_option autoImplicit false

namespace Flow123d

open Flow123d.Library

namespace OldSorption

/-- What the element and the substance enter with. -/
structure SorptionData (K : Type) where
  phi : K
  porM : K
  porImm : K
  sorpType : SorptionType
  sorpCoef0 : K
  sorpCoef1 : K

/-- `conc` of the substance on the element, in all phases. -/
structure PhaseConc (K : Type) where
  mobile : K
  immobile : K
  mobileSorb : K
  immobileSorb : K
  deriving DecidableEq

section Code

variable {K : Type} [Field K] [LinearOrder K] [FloorRing K] (libm : Libm K)

/-- `pow` of doubles: a negative base needs an integer exponent, zero one that is not negative. -/
def checkedPow (base exponent : K) : Option K :=
  if base < 0 ∧ (⌊exponent⌋ : K) ≠ exponent ∨ base = 0 ∧ exponent < 0 then none
  else some (libm.pow base exponent)

def ad : K := 10000

def tolerence : K := 1 / 100000000

/-! ## Newton Raphson iteration cycles -/

/-- Under `cz` the isotherm is replaced by a straight line. -/
def freundlichSorbed (Kx parameter cz tcz NR : K) : Option K :=
  if cz < NR then (checkedPow libm NR parameter).map (Kx * ·) else some (tcz * NR)

def freundlichSlope (Kx parameter cz tcz NR : K) : Option K :=
  if cz < NR then (checkedPow libm NR (parameter - 1)).map (parameter * Kx * ·) else some tcz

def freundlichStep (concAvg Kx parameter cz tcz NR : K) : Option K := do
  let sorbed ← freundlichSorbed libm Kx parameter cz tcz NR
  let slope ← freundlichSlope libm Kx parameter cz tcz NR
  let change ← checkedDiv (NR + sorbed - concAvg) (1 + slope)
  some (NR - change)

def freundlichStops (cz NR pNR : K) : Bool := NR ≤ cz || |NR - pNR| < tolerence * NR

def freundlich (concAvg Kx parameter : K) : Option K := do
  let base ← checkedDiv ad (Kx * parameter)
  let exponent ← checkedDiv 1 (parameter - 1)
  let cz ← checkedPow libm base exponent
  let tcz ← checkedDiv ad parameter
  newtonLoop (freundlichStep libm concAvg Kx parameter cz tcz) (freundlichStops cz) 20 cz 0

def langmuirStep (concAvg sorpCoef0 parameter N NR : K) : Option K := do
  let sorbed ← checkedDiv (N * NR * parameter * sorpCoef0) (1 + NR * sorpCoef0)
  let slope ← checkedDiv (N * sorpCoef0 * parameter) ((1 + NR * sorpCoef0) ^ 2)
  let change ← checkedDiv (NR + sorbed - concAvg) (1 + slope)
  some (NR - change)

def langmuirStops (NR pNR : K) : Bool := |NR - pNR| < tolerence * NR

def langmuir (concAvg sorpCoef0 parameter N : K) : Option K :=
  newtonLoop (langmuirStep concAvg sorpCoef0 parameter N) langmuirStops 5 0 0

/-! ## The zones -/

/-- The value of `concx` after the switch. -/
def switchedConcx (concAvg sorpCoef0 sorpCoef1 concx N : K) : SorptionType → Option K
  | .none | .other => some concx
  | .linear => checkedDiv concAvg (1 + sorpCoef0 * N)
  | .freundlich => freundlich libm concAvg (sorpCoef0 * N) sorpCoef1
  | .langmuir => langmuir concAvg sorpCoef0 sorpCoef1 N

/-- The results are written to `concx` and `concx_sorb`. -/
def computeSorption (concAvg sorpCoef0 sorpCoef1 : K) (sorpType : SorptionType)
    (concx Nv N : K) : Option (K × K) := do
  let written ← switchedConcx libm concAvg sorpCoef0 sorpCoef1 concx N sorpType
  some (written, (concAvg - written) * Nv)

/-- One zone: `volume` is its porosity and `share` the part of the surface that it has. -/
def zoneSorption (data : SorptionData K) (n volume share conc concSorb : K) :
    Option (K × K) := do
  let inPores ← checkedDiv (concSorb * n) volume
  let concAvg := conc + inPores
  if concAvg ≠ 0 then do
    let Nv ← checkedDiv volume n
    let N ← checkedDiv (n * share) volume
    computeSorption libm concAvg data.sorpCoef0 data.sorpCoef1 data.sorpType conc Nv N
  else
    some (conc, concSorb)

def transportSorption (dualPorosity : Bool) (data : SorptionData K) (conc : PhaseConc K) :
    Option (PhaseConc K) := do
  let n := 1 - (data.porM + data.porImm)
  let mobile ← zoneSorption libm data n data.porM data.phi conc.mobile conc.mobileSorb
  let conc := { conc with mobile := mobile.1, mobileSorb := mobile.2 }
  if dualPorosity = true ∧ data.porImm ≠ 0 then do
    let immobile ←
      zoneSorption libm data n data.porImm (1 - data.phi) conc.immobile conc.immobileSorb
    some { conc with immobile := immobile.1, immobileSorb := immobile.2 }
  else
    some conc

end Code

end OldSorption

end Flow123d

/-!
## Iterates of the Langmuir isotherm

The Newton steps for the equilibrium of the Langmuir isotherm start at zero, increase and stay
under the equilibrium, so that the loop may stop after any of them.
-/

namespace Flow123d

open Flow123d.Library

namespace OldSorption

section Steps

variable {K : Type} [Field K] [LinearOrder K] [IsStrictOrderedRing K]
  {concAvg sorpCoef0 parameter N : K}

/-- The mass that is missing in the zone if the concentration is `x`. -/
def langmuirResidual (concAvg sorpCoef0 parameter N x : K) : K :=
  x + N * x * parameter * sorpCoef0 / (1 + x * sorpCoef0) - concAvg

def langmuirSlope (sorpCoef0 parameter N x : K) : K :=
  1 + N * sorpCoef0 * parameter / (1 + x * sorpCoef0) ^ 2

theorem one_add_mul_pos {x : K} (xNonneg : 0 ≤ x) (coefNonneg : 0 ≤ sorpCoef0) :
    0 < 1 + x * sorpCoef0 := by
  have product := mul_nonneg xNonneg coefNonneg
  linarith

theorem langmuirStep_eq {x : K} (denominator : 1 + x * sorpCoef0 ≠ 0)
    (slope : langmuirSlope sorpCoef0 parameter N x ≠ 0) :
    langmuirStep concAvg sorpCoef0 parameter N x =
      some (newtonStep (langmuirResidual concAvg sorpCoef0 parameter N)
        (langmuirSlope sorpCoef0 parameter N) x) := by
  rw [langmuirStep, checkedDiv_eq denominator, checkedDiv_eq (pow_ne_zero 2 denominator)]
  change (checkedDiv _ (langmuirSlope sorpCoef0 parameter N x) >>= _) = _
  rw [checkedDiv_eq slope]
  rfl

theorem langmuirSlope_pos {x : K} (xNonneg : 0 ≤ x) (coefNonneg : 0 ≤ sorpCoef0)
    (product : -1 < N * sorpCoef0 * parameter) : 0 < langmuirSlope sorpCoef0 parameter N x := by
  have base : 1 ≤ 1 + x * sorpCoef0 := le_add_of_nonneg_right (mul_nonneg xNonneg coefNonneg)
  have square : 1 ≤ (1 + x * sorpCoef0) ^ 2 := one_le_pow₀ base
  have quotient : -1 < N * sorpCoef0 * parameter / (1 + x * sorpCoef0) ^ 2 := by
    rw [lt_div_iff₀ (zero_lt_one.trans_le square)]
    linarith
  rw [langmuirSlope]
  linarith

omit [LinearOrder K] [IsStrictOrderedRing K] in
/-- What a tangent is over the residual. -/
theorem langmuirTangent_sub {x y : K} (xDenominator : 1 + x * sorpCoef0 ≠ 0)
    (yDenominator : 1 + y * sorpCoef0 ≠ 0) :
    langmuirResidual concAvg sorpCoef0 parameter N x +
        langmuirSlope sorpCoef0 parameter N x * (y - x) -
        langmuirResidual concAvg sorpCoef0 parameter N y =
      N * sorpCoef0 * parameter * sorpCoef0 * (y - x) ^ 2 /
        ((1 + x * sorpCoef0) ^ 2 * (1 + y * sorpCoef0)) := by
  rw [mul_comm] at yDenominator
  rw [langmuirResidual, langmuirResidual, langmuirSlope, mul_comm y sorpCoef0]
  field_simp
  ring

theorem langmuir_underTangents (coefNonneg : 0 ≤ sorpCoef0)
    (productNonneg : 0 ≤ N * sorpCoef0 * parameter) :
    UnderTangents (langmuirResidual concAvg sorpCoef0 parameter N)
      (langmuirSlope sorpCoef0 parameter N) where
  slopePos := by
    intro x xNonneg
    exact langmuirSlope_pos xNonneg coefNonneg (neg_one_lt_zero.trans_le productNonneg)
  tangent := by
    intro x y xNonneg yNonneg
    have xPos := one_add_mul_pos xNonneg coefNonneg
    have yPos := one_add_mul_pos yNonneg coefNonneg
    apply sub_nonneg.mp
    rw [langmuirTangent_sub xPos.ne' yPos.ne']
    exact div_nonneg (mul_nonneg (mul_nonneg productNonneg coefNonneg) (sq_nonneg _))
      (mul_nonneg (sq_nonneg _) yPos.le)

/-- Without sorption all of the mass stays in the water. -/
theorem langmuirResidual_at_concAvg (avgNonneg : 0 ≤ concAvg) (coefNonneg : 0 ≤ sorpCoef0)
    (productNonneg : 0 ≤ N * sorpCoef0 * parameter) :
    0 ≤ langmuirResidual concAvg sorpCoef0 parameter N concAvg := by
  have sorbed : N * concAvg * parameter * sorpCoef0 =
      N * sorpCoef0 * parameter * concAvg := by ring
  rw [langmuirResidual, add_sub_right_comm, sub_self, zero_add, sorbed]
  exact div_nonneg (mul_nonneg productNonneg avgNonneg)
    (one_add_mul_pos avgNonneg coefNonneg).le

omit [LinearOrder K] [IsStrictOrderedRing K] in
theorem langmuirResidual_zero :
    langmuirResidual concAvg sorpCoef0 parameter N 0 = -concAvg := by
  simp [langmuirResidual]

end Steps

/-- The concentration that solves the equation of the isotherm. -/
structure LangmuirEquilibrium (concAvg sorpCoef0 parameter N equilibrium : ℝ) : Prop where
  nonneg : 0 ≤ equilibrium
  balanced : langmuirResidual concAvg sorpCoef0 parameter N equilibrium = 0

variable {concAvg sorpCoef0 parameter N : ℝ}

theorem exists_langmuirEquilibrium (avgNonneg : 0 ≤ concAvg) (coefNonneg : 0 ≤ sorpCoef0)
    (productNonneg : 0 ≤ N * sorpCoef0 * parameter) :
    ∃ equilibrium, LangmuirEquilibrium concAvg sorpCoef0 parameter N equilibrium ∧
      equilibrium ≤ concAvg := by
  have continuous : ContinuousOn (langmuirResidual concAvg sorpCoef0 parameter N)
      (Set.Icc 0 concAvg) := by
    have quotient : ContinuousOn
        (fun x : ℝ => N * x * parameter * sorpCoef0 / (1 + x * sorpCoef0))
        (Set.Icc 0 concAvg) := by
      apply ContinuousOn.div
      · fun_prop
      · fun_prop
      · exact fun x inside => (one_add_mul_pos inside.1 coefNonneg).ne'
    exact (continuousOn_id.add quotient).sub continuousOn_const
  have sign : (0 : ℝ) ∈ Set.Icc (langmuirResidual concAvg sorpCoef0 parameter N 0)
      (langmuirResidual concAvg sorpCoef0 parameter N concAvg) := by
    constructor
    · rw [langmuirResidual_zero]
      exact neg_nonpos.mpr avgNonneg
    · exact langmuirResidual_at_concAvg avgNonneg coefNonneg productNonneg
  obtain ⟨equilibrium, inside, balanced⟩ :=
    intermediate_value_Icc avgNonneg continuous sign
  exact ⟨equilibrium, ⟨inside.1, balanced⟩, inside.2⟩

/-- The Newton values, in the order of the loop. -/
noncomputable def langmuirIterate (concAvg sorpCoef0 parameter N : ℝ) : ℕ → ℝ :=
  newtonIterate (langmuirResidual concAvg sorpCoef0 parameter N)
    (langmuirSlope sorpCoef0 parameter N)

theorem langmuirStep_iterate (coefNonneg : 0 ≤ sorpCoef0)
    (productNonneg : 0 ≤ N * sorpCoef0 * parameter)
    (nonneg : ∀ j, 0 ≤ langmuirIterate concAvg sorpCoef0 parameter N j) (j : ℕ) :
    langmuirStep concAvg sorpCoef0 parameter N (langmuirIterate concAvg sorpCoef0 parameter N j) =
      some (langmuirIterate concAvg sorpCoef0 parameter N (j + 1)) :=
  langmuirStep_eq (one_add_mul_pos (nonneg j) coefNonneg).ne'
    (langmuirSlope_pos (nonneg j) coefNonneg (neg_one_lt_zero.trans_le productNonneg)).ne'

/-- The iterates increase between zero and the only equilibrium, no step divides by a number that
is not positive, and both concentrations are nonnegative after any number of turns; the loop
returns one of the iterates. -/
theorem langmuir_iterates (libm : Libm ℝ) {concAvg sorpCoef0 sorpCoef1 Nv N : ℝ}
    (avgNonneg : 0 ≤ concAvg) (coef0Nonneg : 0 ≤ sorpCoef0) (coef1Nonneg : 0 ≤ sorpCoef1)
    (NvPos : 0 < Nv) (NPos : 0 < N) (concx : ℝ) :
    ∃ equilibrium, LangmuirEquilibrium concAvg sorpCoef0 sorpCoef1 N equilibrium ∧
      (∀ other, LangmuirEquilibrium concAvg sorpCoef0 sorpCoef1 N other → other = equilibrium) ∧
      ∃ iterates : ℕ → ℝ, iterates 0 = 0 ∧
        (∀ j, langmuirStep concAvg sorpCoef0 sorpCoef1 N (iterates j) =
          some (iterates (j + 1))) ∧
        Monotone iterates ∧
        (∀ j, 0 ≤ iterates j ∧ iterates j ≤ equilibrium) ∧
        (∀ j, 0 < 1 + iterates j * sorpCoef0 ∧
          0 < 1 + N * sorpCoef0 * sorpCoef1 / (1 + iterates j * sorpCoef0) ^ 2) ∧
        (∀ j, 0 ≤ iterates j ∧ 0 ≤ (concAvg - iterates j) * Nv) ∧
        ∃ j ≤ 5, computeSorption libm concAvg sorpCoef0 sorpCoef1 .langmuir concx Nv N =
          some (iterates j, (concAvg - iterates j) * Nv) := by
  have productNonneg : 0 ≤ N * sorpCoef0 * sorpCoef1 :=
    mul_nonneg (mul_nonneg NPos.le coef0Nonneg) coef1Nonneg
  obtain ⟨equilibrium, solves, le⟩ :=
    exists_langmuirEquilibrium avgNonneg coef0Nonneg productNonneg
  have under : UnderTangents (langmuirResidual concAvg sorpCoef0 sorpCoef1 N)
      (langmuirSlope sorpCoef0 sorpCoef1 N) :=
    langmuir_underTangents coef0Nonneg productNonneg
  have bounds := under.newtonIterate_bounds solves.nonneg solves.balanced
  have steps : ∀ j, langmuirStep concAvg sorpCoef0 sorpCoef1 N
      (langmuirIterate concAvg sorpCoef0 sorpCoef1 N j) =
        some (langmuirIterate concAvg sorpCoef0 sorpCoef1 N (j + 1)) :=
    langmuirStep_iterate coef0Nonneg productNonneg fun j => (bounds j).1
  refine ⟨equilibrium, solves, ?_, langmuirIterate concAvg sorpCoef0 sorpCoef1 N, rfl, steps,
    under.newtonIterate_mono solves.nonneg solves.balanced, bounds, ?_, ?_, ?_⟩
  · intro other otherSolves
    exact under.root_unique otherSolves.nonneg solves.nonneg otherSolves.balanced solves.balanced
  · intro j
    exact ⟨one_add_mul_pos (bounds j).1 coef0Nonneg, langmuirSlope_pos (bounds j).1 coef0Nonneg
      (neg_one_lt_zero.trans_le productNonneg)⟩
  · intro j
    have dissolved := (bounds j).2.trans le
    exact ⟨(bounds j).1, mul_nonneg (sub_nonneg.mpr dissolved) NvPos.le⟩
  · obtain ⟨j, bound, ran⟩ : ∃ j ≤ 5, langmuir concAvg sorpCoef0 sorpCoef1 N =
        some (langmuirIterate concAvg sorpCoef0 sorpCoef1 N (0 + j)) :=
      newtonLoop_iterate steps 5 0 0
    rw [Nat.zero_add] at ran
    refine ⟨j, bound, ?_⟩
    change (langmuir concAvg sorpCoef0 sorpCoef1 N >>= _) = _
    rw [ran]
    rfl

theorem langmuir_iterates_unit :
    ∃ result, computeSorption Libm.real 1 1 1 .langmuir 0 1 1 = some result ∧
      0 ≤ result.1 ∧ 0 ≤ result.2 := by
  obtain ⟨_, _, _, iterates, _, _, _, _, _, nonneg, j, _, computed⟩ :=
    langmuir_iterates Libm.real zero_le_one zero_le_one zero_le_one zero_lt_one zero_lt_one 0
  exact ⟨_, computed, nonneg j⟩

end OldSorption

end Flow123d
