import Mathlib.Analysis.SpecialFunctions.Exp
import Mathlib.Data.List.ProdSigma
import Mathlib.Tactic.FieldSimp
import Mathlib.Tactic.Linarith
import Flow123d.Library.Writes

/-!
# Exchange between mobile and immobile pores

The analytic solution of the exchange is written twice: `Dual_por_exchange::compute_one_step` and
`ConvectionTransport::transport_dual_porosity`. Both go over the substances and the local elements.
-/

set_option autoImplicit false

namespace Flow123d

open Flow123d.Library

namespace DualPorosity

/-- The fields on the elements; `alpha` is a vector over the substances. -/
structure ExchangeData (nSubst : ℕ) (E K : Type) where
  porM : E → K
  porImm : E → K
  alpha : E → Fin nSubst → K

/-- The concentrations in the mobile and in the immobile pores. -/
structure PoreMatrices (nSubst lsize : ℕ) (K : Type) where
  mobile : Fin nSubst → Fin lsize → K
  immobile : Fin nSubst → Fin lsize → K

section Code

variable {nSubst lsize : ℕ} {E K : Type} [Field K] [DecidableEq K]

def writeEntry (matrix : Fin nSubst → Fin lsize → K) (sbi : Fin nSubst) (locEl : Fin lsize)
    (value : K) : Fin nSubst → Fin lsize → K :=
  Function.update matrix sbi (Function.update (matrix sbi) locEl value)

/-- The new concentrations, where the condition of the source holds. -/
def exchanged (exp : K → K) (porM porImm alpha timeStep pcm pci : K) : Option (K × K) :=
  let concAvg := (porM * pcm + porImm * pci) / (porM + porImm)
  if concAvg ≠ 0 ∧ porImm ≠ 0 then
    some ((pcm - concAvg) * exp (-alpha * ((porM + porImm) / (porM * porImm)) * timeStep) + concAvg,
      (pci - concAvg) * exp (-alpha * ((porM + porImm) / (porM * porImm)) * timeStep) + concAvg)
  else
    none

variable (exp : K → K) (data : ExchangeData nSubst E K) (el4Loc : Fin lsize → E) (timeStep : K)

/-- One turn in `compute_one_step`: both porosities are values of `porosity_`, and both results
are written to `concentration_matrix`. -/
def computeEntry (conc : PoreMatrices nSubst lsize K) (position : Fin nSubst × Fin lsize) :
    PoreMatrices nSubst lsize K :=
  let (sbi, locEl) := position
  let porM := data.porM (el4Loc locEl)
  let porImm := data.porM (el4Loc locEl)
  match exchanged exp porM porImm (data.alpha (el4Loc locEl) sbi) timeStep
      (conc.mobile sbi locEl) (conc.immobile sbi locEl) with
  | none => conc
  | some (cm, ci) =>
      { conc with mobile := writeEntry (writeEntry conc.mobile sbi locEl cm) sbi locEl ci }

def transportDualPorosity (conc : PoreMatrices nSubst lsize K)
    (position : Fin nSubst × Fin lsize) : PoreMatrices nSubst lsize K :=
  let (sbi, locEl) := position
  match exchanged exp (data.porM (el4Loc locEl)) (data.porImm (el4Loc locEl))
      (data.alpha (el4Loc locEl) sbi) timeStep (conc.mobile sbi locEl)
      (conc.immobile sbi locEl) with
  | none => conc
  | some (cm, ci) =>
      { mobile := writeEntry conc.mobile sbi locEl cm
        immobile := writeEntry conc.immobile sbi locEl ci }

/-- The loops over the substances and, inside, the local elements. -/
def positions (nSubst lsize : ℕ) : List (Fin nSubst × Fin lsize) :=
  List.finRange nSubst ×ˢ List.finRange lsize

def computeOneStep (conc : PoreMatrices nSubst lsize K) : PoreMatrices nSubst lsize K :=
  (positions nSubst lsize).foldl (computeEntry exp data el4Loc timeStep) conc

def transportStep (conc : PoreMatrices nSubst lsize K) : PoreMatrices nSubst lsize K :=
  (positions nSubst lsize).foldl (transportDualPorosity exp data el4Loc timeStep) conc

end Code

/-! ## One element and substance -/

section Entries

variable {nSubst lsize : ℕ} {E K : Type}

/-- The two concentrations at a position. -/
def PoreMatrices.entry (conc : PoreMatrices nSubst lsize K) (position : Fin nSubst × Fin lsize) :
    K × K :=
  (conc.mobile position.1 position.2, conc.immobile position.1 position.2)

theorem writeEntry_self (matrix : Fin nSubst → Fin lsize → K) (sbi : Fin nSubst)
    (locEl : Fin lsize) (value : K) : writeEntry matrix sbi locEl value sbi locEl = value := by
  rw [writeEntry, Function.update_self, Function.update_self]

theorem writeEntry_other (matrix : Fin nSubst → Fin lsize → K) {sbi : Fin nSubst}
    {locEl : Fin lsize} {position : Fin nSubst × Fin lsize} (other : position ≠ (sbi, locEl))
    (value : K) :
    writeEntry matrix sbi locEl value position.1 position.2 =
      matrix position.1 position.2 := by
  by_cases sameRow : position.1 = sbi
  · have otherColumn : position.2 ≠ locEl := by
      intro sameColumn
      exact other (Prod.ext sameRow sameColumn)
    rw [writeEntry, sameRow, Function.update_self, Function.update_of_ne otherColumn]
  · rw [writeEntry, Function.update_of_ne sameRow]

theorem mem_positions (position : Fin nSubst × Fin lsize) :
    position ∈ positions nSubst lsize :=
  List.mem_product.mpr ⟨List.mem_finRange _, List.mem_finRange _⟩

theorem nodup_positions : (positions nSubst lsize).Nodup :=
  (List.nodup_finRange nSubst).product (List.nodup_finRange lsize)

variable [Field K] [DecidableEq K] (exp : K → K) (data : ExchangeData nSubst E K)
  (el4Loc : Fin lsize → E) (timeStep : K)

/-- What a turn of `compute_one_step` makes of the concentrations at its position. -/
def computedPair (position : Fin nSubst × Fin lsize) (pair : K × K) : K × K :=
  match exchanged exp (data.porM (el4Loc position.2)) (data.porM (el4Loc position.2))
      (data.alpha (el4Loc position.2) position.1) timeStep pair.1 pair.2 with
  | none => pair
  | some (_, ci) => (ci, pair.2)

/-- What `transport_dual_porosity` makes of them. -/
def transportedPair (position : Fin nSubst × Fin lsize) (pair : K × K) : K × K :=
  (exchanged exp (data.porM (el4Loc position.2)) (data.porImm (el4Loc position.2))
    (data.alpha (el4Loc position.2) position.1) timeStep pair.1 pair.2).getD pair

theorem computeOneStep_entry (conc : PoreMatrices nSubst lsize K)
    (position : Fin nSubst × Fin lsize) :
    (computeOneStep exp data el4Loc timeStep conc).entry position =
      computedPair exp data el4Loc timeStep position (conc.entry position) := by
  refine (foldl_view nodup_positions PoreMatrices.entry _ ?_ ?_ conc).1 (mem_positions position)
  · intro conc position
    change (computeEntry exp data el4Loc timeStep conc position).entry position =
      computedPair exp data el4Loc timeStep position
        (conc.mobile position.1 position.2, conc.immobile position.1 position.2)
    rw [computeEntry, computedPair]
    cases exchanged exp _ _ _ timeStep (conc.mobile position.1 position.2) _ with
    | none => rfl
    | some pair => exact Prod.ext (writeEntry_self _ _ _ _) rfl
  · intro conc position other differs
    rw [computeEntry]
    cases exchanged exp _ _ _ timeStep (conc.mobile position.1 position.2) _ with
    | none => rfl
    | some pair =>
        apply Prod.ext
        · exact (writeEntry_other _ differs _).trans (writeEntry_other _ differs _)
        · rfl

theorem transportStep_entry (conc : PoreMatrices nSubst lsize K)
    (position : Fin nSubst × Fin lsize) :
    (transportStep exp data el4Loc timeStep conc).entry position =
      transportedPair exp data el4Loc timeStep position (conc.entry position) := by
  refine (foldl_view nodup_positions PoreMatrices.entry _ ?_ ?_ conc).1 (mem_positions position)
  · intro conc position
    change (transportDualPorosity exp data el4Loc timeStep conc position).entry position =
      transportedPair exp data el4Loc timeStep position
        (conc.mobile position.1 position.2, conc.immobile position.1 position.2)
    rw [transportDualPorosity, transportedPair]
    cases exchanged exp _ _ _ timeStep (conc.mobile position.1 position.2) _ with
    | none => rfl
    | some pair => exact Prod.ext (writeEntry_self _ _ _ _) (writeEntry_self _ _ _ _)
  · intro conc position other differs
    rw [transportDualPorosity]
    cases exchanged exp _ _ _ timeStep (conc.mobile position.1 position.2) _ with
    | none => rfl
    | some pair => exact Prod.ext (writeEntry_other _ differs _) (writeEntry_other _ differs _)

end Entries

/-! ## Conservation and bounds -/

/-- The mass is kept and both concentrations stay between the old ones. -/
structure Balanced (porM porImm : ℝ) (before after : ℝ × ℝ) : Prop where
  conserved : porM * after.1 + porImm * after.2 = porM * before.1 + porImm * before.2
  mobileBetween : min before.1 before.2 ≤ after.1 ∧ after.1 ≤ max before.1 before.2
  immobileBetween : min before.1 before.2 ≤ after.2 ∧ after.2 ≤ max before.1 before.2

theorem Balanced.refl (porM porImm : ℝ) (pair : ℝ × ℝ) : Balanced porM porImm pair pair where
  conserved := rfl
  mobileBetween := ⟨min_le_left _ _, le_max_left _ _⟩
  immobileBetween := ⟨min_le_right _ _, le_max_right _ _⟩

variable {porM porImm pcm pci : ℝ}

theorem average_between (porMPos : 0 < porM) (porImmPos : 0 < porImm) :
    min pcm pci ≤ (porM * pcm + porImm * pci) / (porM + porImm) ∧
      (porM * pcm + porImm * pci) / (porM + porImm) ≤ max pcm pci := by
  have total : 0 < porM + porImm := add_pos porMPos porImmPos
  constructor
  · rw [le_div_iff₀ total]
    have mobile := mul_le_mul_of_nonneg_left (min_le_left pcm pci) porMPos.le
    have immobile := mul_le_mul_of_nonneg_left (min_le_right pcm pci) porImmPos.le
    linarith
  · rw [div_le_iff₀ total]
    have mobile := mul_le_mul_of_nonneg_left (le_max_left pcm pci) porMPos.le
    have immobile := mul_le_mul_of_nonneg_left (le_max_right pcm pci) porImmPos.le
    linarith

/-- A value that moves part of the way to another one. -/
theorem relaxed_between {lower upper value target factor : ℝ} (factorNonneg : 0 ≤ factor)
    (factorLe : factor ≤ 1) (value_ : lower ≤ value ∧ value ≤ upper)
    (target_ : lower ≤ target ∧ target ≤ upper) :
    lower ≤ (value - target) * factor + target ∧
      (value - target) * factor + target ≤ upper := by
  have rest : 0 ≤ 1 - factor := sub_nonneg.mpr factorLe
  constructor
  · have first := mul_le_mul_of_nonneg_right value_.1 factorNonneg
    have second := mul_le_mul_of_nonneg_right target_.1 rest
    linarith
  · have first := mul_le_mul_of_nonneg_right value_.2 factorNonneg
    have second := mul_le_mul_of_nonneg_right target_.2 rest
    linarith

theorem decay_le_one {alpha timeStep : ℝ} (porMPos : 0 < porM) (porImmPos : 0 < porImm)
    (alphaNonneg : 0 ≤ alpha) (stepNonneg : 0 ≤ timeStep) :
    Real.exp (-alpha * ((porM + porImm) / (porM * porImm)) * timeStep) ≤ 1 := by
  apply Real.exp_le_one_iff.mpr
  have ratio : 0 ≤ (porM + porImm) / (porM * porImm) :=
    div_nonneg (add_pos porMPos porImmPos).le (mul_pos porMPos porImmPos).le
  rw [neg_mul, neg_mul]
  exact neg_nonpos.mpr (mul_nonneg (mul_nonneg alphaNonneg ratio) stepNonneg)

theorem exchanged_balanced {alpha timeStep : ℝ} (porMPos : 0 < porM) (porImmPos : 0 < porImm)
    (alphaNonneg : 0 ≤ alpha) (stepNonneg : 0 ≤ timeStep) (pair : ℝ × ℝ) :
    Balanced porM porImm pair
      ((exchanged Real.exp porM porImm alpha timeStep pair.1 pair.2).getD pair) := by
  rw [exchanged]
  split
  · have between : min pair.1 pair.2 ≤ _ ∧ _ ≤ max pair.1 pair.2 :=
      average_between porMPos porImmPos
    have positive := Real.exp_pos (-alpha * ((porM + porImm) / (porM * porImm)) * timeStep)
    have small := decay_le_one porMPos porImmPos alphaNonneg stepNonneg
    refine ⟨?_, relaxed_between positive.le small ⟨min_le_left _ _, le_max_left _ _⟩ between,
      relaxed_between positive.le small ⟨min_le_right _ _, le_max_right _ _⟩ between⟩
    have total : porM + porImm ≠ 0 := (add_pos porMPos porImmPos).ne'
    have mean : (porM * pair.1 + porImm * pair.2) / (porM + porImm) * (porM + porImm) =
        porM * pair.1 + porImm * pair.2 := div_mul_cancel₀ _ total
    simp only [Option.getD_some]
    linear_combination
      (1 - Real.exp (-alpha * ((porM + porImm) / (porM * porImm)) * timeStep)) * mean
  · exact Balanced.refl porM porImm pair

/-- Equal concentrations do not change. -/
theorem exchanged_equal (porMPos : 0 < porM) (porImmPos : 0 < porImm)
    (alpha timeStep conc : ℝ) :
    exchanged Real.exp porM porImm alpha timeStep conc conc = none ∨
      exchanged Real.exp porM porImm alpha timeStep conc conc = some (conc, conc) := by
  have mean : (porM * conc + porImm * conc) / (porM + porImm) = conc := by
    rw [← add_mul]
    exact mul_div_cancel_left₀ conc (add_pos porMPos porImmPos).ne'
  rw [exchanged, mean, sub_self, zero_mul, zero_add]
  split
  · exact .inr rfl
  · exact .inl rfl

section Steps

variable {nSubst lsize : ℕ} {E : Type} (data : ExchangeData nSubst E ℝ) (el4Loc : Fin lsize → E)
  (timeStep : ℝ) {conc : PoreMatrices nSubst lsize ℝ}

/-- Both implementations keep the mass and the bounds at every position, and they agree. -/
def ExchangeCorrect (conc : PoreMatrices nSubst lsize ℝ) : Prop :=
  ∀ position : Fin nSubst × Fin lsize,
    Balanced (data.porM (el4Loc position.2)) (data.porImm (el4Loc position.2))
      (conc.entry position)
      ((computeOneStep Real.exp data el4Loc timeStep conc).entry position) ∧
    Balanced (data.porM (el4Loc position.2)) (data.porImm (el4Loc position.2))
      (conc.entry position)
      ((transportStep Real.exp data el4Loc timeStep conc).entry position) ∧
    (computeOneStep Real.exp data el4Loc timeStep conc).entry position =
      (transportStep Real.exp data el4Loc timeStep conc).entry position

variable {data el4Loc timeStep}

theorem transportStep_balanced (porMPos : ∀ elem, 0 < data.porM elem)
    (porImmPos : ∀ elem, 0 < data.porImm elem) (alphaNonneg : ∀ elem sbi, 0 ≤ data.alpha elem sbi)
    (stepNonneg : 0 ≤ timeStep) (position : Fin nSubst × Fin lsize) :
    Balanced (data.porM (el4Loc position.2)) (data.porImm (el4Loc position.2))
      (conc.entry position)
      ((transportStep Real.exp data el4Loc timeStep conc).entry position) := by
  rw [transportStep_entry]
  exact exchanged_balanced (porMPos _) (porImmPos _) (alphaNonneg _ _) stepNonneg _

/-- The mass of what `compute_one_step` leaves, if it is kept. -/
theorem computedPair_conserved {position : Fin nSubst × Fin lsize} {pair : ℝ × ℝ}
    (porMPos : ∀ elem, 0 < data.porM elem) (mobileNonneg : 0 ≤ pair.1)
    (immobileNonneg : 0 ≤ pair.2)
    (conserved : data.porM (el4Loc position.2) *
        (computedPair Real.exp data el4Loc timeStep position pair).1 +
      data.porImm (el4Loc position.2) *
        (computedPair Real.exp data el4Loc timeStep position pair).2 =
      data.porM (el4Loc position.2) * pair.1 + data.porImm (el4Loc position.2) * pair.2) :
    pair.1 = pair.2 := by
  have por := porMPos (el4Loc position.2)
  have mean : (data.porM (el4Loc position.2) * pair.1 + data.porM (el4Loc position.2) * pair.2) /
      (data.porM (el4Loc position.2) + data.porM (el4Loc position.2)) =
        (pair.1 + pair.2) / 2 := by
    field_simp
    ring
  rw [computedPair, exchanged, mean] at conserved
  by_cases empty : (pair.1 + pair.2) / 2 = 0
  · linarith
  · rw [if_pos ⟨empty, por.ne'⟩] at conserved
    -- the immobile result replaces the mobile concentration
    have replaced : (pair.2 - (pair.1 + pair.2) / 2) *
        Real.exp (-data.alpha (el4Loc position.2) position.1 *
          ((data.porM (el4Loc position.2) + data.porM (el4Loc position.2)) /
            (data.porM (el4Loc position.2) * data.porM (el4Loc position.2))) * timeStep) +
        (pair.1 + pair.2) / 2 = pair.1 :=
      mul_left_cancel₀ por.ne' (add_right_cancel conserved)
    have positive := Real.exp_pos (-data.alpha (el4Loc position.2) position.1 *
      ((data.porM (el4Loc position.2) + data.porM (el4Loc position.2)) /
        (data.porM (el4Loc position.2) * data.porM (el4Loc position.2))) * timeStep)
    have product : (pair.2 - pair.1) * (1 +
        Real.exp (-data.alpha (el4Loc position.2) position.1 *
          ((data.porM (el4Loc position.2) + data.porM (el4Loc position.2)) /
            (data.porM (el4Loc position.2) * data.porM (el4Loc position.2))) * timeStep)) =
        0 := by
      linear_combination 2 * replaced
    rcases mul_eq_zero.mp product with same | zero
    · exact (sub_eq_zero.mp same).symm
    · linarith

/-- Both are right exactly when nothing has to be exchanged. -/
theorem exchangeCorrect_iff (porMPos : ∀ elem, 0 < data.porM elem)
    (porImmPos : ∀ elem, 0 < data.porImm elem)
    (mobileNonneg : ∀ sbi locEl, 0 ≤ conc.mobile sbi locEl)
    (immobileNonneg : ∀ sbi locEl, 0 ≤ conc.immobile sbi locEl) :
    ExchangeCorrect data el4Loc timeStep conc ↔
      ∀ sbi locEl, conc.mobile sbi locEl = conc.immobile sbi locEl := by
  constructor
  · intro correct sbi locEl
    have conserved := (correct (sbi, locEl)).1.conserved
    rw [computeOneStep_entry] at conserved
    exact computedPair_conserved porMPos (mobileNonneg sbi locEl) (immobileNonneg sbi locEl)
      conserved
  · intro equal position
    have same : conc.entry position =
        (conc.mobile position.1 position.2, conc.mobile position.1 position.2) :=
      Prod.ext rfl (equal position.1 position.2).symm
    have computed : (computeOneStep Real.exp data el4Loc timeStep conc).entry position =
        conc.entry position := by
      rw [computeOneStep_entry, same, computedPair]
      rcases exchanged_equal (porMPos (el4Loc position.2)) (porMPos (el4Loc position.2))
        (data.alpha (el4Loc position.2) position.1) timeStep
        (conc.mobile position.1 position.2) with none_ | some_
      · rw [none_]
      · rw [some_]
    have transported : (transportStep Real.exp data el4Loc timeStep conc).entry position =
        conc.entry position := by
      rw [transportStep_entry, same, transportedPair]
      rcases exchanged_equal (porMPos (el4Loc position.2)) (porImmPos (el4Loc position.2))
        (data.alpha (el4Loc position.2) position.1) timeStep
        (conc.mobile position.1 position.2) with none_ | some_
      · rw [none_]
        rfl
      · rw [some_]
        rfl
    rw [computed, transported]
    exact ⟨Balanced.refl _ _ _, Balanced.refl _ _ _, rfl⟩

/-- Half of the volume for each of the pores, and a concentration in the mobile ones. -/
noncomputable def halves : ExchangeData 1 Unit ℝ where
  porM := fun _ => 1 / 2
  porImm := fun _ => 1 / 2
  alpha := fun _ _ => 1

theorem exchangeCorrect_iff_halves :
    ExchangeCorrect halves (fun _ : Fin 1 => ()) 1 ⟨fun _ _ => 2, fun _ _ => 2⟩ ↔
      ∀ sbi locEl : Fin 1, (fun _ _ => 2 : Fin 1 → Fin 1 → ℝ) sbi locEl =
        (fun _ _ => 2 : Fin 1 → Fin 1 → ℝ) sbi locEl :=
  exchangeCorrect_iff (fun _ => one_half_pos) (fun _ => one_half_pos) (fun _ _ => zero_le_two)
    fun _ _ => zero_le_two

theorem not_exchangeCorrect :
    ¬ ExchangeCorrect halves (fun _ : Fin 1 => ()) 1 ⟨fun _ _ => 1, fun _ _ => 0⟩ := by
  intro correct
  have conserved := (correct (0, 0)).1.conserved
  rw [computeOneStep_entry] at conserved
  have same : (1 : ℝ) = 0 := @computedPair_conserved 1 1 Unit halves (fun _ => ()) 1 (0, 0) (1, 0)
    (fun _ => one_half_pos) zero_le_one le_rfl conserved
  exact one_ne_zero same

end Steps

end DualPorosity

end Flow123d
