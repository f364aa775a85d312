import Mathlib.Tactic.NormNum
import Flow123d.Transport.OldSorption

/-!
# Conservation by the sorption in the convection equation

When `transport_sorption` runs without a division by zero, and that it then keeps the mass of
each zone.
-/

set_option autoImplicit false

namespace Flow123d

open Flow123d.Library

namespace OldSorption

/-! ## Isotherms -/

/-- The parameters with which the isotherm is computed, where their signs are the usual ones. -/
def IsothermSafe (concAvg sorpCoef0 sorpCoef1 N : ℝ) : SorptionType → Prop
  | .none | .other => True
  | .linear => 1 + sorpCoef0 * N ≠ 0
  | .freundlich => 0 < sorpCoef0 * N * sorpCoef1 ∧ sorpCoef1 ≠ 1 ∧ sorpCoef1 ≠ -ad
  | .langmuir => 0 ≤ concAvg ∧ 0 ≤ sorpCoef0 ∧ -1 < N * sorpCoef0 * sorpCoef1

/-- The signs for which the Newton values need not stay on one side of zero. -/
def OtherSigns (concAvg sorpCoef0 sorpCoef1 N : ℝ) : SorptionType → Prop
  | .freundlich => sorpCoef0 * N * sorpCoef1 < 0 ∧
      (⌊1 / (sorpCoef1 - 1)⌋ : ℝ) = 1 / (sorpCoef1 - 1)
  | .langmuir => concAvg < 0 ∨ sorpCoef0 < 0 ∨ N * sorpCoef0 * sorpCoef1 < -1
  | _ => False

variable {concAvg sorpCoef0 sorpCoef1 concx Nv N : ℝ} {sorpType : SorptionType}

theorem ad_pos : (0 : ℝ) < ad := by norm_num [ad]

theorem checkedPow_pos {base : ℝ} (positive : 0 < base) (exponent : ℝ) :
    ∃ power, checkedPow Libm.real base exponent = some power ∧ 0 < power := by
  refine ⟨base ^ exponent, if_neg ?_, Real.rpow_pos_of_pos positive exponent⟩
  rintro (⟨negative, _⟩ | ⟨zero, _⟩)
  · exact absurd negative positive.not_gt
  · exact positive.ne' zero

theorem freundlichStep_isSome {Kx parameter cz tcz : ℝ} (product : 0 < Kx * parameter)
    (czPos : 0 < cz) (slope : 1 + tcz ≠ 0) (NR : ℝ) :
    ∃ after, freundlichStep Libm.real concAvg Kx parameter cz tcz NR = some after := by
  by_cases large : cz < NR
  · obtain ⟨power, computed, _⟩ := checkedPow_pos (czPos.trans large) parameter
    obtain ⟨derivative, computedToo, positive⟩ :=
      checkedPow_pos (czPos.trans large) (parameter - 1)
    have slopePos : 0 < 1 + parameter * Kx * derivative := by
      have term := mul_pos product positive
      rw [mul_comm Kx parameter] at term
      linarith
    rw [freundlichStep, freundlichSorbed, freundlichSlope, if_pos large, if_pos large, computed,
      computedToo]
    change ∃ after, (checkedDiv _ (1 + parameter * Kx * derivative) >>= _) = some after
    rw [checkedDiv_eq slopePos.ne']
    exact ⟨_, rfl⟩
  · rw [freundlichStep, freundlichSorbed, freundlichSlope, if_neg large, if_neg large]
    change ∃ after, (checkedDiv _ (1 + tcz) >>= _) = some after
    rw [checkedDiv_eq slope]
    exact ⟨_, rfl⟩

theorem one_add_tcz_ne {parameter : ℝ} (nonzero : parameter ≠ 0) (other : parameter ≠ -ad) :
    1 + ad / parameter ≠ 0 := by
  intro vanishes
  have total : parameter + ad = 0 := by
    field_simp at vanishes
    rw [mul_zero] at vanishes
    exact vanishes
  exact other (by linarith)

theorem freundlich_isSome {Kx parameter : ℝ} (product : 0 < Kx * parameter)
    (notOne : parameter ≠ 1) (notAd : parameter ≠ -ad) :
    ∃ written, freundlich Libm.real concAvg Kx parameter = some written := by
  have nonzero : parameter ≠ 0 := right_ne_zero_of_mul product.ne'
  obtain ⟨cz, computed, czPos⟩ :=
    checkedPow_pos (div_pos ad_pos product) (1 / (parameter - 1))
  rw [freundlich, checkedDiv_eq product.ne', checkedDiv_eq (sub_ne_zero.mpr notOne)]
  change ∃ written, (checkedPow Libm.real (ad / (Kx * parameter)) (1 / (parameter - 1)) >>= _) =
    some written
  rw [computed, checkedDiv_eq nonzero]
  apply Option.isSome_iff_exists.mp
  refine @newtonLoop_isSome _ _ _ (fun _ => True) 20 cz 0 trivial fun value _ => ?_
  obtain ⟨after, stepped⟩ :=
    freundlichStep_isSome product czPos (one_add_tcz_ne nonzero notAd) value
  exact ⟨after, stepped, fun _ _ => trivial⟩

/-- Without the first step there is no result. -/
theorem newtonLoop_eq_none {step : ℝ → Option ℝ} {stops : ℝ → ℝ → Bool} {turns : ℕ}
    {start previous : ℝ} (undefined : step start = none) :
    newtonLoop step stops (turns + 1) start previous = none := by
  rw [newtonLoop, undefined]
  rfl

theorem freundlich_settled {Kx parameter written : ℝ}
    (computed : freundlich Libm.real concAvg Kx parameter = some written) :
    (0 < Kx * parameter ∧ parameter ≠ 1 ∧ parameter ≠ -ad) ∨
      (Kx * parameter < 0 ∧ (⌊1 / (parameter - 1)⌋ : ℝ) = 1 / (parameter - 1)) := by
  rw [freundlich] at computed
  obtain ⟨base, baseEq, afterBase⟩ := Option.bind_eq_some_iff.mp computed
  obtain ⟨exponent, exponentEq, afterExponent⟩ := Option.bind_eq_some_iff.mp afterBase
  obtain ⟨cz, czEq, afterCz⟩ := Option.bind_eq_some_iff.mp afterExponent
  obtain ⟨tcz, tczEq, iterated⟩ := Option.bind_eq_some_iff.mp afterCz
  have product : Kx * parameter ≠ 0 := by
    intro zero
    rw [zero, checkedDiv_zero] at baseEq
    cases baseEq
  have notOne : parameter - 1 ≠ 0 := by
    intro zero
    rw [zero, checkedDiv_zero] at exponentEq
    cases exponentEq
  rw [checkedDiv_eq product] at baseEq
  rw [checkedDiv_eq notOne] at exponentEq
  cases baseEq
  cases exponentEq
  rcases product.lt_or_gt with negative | positive
  · right
    refine ⟨negative, ?_⟩
    by_contra fractional
    rw [checkedPow, if_pos (Or.inl ⟨div_neg_of_pos_of_neg ad_pos negative, fractional⟩)] at czEq
    cases czEq
  · left
    refine ⟨positive, sub_ne_zero.mp notOne, ?_⟩
    intro isAd
    have undefined :
        freundlichStep Libm.real concAvg Kx parameter cz tcz cz = none := by
      rw [isAd, checkedDiv_eq (neg_ne_zero.mpr ad_pos.ne')] at tczEq
      cases tczEq
      rw [freundlichStep, freundlichSorbed, freundlichSlope, if_neg (lt_irrefl cz),
        if_neg (lt_irrefl cz)]
      change (checkedDiv _ (1 + ad / -ad) >>= _) = none
      rw [div_neg, div_self ad_pos.ne', add_neg_cancel, checkedDiv_zero]
      rfl
    rw [newtonLoop_eq_none undefined] at iterated
    cases iterated

/-- A negative product with the limit bends the curve the other way, and the Newton values are
quotients of nonnegative numbers. -/
theorem newtonStep_langmuir_nonneg {x : ℝ} (xNonneg : 0 ≤ x) (avgNonneg : 0 ≤ concAvg)
    (coefNonneg : 0 ≤ sorpCoef0) (above : -1 < N * sorpCoef0 * sorpCoef1)
    (negative : N * sorpCoef0 * sorpCoef1 < 0) :
    0 ≤ newtonStep (langmuirResidual concAvg sorpCoef0 sorpCoef1 N)
      (langmuirSlope sorpCoef0 sorpCoef1 N) x := by
  have base := one_add_mul_pos xNonneg coefNonneg
  have slopePos := langmuirSlope_pos xNonneg coefNonneg above
  have closed : newtonStep (langmuirResidual concAvg sorpCoef0 sorpCoef1 N)
      (langmuirSlope sorpCoef0 sorpCoef1 N) x * langmuirSlope sorpCoef0 sorpCoef1 N x =
      concAvg + -(N * sorpCoef0 * sorpCoef1) * (sorpCoef0 * x ^ 2) / (1 + x * sorpCoef0) ^ 2 := by
    rw [newtonStep, sub_mul, div_mul_cancel₀ _ slopePos.ne', langmuirResidual, langmuirSlope]
    have nonzero := base.ne'
    field_simp
    ring
  have product : 0 ≤ newtonStep (langmuirResidual concAvg sorpCoef0 sorpCoef1 N)
      (langmuirSlope sorpCoef0 sorpCoef1 N) x * langmuirSlope sorpCoef0 sorpCoef1 N x := by
    rw [closed]
    apply add_nonneg avgNonneg
    exact div_nonneg (mul_nonneg (neg_nonneg.mpr negative.le)
      (mul_nonneg coefNonneg (sq_nonneg x))) (sq_nonneg _)
  exact nonneg_of_mul_nonneg_left product slopePos

theorem langmuir_isSome (avgNonneg : 0 ≤ concAvg) (coefNonneg : 0 ≤ sorpCoef0)
    (above : -1 < N * sorpCoef0 * sorpCoef1) :
    ∃ written, langmuir concAvg sorpCoef0 sorpCoef1 N = some written := by
  rcases lt_or_ge (N * sorpCoef0 * sorpCoef1) 0 with negative | productNonneg
  · apply Option.isSome_iff_exists.mp
    refine @newtonLoop_isSome _ _ _ (0 ≤ ·) 5 0 0 le_rfl fun x xNonneg => ?_
    exact ⟨_, langmuirStep_eq (one_add_mul_pos xNonneg coefNonneg).ne'
      (langmuirSlope_pos xNonneg coefNonneg above).ne', fun _ _ =>
        newtonStep_langmuir_nonneg xNonneg avgNonneg coefNonneg above negative⟩
  · obtain ⟨equilibrium, solves, _⟩ :=
      exists_langmuirEquilibrium avgNonneg coefNonneg productNonneg
    have bounds := (langmuir_underTangents coefNonneg productNonneg).newtonIterate_bounds
      solves.nonneg solves.balanced
    obtain ⟨j, _, ran⟩ : ∃ j ≤ 5, langmuir concAvg sorpCoef0 sorpCoef1 N =
        some (langmuirIterate concAvg sorpCoef0 sorpCoef1 N (0 + j)) :=
      newtonLoop_iterate
        (langmuirStep_iterate coefNonneg productNonneg fun j => (bounds j).1) 5 0 0
    exact ⟨_, ran⟩

theorem langmuir_settled {written : ℝ}
    (computed : langmuir concAvg sorpCoef0 sorpCoef1 N = some written) :
    (0 ≤ concAvg ∧ 0 ≤ sorpCoef0 ∧ -1 < N * sorpCoef0 * sorpCoef1) ∨
      (concAvg < 0 ∨ sorpCoef0 < 0 ∨ N * sorpCoef0 * sorpCoef1 < -1) := by
  rcases lt_trichotomy (N * sorpCoef0 * sorpCoef1) (-1) with below | atOne | above
  · exact .inr (.inr (.inr below))
  · have undefined : langmuirStep concAvg sorpCoef0 sorpCoef1 N 0 = none := by
      rw [langmuirStep, zero_mul, add_zero, one_pow, checkedDiv_eq one_ne_zero,
        checkedDiv_eq one_ne_zero, atOne]
      have vanishes : 1 + (-1 : ℝ) / 1 = 0 := by norm_num
      change (checkedDiv _ (1 + -1 / 1) >>= _) = none
      rw [vanishes, checkedDiv_zero]
      rfl
    rw [langmuir, newtonLoop_eq_none undefined] at computed
    cases computed
  · by_cases avgNonneg : 0 ≤ concAvg
    · by_cases coefNonneg : 0 ≤ sorpCoef0
      · exact .inl ⟨avgNonneg, coefNonneg, above⟩
      · exact .inr (.inr (.inl (not_le.mp coefNonneg)))
    · exact .inr (.inl (not_le.mp avgNonneg))

/-! ## Zones -/

theorem switchedConcx_isSome
    (safe : IsothermSafe concAvg sorpCoef0 sorpCoef1 N sorpType) (concx : ℝ) :
    ∃ written, switchedConcx Libm.real concAvg sorpCoef0 sorpCoef1 concx N sorpType =
      some written := by
  cases sorpType with
  | none => exact ⟨concx, rfl⟩
  | other => exact ⟨concx, rfl⟩
  | linear => exact ⟨concAvg / (1 + sorpCoef0 * N), checkedDiv_eq safe⟩
  | freundlich => exact freundlich_isSome safe.1 safe.2.1 safe.2.2
  | langmuir => exact langmuir_isSome safe.1 safe.2.1 safe.2.2

theorem switchedConcx_settled {written : ℝ}
    (computed : switchedConcx Libm.real concAvg sorpCoef0 sorpCoef1 concx N sorpType =
      some written) :
    IsothermSafe concAvg sorpCoef0 sorpCoef1 N sorpType ∨
      OtherSigns concAvg sorpCoef0 sorpCoef1 N sorpType := by
  cases sorpType with
  | none => exact .inl trivial
  | other => exact .inl trivial
  | linear =>
      left
      intro zero
      rw [switchedConcx, zero, checkedDiv_zero] at computed
      cases computed
  | freundlich => exact freundlich_settled computed
  | langmuir => exact langmuir_settled computed

variable {data : SorptionData ℝ} {n volume share conc concSorb : ℝ}

/-- The dissolved and the sorbed mass of a zone, for the volume of its pores. -/
noncomputable def zoneMass (n volume conc concSorb : ℝ) : ℝ := conc + concSorb * n / volume

/-- A zone with mass in it needs solid, and parameters of its isotherm that can be computed. -/
def ZoneSafe (data : SorptionData ℝ) (n volume share conc concSorb : ℝ) : Prop :=
  volume ≠ 0 ∧ (zoneMass n volume conc concSorb ≠ 0 → n ≠ 0 ∧
    IsothermSafe (zoneMass n volume conc concSorb) data.sorpCoef0 data.sorpCoef1
      (n * share / volume) data.sorpType)

/-- A zone with mass whose nonlinear isotherm has other signs. -/
def ZoneOther (data : SorptionData ℝ) (n volume share conc concSorb : ℝ) : Prop :=
  zoneMass n volume conc concSorb ≠ 0 ∧
    OtherSigns (zoneMass n volume conc concSorb) data.sorpCoef0 data.sorpCoef1
      (n * share / volume) data.sorpType

theorem zoneSorption_eq (volumeNonzero : volume ≠ 0)
    (someMass : zoneMass n volume conc concSorb ≠ 0) :
    zoneSorption Libm.real data n volume share conc concSorb =
      (checkedDiv volume n >>= fun Nv =>
        computeSorption Libm.real (zoneMass n volume conc concSorb) data.sorpCoef0 data.sorpCoef1
          data.sorpType conc Nv (n * share / volume)) := by
  rw [zoneSorption, checkedDiv_eq volumeNonzero, checkedDiv_eq volumeNonzero]
  exact if_pos someMass

theorem zoneSorption_empty (volumeNonzero : volume ≠ 0)
    (noMass : zoneMass n volume conc concSorb = 0) :
    zoneSorption Libm.real data n volume share conc concSorb = some (conc, concSorb) := by
  rw [zoneSorption, checkedDiv_eq volumeNonzero]
  exact if_neg (not_not.mpr noMass)

theorem zoneSorption_of_safe (safe : ZoneSafe data n volume share conc concSorb) :
    ∃ after, zoneSorption Libm.real data n volume share conc concSorb = some after ∧
      zoneMass n volume after.1 after.2 = zoneMass n volume conc concSorb := by
  by_cases noMass : zoneMass n volume conc concSorb = 0
  · exact ⟨_, zoneSorption_empty safe.1 noMass, rfl⟩
  · obtain ⟨solid, isothermSafe⟩ := safe.2 noMass
    obtain ⟨written, computed⟩ := switchedConcx_isSome isothermSafe conc
    rw [zoneSorption_eq safe.1 noMass, checkedDiv_eq solid]
    refine ⟨(written, (zoneMass n volume conc concSorb - written) * (volume / n)), ?_, ?_⟩
    · change (switchedConcx Libm.real _ _ _ _ _ _ >>= _) = _
      rw [computed]
      rfl
    · have cancels : (zoneMass n volume conc concSorb - written) * (volume / n) * n / volume =
          zoneMass n volume conc concSorb - written := by
        have volumeNonzero := safe.1
        field_simp
      rw [zoneMass, cancels, add_sub_cancel]

theorem zoneSorption_settled {after : ℝ × ℝ}
    (computed : zoneSorption Libm.real data n volume share conc concSorb = some after) :
    ZoneSafe data n volume share conc concSorb ∨ ZoneOther data n volume share conc concSorb := by
  by_cases volumeNonzero : volume = 0
  · rw [zoneSorption, volumeNonzero, checkedDiv_zero] at computed
    cases computed
  · by_cases noMass : zoneMass n volume conc concSorb = 0
    · exact .inl ⟨volumeNonzero, fun someMass => absurd noMass someMass⟩
    · rw [zoneSorption_eq volumeNonzero noMass] at computed
      obtain ⟨Nv, quotient, sorption⟩ := Option.bind_eq_some_iff.mp computed
      obtain ⟨written, isotherm, _⟩ := Option.bind_eq_some_iff.mp sorption
      have solid : n ≠ 0 := by
        intro zero
        rw [zero, checkedDiv_zero] at quotient
        cases quotient
      rcases switchedConcx_settled isotherm with safe | other
      · exact .inl ⟨volumeNonzero, fun _ => ⟨solid, safe⟩⟩
      · exact .inr ⟨noMass, other⟩

/-! ## The element -/

variable {dualPorosity : Bool} {phases : PhaseConc ℝ}

/-- The solid part of the volume. -/
def SorptionData.solid (data : SorptionData ℝ) : ℝ := 1 - (data.porM + data.porImm)

/-- No division by zero, and the mass of the mobile zone stays; that of the immobile zone too if
dual porosity is on. -/
def Conserves (dualPorosity : Bool) (data : SorptionData ℝ) (phases : PhaseConc ℝ) : Prop :=
  ∃ after, transportSorption Libm.real dualPorosity data phases = some after ∧
    zoneMass data.solid data.porM after.mobile after.mobileSorb =
      zoneMass data.solid data.porM phases.mobile phases.mobileSorb ∧
    (dualPorosity = true → zoneMass data.solid data.porImm after.immobile after.immobileSorb =
      zoneMass data.solid data.porImm phases.immobile phases.immobileSorb)

/-- All zones that are treated are safe. -/
def SorptionSafe (dualPorosity : Bool) (data : SorptionData ℝ) (phases : PhaseConc ℝ) : Prop :=
  ZoneSafe data data.solid data.porM data.phi phases.mobile phases.mobileSorb ∧
    (dualPorosity = true ∧ data.porImm ≠ 0 →
      ZoneSafe data data.solid data.porImm (1 - data.phi) phases.immobile phases.immobileSorb)

theorem transportSorption_of_safe (safe : SorptionSafe dualPorosity data phases) :
    Conserves dualPorosity data phases := by
  obtain ⟨mobile, mobileRan, mobileKept⟩ := zoneSorption_of_safe safe.1
  by_cases treated : dualPorosity = true ∧ data.porImm ≠ 0
  · obtain ⟨immobile, immobileRan, immobileKept⟩ := zoneSorption_of_safe (safe.2 treated)
    refine ⟨⟨mobile.1, immobile.1, mobile.2, immobile.2⟩, ?_, mobileKept, fun _ => immobileKept⟩
    change (zoneSorption Libm.real data data.solid _ _ _ _ >>= _) = _
    rw [mobileRan]
    change (if dualPorosity = true ∧ data.porImm ≠ 0 then
      zoneSorption Libm.real data data.solid _ _ _ _ >>= _ else _) = _
    rw [if_pos treated, immobileRan]
    rfl
  · refine ⟨⟨mobile.1, phases.immobile, mobile.2, phases.immobileSorb⟩, ?_, mobileKept,
      fun _ => rfl⟩
    change (zoneSorption Libm.real data data.solid _ _ _ _ >>= _) = _
    rw [mobileRan]
    exact if_neg treated

/-- The zones for which other signs leave the Newton values open. -/
def SomeZoneOther (dualPorosity : Bool) (data : SorptionData ℝ) (phases : PhaseConc ℝ) : Prop :=
  ZoneOther data data.solid data.porM data.phi phases.mobile phases.mobileSorb ∨
    (dualPorosity = true ∧ data.porImm ≠ 0 ∧
      ZoneOther data data.solid data.porImm (1 - data.phi) phases.immobile phases.immobileSorb)

theorem transportSorption_settled (conserves : Conserves dualPorosity data phases) :
    SorptionSafe dualPorosity data phases ∨ SomeZoneOther dualPorosity data phases := by
  obtain ⟨after, ran, _, _⟩ := conserves
  obtain ⟨mobile, mobileRan, rest⟩ := Option.bind_eq_some_iff.mp ran
  rcases zoneSorption_settled mobileRan with mobileSafe | mobileOther
  · by_cases treated : dualPorosity = true ∧ data.porImm ≠ 0
    · rw [if_pos treated] at rest
      obtain ⟨immobile, immobileRan, _⟩ := Option.bind_eq_some_iff.mp rest
      rcases zoneSorption_settled immobileRan with immobileSafe | immobileOther
      · exact .inl ⟨mobileSafe, fun _ => immobileSafe⟩
      · exact .inr (.inr ⟨treated.1, treated.2, immobileOther⟩)
    · exact .inl ⟨mobileSafe, fun other => absurd other treated⟩
  · exact .inr (.inl mobileOther)

/-- The step keeps the mass if each zone that is treated is safe, and only then unless a nonlinear
isotherm has other signs. -/
theorem conserves_iff_safe (dualPorosity : Bool) (data : SorptionData ℝ)
    (phases : PhaseConc ℝ) :
    (SorptionSafe dualPorosity data phases → Conserves dualPorosity data phases) ∧
      (Conserves dualPorosity data phases →
        SorptionSafe dualPorosity data phases ∨ SomeZoneOther dualPorosity data phases) :=
  ⟨transportSorption_of_safe, transportSorption_settled⟩

/-- The default porosity of the mobile zone. -/
def porosityOne : SorptionData ℝ where
  phi := 1
  porM := 1
  porImm := 0
  sorpType := .none
  sorpCoef0 := 0
  sorpCoef1 := 0

theorem not_always_conserves :
    ¬ ∀ (dualPorosity : Bool) (data : SorptionData ℝ) (phases : PhaseConc ℝ),
      0 ≤ phases.mobile → 0 ≤ phases.immobile → 0 ≤ phases.mobileSorb →
        0 ≤ phases.immobileSorb → Conserves dualPorosity data phases := by
  intro always
  obtain ⟨after, ran, _⟩ :=
    always false porosityOne ⟨1, 0, 0, 0⟩ zero_le_one le_rfl le_rfl le_rfl
  obtain ⟨mobile, mobileRan, _⟩ := Option.bind_eq_some_iff.mp ran
  rcases zoneSorption_settled mobileRan with safe | other
  · have someMass : zoneMass (1 - (1 + 0)) 1 1 0 ≠ 0 := by norm_num [zoneMass]
    exact (safe.2 someMass).1 (by norm_num [porosityOne])
  · exact other.2

end OldSorption

end Flow123d
