import Mathlib.Tactic.LinearCombination
import Flow123d.Reaction.SorptionRun
import Flow123d.Reaction.ZoneSorption

/-!
# What the sorption does to the zones

Each of the two objects ought to move mass between the dissolved and the sorbed concentrations of
its own zone. The isotherms of both have the scales of the mobile zone, and both write to the
mobile concentrations.
-/

set_option autoImplicit false

namespace Flow123d

open Flow123d.Library

variable {n nrOfRegions nSubst lsize : ℕ} {K : Type} [Field K]

namespace Isotherm

/-- The scales of the isotherm are in the ratio of two others. -/
def InRatio (isotherm : Isotherm K) (scaleAqua scaleSorbed : K) : Prop :=
  isotherm.scaleAqua * scaleSorbed = isotherm.scaleSorbed * scaleAqua

theorem Reacted.mass_eq_iff {isotherm : Isotherm K} {conc after : ConcPair K} {settled : Prop}
    (reacted : Reacted isotherm conc after settled) (scaled : isotherm.Scaled)
    (scaleAqua scaleSorbed : K) :
    scaleAqua * after.1 + scaleSorbed * after.2 = scaleAqua * conc.1 + scaleSorbed * conc.2 ↔
      isotherm.InRatio scaleAqua scaleSorbed ∨ settled := by
  have mass := reacted.mass
  unfold totalMass at mass
  have product : isotherm.scaleSorbed * (scaleAqua * after.1 + scaleSorbed * after.2 -
      (scaleAqua * conc.1 + scaleSorbed * conc.2)) =
      (isotherm.scaleSorbed * scaleAqua - isotherm.scaleAqua * scaleSorbed) *
        (after.1 - conc.1) := by
    linear_combination scaleSorbed * mass
  rw [← reacted.settled, ← sub_eq_zero, ← mul_eq_zero_iff_left scaled.sorbed, product, mul_eq_zero,
    sub_eq_zero, sub_eq_zero]
  unfold InRatio
  rw [eq_comm (a := isotherm.scaleSorbed * scaleAqua)]

end Isotherm

/-! ## The mass at one element -/

namespace Sorption

open Isotherm

/-- The mass of a substance at an element; several species can be the same substance. -/
def elementMass (substanceIds : Fin (n + 1) → Fin nSubst) (scaleAqua : K)
    (scaleSorbed : Fin (n + 1) → K) (conc : ElementConcentrations n nSubst K)
    (substance : Fin nSubst) : K :=
  scaleAqua * conc.dissolved substance +
    ∑ iSubst with substanceIds iSubst = substance, scaleSorbed iSubst * conc.sorbed iSubst

section Element

variable [LinearOrder K] [FloorRing K] {libm : Libm K} {rootFinder : RootFinder K}
  {substanceIds : Fin (n + 1) → Fin nSubst} {isotherms : Fin (n + 1) → Isotherm K}
  {conc after : ElementConcentrations n nSubst K} {iSubst : Fin (n + 1)}
  {scaleAqua : K} {scaleSorbed : Fin (n + 1) → K}

/-- Nothing but the pair of the species has changed. -/
structure OnlyPair (substanceIds : Fin (n + 1) → Fin nSubst) (iSubst : Fin (n + 1))
    (conc after : ElementConcentrations n nSubst K) : Prop where
  dissolved : ∀ substance, substance ≠ substanceIds iSubst →
    after.dissolved substance = conc.dissolved substance
  sorbed : ∀ other, other ≠ iSubst → after.sorbed other = conc.sorbed other

theorem react_reacted [IsStrictOrderedRing K] (scaled : (isotherms iSubst).Scaled)
    (ran : conc.react libm rootFinder substanceIds isotherms iSubst = .ok after) :
    Reacted (isotherms iSubst) (conc.pair substanceIds iSubst) (after.pair substanceIds iSubst)
        ((isotherms iSubst).Settled libm rootFinder (conc.pair substanceIds iSubst)) ∧
      OnlyPair substanceIds iSubst conc after := by
  unfold ElementConcentrations.react at ran
  cases reacted : (isotherms iSubst).computeReaction libm rootFinder
      (conc.pair substanceIds iSubst) with
  | error error =>
      rw [reacted] at ran
      cases ran
  | ok pair =>
      rw [reacted] at ran
      cases ran
      constructor
      · have moved := computeReaction_reacted scaled reacted
        simpa [ElementConcentrations.pair] using moved
      · constructor
        · intro substance different
          exact Function.update_of_ne different _ _
        · intro other different
          exact Function.update_of_ne different _ _

omit [LinearOrder K] [FloorRing K] in
theorem elementMass_eq_iff (only : OnlyPair substanceIds iSubst conc after) :
    elementMass substanceIds scaleAqua scaleSorbed after (substanceIds iSubst) =
        elementMass substanceIds scaleAqua scaleSorbed conc (substanceIds iSubst) ↔
      scaleAqua * (after.pair substanceIds iSubst).1 +
          scaleSorbed iSubst * (after.pair substanceIds iSubst).2 =
        scaleAqua * (conc.pair substanceIds iSubst).1 +
          scaleSorbed iSubst * (conc.pair substanceIds iSubst).2 := by
  have member : iSubst ∈ Finset.univ.filter fun other =>
      substanceIds other = substanceIds iSubst := by
    simp
  have others : ∑ other ∈ (Finset.univ.filter fun other =>
        substanceIds other = substanceIds iSubst).erase iSubst,
          scaleSorbed other * after.sorbed other =
      ∑ other ∈ (Finset.univ.filter fun other =>
        substanceIds other = substanceIds iSubst).erase iSubst,
          scaleSorbed other * conc.sorbed other := by
    apply Finset.sum_congr rfl
    intro other inside
    rw [only.sorbed other (Finset.ne_of_mem_erase inside)]
  unfold elementMass ElementConcentrations.pair
  rw [← Finset.add_sum_erase _ _ member, ← Finset.add_sum_erase _ _ member, others, ← add_assoc,
    ← add_assoc, add_left_inj]

omit [LinearOrder K] [FloorRing K] in
theorem elementMass_congr {substance : Fin nSubst}
    (dissolved : after.dissolved substance = conc.dissolved substance)
    (sorbed : ∀ iSubst, substanceIds iSubst = substance →
      after.sorbed iSubst = conc.sorbed iSubst) :
    elementMass substanceIds scaleAqua scaleSorbed after substance =
      elementMass substanceIds scaleAqua scaleSorbed conc substance := by
  unfold elementMass
  rw [dissolved]
  congr 1
  apply Finset.sum_congr rfl
  intro iSubst inside
  rw [sorbed iSubst (Finset.mem_filter.mp inside).2]

omit [LinearOrder K] [FloorRing K] in
theorem elementMass_other (only : OnlyPair substanceIds iSubst conc after)
    {substance : Fin nSubst} (different : substance ≠ substanceIds iSubst) :
    elementMass substanceIds scaleAqua scaleSorbed after substance =
      elementMass substanceIds scaleAqua scaleSorbed conc substance := by
  apply elementMass_congr (only.dissolved substance different)
  intro other same
  exact only.sorbed other fun here => different (here ▸ same).symm

omit [LinearOrder K] [FloorRing K] in
theorem elementMass_injective (injective : Function.Injective substanceIds) :
    elementMass substanceIds scaleAqua scaleSorbed conc (substanceIds iSubst) =
      scaleAqua * (conc.pair substanceIds iSubst).1 +
        scaleSorbed iSubst * (conc.pair substanceIds iSubst).2 := by
  have single : (Finset.univ.filter fun other => substanceIds other = substanceIds iSubst) =
      {iSubst} := by
    ext other
    simp [injective.eq_iff]
  unfold elementMass
  rw [single, Finset.sum_singleton]
  rfl

variable [IsStrictOrderedRing K]

theorem foldlM_react_mass {substance : Fin nSubst} (scaled : ∀ iSubst, (isotherms iSubst).Scaled)
    (ratio : ∀ iSubst, substanceIds iSubst = substance →
      (isotherms iSubst).InRatio scaleAqua (scaleSorbed iSubst))
    (ran : (List.finRange (n + 1)).foldlM
      (ElementConcentrations.react libm rootFinder substanceIds isotherms) conc = .ok after) :
    elementMass substanceIds scaleAqua scaleSorbed after substance =
      elementMass substanceIds scaleAqua scaleSorbed conc substance := by
  apply foldlM_preserves ran (fun _ current =>
    elementMass substanceIds scaleAqua scaleSorbed current substance =
      elementMass substanceIds scaleAqua scaleSorbed conc substance) rfl
  intro seen iSubst remaining before next split valid stepped
  obtain ⟨reacted, only⟩ := react_reacted (scaled iSubst) stepped
  refine Eq.trans ?_ valid
  by_cases here : substance = substanceIds iSubst
  · subst here
    rw [elementMass_eq_iff only, reacted.mass_eq_iff (scaled iSubst)]
    exact .inl (ratio iSubst rfl)
  · exact elementMass_other only here

/-- A substance all of whose species are settled is left alone. -/
theorem foldlM_react_settled {substance : Fin nSubst}
    (scaled : ∀ iSubst, (isotherms iSubst).Scaled)
    (settled : ∀ iSubst, substanceIds iSubst = substance →
      (isotherms iSubst).Settled libm rootFinder (conc.pair substanceIds iSubst))
    (ran : (List.finRange (n + 1)).foldlM
      (ElementConcentrations.react libm rootFinder substanceIds isotherms) conc = .ok after) :
    after.dissolved substance = conc.dissolved substance ∧
      ∀ iSubst, substanceIds iSubst = substance → after.sorbed iSubst = conc.sorbed iSubst := by
  apply foldlM_preserves ran (fun _ current =>
    current.dissolved substance = conc.dissolved substance ∧
      ∀ iSubst, substanceIds iSubst = substance →
        current.sorbed iSubst = conc.sorbed iSubst) ⟨rfl, fun _ _ => rfl⟩
  rintro seen iSubst remaining before next split ⟨dissolved, sorbed⟩ stepped
  obtain ⟨reacted, only⟩ := react_reacted (scaled iSubst) stepped
  by_cases here : substanceIds iSubst = substance
  · subst here
    have pair : before.pair substanceIds iSubst = conc.pair substanceIds iSubst :=
      Prod.ext dissolved (sorbed iSubst rfl)
    have unchanged := reacted.unchanged (scaled iSubst) (pair ▸ settled iSubst rfl)
    rw [pair] at unchanged
    obtain ⟨aqua, solid⟩ := Prod.ext_iff.mp unchanged
    refine ⟨aqua, ?_⟩
    intro other same
    by_cases itself : other = iSubst
    · rw [itself]
      exact solid
    · rw [only.sorbed other itself]
      exact sorbed other same
  · refine ⟨(only.dissolved substance (Ne.symm here)).trans dissolved, ?_⟩
    intro other same
    rw [only.sorbed other fun itself => here (itself ▸ same)]
    exact sorbed other same

/-- Different substances react independently. -/
theorem foldlM_react_injective (injective : Function.Injective substanceIds)
    (scaled : ∀ iSubst, (isotherms iSubst).Scaled)
    (ran : (List.finRange (n + 1)).foldlM
      (ElementConcentrations.react libm rootFinder substanceIds isotherms) conc = .ok after)
    (iSubst : Fin (n + 1)) :
    Reacted (isotherms iSubst) (conc.pair substanceIds iSubst) (after.pair substanceIds iSubst)
      ((isotherms iSubst).Settled libm rootFinder (conc.pair substanceIds iSubst)) := by
  have loop := foldlM_preserves ran (fun seen current =>
    (∀ iSubst ∈ seen, Reacted (isotherms iSubst) (conc.pair substanceIds iSubst)
      (current.pair substanceIds iSubst)
      ((isotherms iSubst).Settled libm rootFinder (conc.pair substanceIds iSubst))) ∧
    ∀ iSubst, iSubst ∉ seen →
      current.pair substanceIds iSubst = conc.pair substanceIds iSubst)
    ⟨by simp, fun _ _ => rfl⟩ ?_
  · exact loop.1 iSubst (List.mem_finRange iSubst)
  · rintro seen iSubst remaining before next split ⟨done, waiting⟩ stepped
    obtain ⟨reacted, only⟩ := react_reacted (scaled iSubst) stepped
    have others (other : Fin (n + 1)) (different : other ≠ iSubst) :
        next.pair substanceIds other = before.pair substanceIds other :=
      Prod.ext (only.dissolved _ (injective.ne different)) (only.sorbed other different)
    have unseen : iSubst ∉ seen := by
      intro member
      have distinct := List.nodup_finRange (n + 1)
      rw [split, List.nodup_append] at distinct
      exact distinct.2.2 iSubst member iSubst List.mem_cons_self rfl
    constructor
    · intro other member
      by_cases here : other = iSubst
      · rw [here]
        rw [waiting iSubst unseen] at reacted
        exact reacted
      · rw [others other here]
        rcases List.mem_append.mp member with earlier | last
        · exact done other earlier
        · exact absurd (List.mem_singleton.mp last) here
    · intro other absent
      rw [List.mem_append, List.mem_singleton, not_or] at absent
      rw [others other absent.2, waiting other absent.1]

end Element

end Sorption

/-! ## The zones -/

namespace Zone

/-- The phase of the dissolved concentrations of a zone. -/
def dissolved : Zone → Phase
  | .mobile => .mobile
  | .immobile => .immobile

def porosity (data : SorptionData n K) : Zone → K
  | .mobile => data.porosity
  | .immobile => data.immobPorosity

/-- The part of the solid that belongs to a zone. -/
def solid (data : SorptionData n K) : Zone → K
  | .mobile => data.phi
  | .immobile => 1 - data.phi

def scaleSorbed (data : SorptionData n K) (sorption : Sorption n nrOfRegions K) (zone : Zone)
    (iSubst : Fin (n + 1)) : K :=
  zone.solid data * (1 - data.porosity - data.immobPorosity) * data.rockDensity *
    sorption.molarMasses iSubst

end Zone

namespace OperatorSplitting

open Isotherm Sorption

/-- The mass of a substance in a zone of an element, with the present values of the fields. -/
def zoneMass (substanceIds : Fin (n + 1) → Fin nSubst) (zone : Zone)
    (input : SorptionInput n nrOfRegions lsize K)
    (state : OperatorSplitting n nrOfRegions nSubst lsize K) (locEl : Fin lsize)
    (substance : Fin nSubst) : K :=
  elementMass substanceIds (zone.porosity (input.elementData locEl))
    (zone.scaleSorbed (input.elementData locEl) (state.zones zone).sorption)
    ⟨fun substance => state.concMatrix zone.dissolved substance locEl,
      fun iSubst => (state.zones zone).sorbedConcArray iSubst locEl⟩ substance

/-- The call changes the concentrations of its zone only, and no mass of it. -/
structure KeepsZone (substanceIds : Fin (n + 1) → Fin nSubst) (zone : Zone)
    (input : SorptionInput n nrOfRegions lsize K)
    (before after : OperatorSplitting n nrOfRegions nSubst lsize K) : Prop where
  dissolved : ∀ phase, phase ≠ zone.dissolved → after.concMatrix phase = before.concMatrix phase
  sorbed : ∀ other, other ≠ zone →
    (after.zones other).sorbedConcArray = (before.zones other).sorbedConcArray
  mass : ∀ locEl substance, after.zoneMass substanceIds zone input locEl substance =
    before.zoneMass substanceIds zone input locEl substance

variable [LinearOrder K] [FloorRing K]

/-- The isotherms with which an element reacts in a call. -/
def usedIsotherms (libm : Libm K) (rootFinder : RootFinder K)
    (input : SorptionInput n nrOfRegions lsize K) (sorption : Sorption n nrOfRegions K)
    (locEl : Fin lsize) : Except (SorptionError K) (Fin (n + 1) → Isotherm K) := do
  let made ← if input.changedDuringSetTime.all then makeTables libm rootFinder input sorption
    else .ok sorption
  elementIsotherms (input.elementData locEl) made (made.isotherms (input.region locEl))

/-- All mobile dissolved concentrations are in equilibrium with what the object holds as sorbed;
for the mobile zone it is enough that the isotherms have its present scales. -/
def CanKeep (libm : Libm K) (rootFinder : RootFinder K)
    (substanceIds : Fin (n + 1) → Fin nSubst) (zone : Zone)
    (input : SorptionInput n nrOfRegions lsize K)
    (state : OperatorSplitting n nrOfRegions nSubst lsize K) : Prop :=
  ∀ locEl isotherms,
    usedIsotherms libm rootFinder input (state.zones zone).sorption locEl = .ok isotherms →
    ∀ substance,
      (zone = .mobile ∧ ∀ iSubst, substanceIds iSubst = substance →
        (isotherms iSubst).InRatio (zone.porosity (input.elementData locEl))
          (zone.scaleSorbed (input.elementData locEl) (state.zones zone).sorption iSubst)) ∨
      ∀ iSubst, substanceIds iSubst = substance →
        (isotherms iSubst).Settled libm rootFinder
          (state.concMatrix .mobile substance locEl,
            (state.zones zone).sorbedConcArray iSubst locEl)

section Runs

variable {libm : Libm K} {rootFinder : RootFinder K} {substanceIds : Fin (n + 1) → Fin nSubst}
  {state after : OperatorSplitting n nrOfRegions nSubst lsize K} {zone : Zone}
  {input : SorptionInput n nrOfRegions lsize K}

/-- Both objects have the mobile concentrations. -/
structure Wired (state : OperatorSplitting n nrOfRegions nSubst lsize K) : Prop where
  mobile : ∀ zone, (state.zones zone).concentrationMatrix = .mobile
  scaled : ∀ zone, (state.zones zone).sorption.TablesScaled

theorem construct_wired {concMatrix : Phase → Fin nSubst → Fin lsize → K}
    {sorption : Sorption n nrOfRegions K} {inputs : Zone → SorptionInput n nrOfRegions lsize K}
    (empty : ∀ regIdx iSubst, (sorption.isotherms regIdx iSubst).interpolationTable = [])
    (made : construct libm rootFinder concMatrix sorption inputs = .ok state) : state.Wired := by
  have start : sorption.TablesScaled := by
    intro regIdx precomputed
    rw [isPrecomputed, empty] at precomputed
    cases precomputed
  obtain ⟨sorptions, first, made⟩ := bind_ok made
  obtain ⟨sorptionsImmob, second, made⟩ := bind_ok made
  cases made
  constructor
  · intro zone
    cases zone <;> rfl
  · intro zone
    cases zone with
    | mobile => exact makeTables_scaled start first
    | immobile => exact makeTables_scaled start second

theorem computeOneStep_stored
    (ran : computeOneStep libm rootFinder substanceIds zone input state = .ok after) :
    ∃ result, Sorption.computeOneStep libm rootFinder substanceIds
        ((state.zones zone).sorption, state.concentrations zone) input = .ok result ∧
      after = state.store zone result := by
  obtain ⟨result, reacted, stored⟩ := bind_ok ran
  cases stored
  exact ⟨result, reacted, rfl⟩

theorem Reached.wired (reached : Reached libm rootFinder substanceIds state) : state.Wired := by
  induction reached with
  | constructed empty made => exact construct_wired empty made
  | @stepped state after zone input before ran wired =>
      obtain ⟨result, step, rfl⟩ := computeOneStep_stored ran
      constructor
      · intro other
        by_cases here : other = zone
        · rw [here, store_zones_self]
          exact wired.mobile zone
        · rw [store_zones_of_ne here]
          exact wired.mobile other
      · intro other
        by_cases here : other = zone
        · rw [here, store_zones_self]
          exact (computeOneStep_keeps (wired.scaled zone) step).2
        · rw [store_zones_of_ne here]
          exact wired.scaled other
  | transported concMatrix before wired => exact ⟨wired.mobile, wired.scaled⟩

/-- What a call does, element by element. -/
theorem computeOneStep_zone (wired : state.Wired)
    (ran : computeOneStep libm rootFinder substanceIds zone input state = .ok after) :
    (∀ phase, phase ≠ .mobile → after.concMatrix phase = state.concMatrix phase) ∧
      (∀ other, other ≠ zone → after.zones other = state.zones other) ∧
      (after.zones zone).sorption.molarMasses = (state.zones zone).sorption.molarMasses ∧
      ∀ locEl, ∃ isotherms,
        usedIsotherms libm rootFinder input (state.zones zone).sorption locEl = .ok isotherms ∧
        (∀ iSubst, (isotherms iSubst).Scaled) ∧
        (List.finRange (n + 1)).foldlM
            (ElementConcentrations.react libm rootFinder substanceIds isotherms)
            ⟨fun substance => state.concMatrix .mobile substance locEl,
              fun iSubst => (state.zones zone).sorbedConcArray iSubst locEl⟩ =
          .ok ⟨fun substance => after.concMatrix .mobile substance locEl,
            fun iSubst => (after.zones zone).sorbedConcArray iSubst locEl⟩ := by
  obtain ⟨result, step, rfl⟩ := computeOneStep_stored ran
  refine ⟨?_, ?_, ?_, ?_⟩
  · intro phase different
    rw [← wired.mobile zone] at different
    exact store_concMatrix_of_ne different
  · intro other different
    exact store_zones_of_ne different
  · rw [store_zones_self]
    exact (computeOneStep_keeps (wired.scaled zone) step).1
  · intro locEl
    obtain ⟨sorption, made, reacted⟩ := computeOneStep_elements step
    obtain ⟨isotherms, initialised, column⟩ := reacted locEl
    have scaled : sorption.TablesScaled := by
      split at made
      · exact makeTables_scaled (wired.scaled zone) made
      · cases made
        exact wired.scaled zone
    refine ⟨isotherms, ?_, elementIsotherms_scaled scaled initialised, ?_⟩
    · unfold usedIsotherms
      cases changed : input.changedDuringSetTime.all with
      | true =>
          rw [changed, if_pos rfl] at made
          simp only [if_true]
          rw [made]
          exact initialised
      | false =>
          rw [changed, if_neg Bool.false_ne_true] at made
          cases made
          exact initialised
    · rw [store_zones_self, ← wired.mobile zone, store_concMatrix_self]
      exact column

variable [IsStrictOrderedRing K]

theorem keepsZone_mobile (wired : state.Wired)
    (ran : computeOneStep libm rootFinder substanceIds .mobile input state = .ok after)
    (canKeep : CanKeep libm rootFinder substanceIds .mobile input state) :
    KeepsZone substanceIds .mobile input state after := by
  obtain ⟨phases, others, masses, reacted⟩ := computeOneStep_zone wired ran
  refine ⟨phases, ?_, ?_⟩
  · intro other different
    rw [others other different]
  · intro locEl substance
    obtain ⟨isotherms, used, scaled, column⟩ := reacted locEl
    unfold zoneMass Zone.scaleSorbed
    rw [masses]
    rcases canKeep locEl isotherms used substance with ⟨_, ratio⟩ | settled
    · exact foldlM_react_mass scaled ratio column
    · have settled (iSubst : Fin (n + 1)) (same : substanceIds iSubst = substance) := by
        have here := settled iSubst same
        rw [← same] at here
        exact here
      obtain ⟨dissolved, sorbed⟩ := foldlM_react_settled scaled settled column
      exact elementMass_congr dissolved sorbed

theorem canKeep_mobile (wired : state.Wired)
    (ran : computeOneStep libm rootFinder substanceIds .mobile input state = .ok after)
    (injective : Function.Injective substanceIds)
    (keeps : KeepsZone substanceIds .mobile input state after) :
    CanKeep libm rootFinder substanceIds .mobile input state := by
  obtain ⟨_, _, masses, reacted⟩ := computeOneStep_zone wired ran
  intro locEl isotherms used substance
  obtain ⟨others, alsoUsed, scaled, column⟩ := reacted locEl
  rw [used] at alsoUsed
  cases alsoUsed
  by_cases adsorbed : ∃ iSubst, substanceIds iSubst = substance
  · obtain ⟨iSubst, rfl⟩ := adsorbed
    have only (other : Fin (n + 1)) (same : substanceIds other = substanceIds iSubst) :
        other = iSubst := injective same
    have mass := keeps.mass locEl (substanceIds iSubst)
    unfold zoneMass Zone.scaleSorbed at mass
    rw [masses, elementMass_injective injective, elementMass_injective injective] at mass
    have moved := foldlM_react_injective injective scaled column iSubst
    rcases (moved.mass_eq_iff (scaled iSubst) _ _).mp mass with ratio | settled
    · left
      refine ⟨rfl, ?_⟩
      intro other same
      rw [only other same]
      exact ratio
    · right
      intro other same
      rw [only other same]
      exact settled
  · right
    intro iSubst same
    exact absurd ⟨iSubst, same⟩ adsorbed

theorem keepsZone_immobile (wired : state.Wired)
    (ran : computeOneStep libm rootFinder substanceIds .immobile input state = .ok after)
    (canKeep : CanKeep libm rootFinder substanceIds .immobile input state) :
    KeepsZone substanceIds .immobile input state after := by
  obtain ⟨phases, others, masses, reacted⟩ := computeOneStep_zone wired ran
  have unchanged (locEl : Fin lsize) (substance : Fin nSubst) :
      after.concMatrix .mobile substance locEl = state.concMatrix .mobile substance locEl ∧
        ∀ iSubst, substanceIds iSubst = substance →
          (after.zones .immobile).sorbedConcArray iSubst locEl =
            (state.zones .immobile).sorbedConcArray iSubst locEl := by
    obtain ⟨isotherms, used, scaled, column⟩ := reacted locEl
    rcases canKeep locEl isotherms used substance with ⟨mobile, _⟩ | settled
    · cases mobile
    · have settled (iSubst : Fin (n + 1)) (same : substanceIds iSubst = substance) := by
        have here := settled iSubst same
        rw [← same] at here
        exact here
      exact foldlM_react_settled scaled settled column
  have matrix (phase : Phase) : after.concMatrix phase = state.concMatrix phase := by
    by_cases mobile : phase = .mobile
    · rw [mobile]
      funext substance locEl
      exact (unchanged locEl substance).1
    · exact phases phase mobile
  refine ⟨fun phase _ => matrix phase, ?_, ?_⟩
  · intro other different
    rw [others other different]
  · intro locEl substance
    unfold zoneMass Zone.scaleSorbed
    rw [masses, matrix]
    exact elementMass_congr rfl (unchanged locEl substance).2

theorem canKeep_immobile (wired : state.Wired)
    (ran : computeOneStep libm rootFinder substanceIds .immobile input state = .ok after)
    (injective : Function.Injective substanceIds)
    (keeps : KeepsZone substanceIds .immobile input state after) :
    CanKeep libm rootFinder substanceIds .immobile input state := by
  obtain ⟨_, _, _, reacted⟩ := computeOneStep_zone wired ran
  intro locEl isotherms used substance
  obtain ⟨others, alsoUsed, scaled, column⟩ := reacted locEl
  rw [used] at alsoUsed
  cases alsoUsed
  right
  intro iSubst same
  rw [← same]
  apply (foldlM_react_injective injective scaled column iSubst).settled.mp
  have matrix := keeps.dissolved .mobile nofun
  exact congrFun (congrFun matrix (substanceIds iSubst)) locEl

/-- In every state of a run and for every call that returns; species that are the same substance
can make up for each other, so that the converse is about different ones. -/
theorem computeOneStep_keepsZone_iff (reached : Reached libm rootFinder substanceIds state)
    (ran : computeOneStep libm rootFinder substanceIds zone input state = .ok after) :
    (CanKeep libm rootFinder substanceIds zone input state →
        KeepsZone substanceIds zone input state after) ∧
      (Function.Injective substanceIds → KeepsZone substanceIds zone input state after →
        CanKeep libm rootFinder substanceIds zone input state) := by
  cases zone with
  | mobile =>
      exact ⟨keepsZone_mobile reached.wired ran, canKeep_mobile reached.wired ran⟩
  | immobile =>
      exact ⟨keepsZone_immobile reached.wired ran, canKeep_immobile reached.wired ran⟩

omit [IsStrictOrderedRing K] in
/-- Without tables, the mobile zone is kept. -/
theorem canKeep_untabulated (unchanged : input.changedDuringSetTime.all = false)
    (empty : ∀ regIdx,
      ((state.zones .mobile).sorption.isotherms regIdx 0).isPrecomputed = false) :
    CanKeep libm rootFinder substanceIds .mobile input state := by
  intro locEl isotherms used substance
  left
  refine ⟨rfl, ?_⟩
  intro iSubst _
  unfold usedIsotherms at used
  rw [unchanged] at used
  change elementIsotherms _ _ _ = _ at used
  rw [elementIsotherms, empty, if_neg Bool.false_ne_true] at used
  rw [isothermReinit_spec used iSubst]
  exact mul_comm _ _

end Runs

/-! ## A linear species in two zones -/

theorem oneRegion_nodup : [(0 : Fin 1)].Nodup := List.nodup_singleton _

/-- `c_s = c_a`, a quarter of each of the porosities, and no constant fields. -/
def quarters : SorptionInput 0 1 1 ℚ where
  changedDuringSetTime := ⟨false, false, false, false, false, false⟩
  bulk := [0]
  constAccessor := fun _ => ⟨false, false, false, false, false, false⟩
  regionData := fun _ => ⟨1, fun _ => .linear, fun _ => 1, fun _ => 0, 1 / 4, 1 / 4, 1 / 2⟩
  region := fun _ => 0
  elementData := fun _ => ⟨1, fun _ => .linear, fun _ => 1, fun _ => 0, 1 / 4, 1 / 4, 1 / 2⟩
  bulk_nodup := oneRegion_nodup
  constant := fun _ _ => rfl

/-- The mobile water has the concentration 1, and nothing is sorbed. -/
def dissolvedOne : OperatorSplitting 0 1 1 1 ℚ where
  concMatrix := fun phase _ _ => if phase = .mobile then 1 else 0
  zones := fun
    | .mobile => ⟨Call.oneSpecies, .mobile, none, fun _ _ => 0⟩
    | .immobile => ⟨Call.oneSpecies, .mobile, some .immobile, fun _ _ => 0⟩

theorem dissolvedOne_reached : Reached Call.noLibm secant id dissolvedOne := by
  have made : construct Call.noLibm secant dissolvedOne.concMatrix Call.oneSpecies
      (fun _ => quarters) = .ok dissolvedOne := by
    change Except.ok _ = Except.ok _
    congr 1
  exact .constructed (fun _ _ => rfl) made

/-- The mobile dissolved concentration after a call. -/
def mobileAfter (zone : Zone) : Option ℚ :=
  (computeOneStep Call.noLibm secant id zone quarters dissolvedOne).toOption.map
    fun after => after.concMatrix .mobile 0 0

theorem computeOneStep_keepsZone_iff_dissolvedOne :
    ∃ after, computeOneStep Call.noLibm secant id .mobile quarters dissolvedOne = .ok after ∧
      after.concMatrix .mobile 0 0 = 1 / 2 ∧
      KeepsZone id .mobile quarters dissolvedOne after := by
  have mobile : mobileAfter .mobile = some (1 / 2) := by decide +kernel
  obtain ⟨after, ended, value⟩ := Option.map_eq_some_iff.mp mobile
  have ran := ok_of_mem_toOption ended
  refine ⟨after, ran, value, ?_⟩
  apply (computeOneStep_keepsZone_iff dissolvedOne_reached ran).1
  exact canKeep_untabulated rfl fun _ => rfl

/-- The object for the immobile zone takes the mobile water. -/
theorem not_always_keepsZone :
    ¬ ∀ (state after : OperatorSplitting 0 1 1 1 ℚ) (zone : Zone) (input : SorptionInput 0 1 1 ℚ),
      Reached Call.noLibm secant id state →
      computeOneStep Call.noLibm secant id zone input state = .ok after →
      KeepsZone id zone input state after := by
  intro always
  have mobile : mobileAfter .immobile = some (1 / 2) := by decide +kernel
  obtain ⟨after, ended, value⟩ := Option.map_eq_some_iff.mp mobile
  have keeps := always _ _ _ _ dissolvedOne_reached (ok_of_mem_toOption ended)
  have same := congrFun (congrFun (keeps.dissolved .mobile nofun) 0) 0
  rw [value] at same
  revert same
  decide +kernel

end OperatorSplitting

end Flow123d
