import Mathlib.Algebra.BigOperators.Fin
import Flow123d.Library.Fold
import Flow123d.Reaction.IsothermConservation
import Flow123d.Reaction.SorptionTables

/-!
# Pairs in equilibrium

The total mass decides where the reaction puts the dissolved concentration. A pair that is there
already is left as it is.
-/

set_option autoImplicit false

namespace Flow123d

open Flow123d.Library

namespace Isotherm

variable {K : Type} [Field K] [LinearOrder K] [FloorRing K]

/-- The scales are those of the rotated coordinates, and something is sorbed. -/
structure Scaled (isotherm : Isotherm K) : Prop where
  invScaleAqua : isotherm.invScaleAqua = isotherm.scaleAqua /
    (isotherm.scaleAqua * isotherm.scaleAqua + isotherm.scaleSorbed * isotherm.scaleSorbed)
  invScaleSorbed : isotherm.invScaleSorbed = isotherm.scaleSorbed /
    (isotherm.scaleAqua * isotherm.scaleAqua + isotherm.scaleSorbed * isotherm.scaleSorbed)
  sorbed : isotherm.scaleSorbed ≠ 0

/-- The concentration that the iterative solution finds for the mass. -/
def solvedConc (libm : Libm K) (rootFinder : RootFinder K) (isotherm : Isotherm K) (mass : K) :
    Option K :=
  (isotherm.func libm).bind fun func =>
    (rootFinder (CrossFunction func mass isotherm.scaleAqua isotherm.scaleSorbed isotherm.rhoAqua)
      0 (isotherm.upperSolutionBound func)).map fun solution => (solution.1 + solution.2) / 2

/-- The dissolved concentration is the one that is solved for, or no functor is made. -/
def SolvedFor (libm : Libm K) (rootFinder : RootFinder K) (isotherm : Isotherm K)
    (conc : ConcPair K) : Prop :=
  isotherm.func libm = none ∨
    isotherm.solvedConc libm rootFinder (isotherm.totalMass conc) = some conc.1

/-- The entry of the table for the mass. -/
def tableIndex (isotherm : Isotherm K) (mass : K) : ℤ := ⌊mass / isotherm.totalMassStep⌋

/-- The sorbed coordinate between the entries of the table. -/
def interpolated (isotherm : Isotherm K) (mass : K) : K :=
  let index := isotherm.tableIndex mass
  let low := isotherm.interpolationTable.getD index.toNat 0
  let high := isotherm.interpolationTable.getD (index.toNat + 1) 0
  low + (mass / isotherm.totalMassStep - index) * (high - low)

/-- The pair is where the table or the solution puts its total mass; without a table, what is
over the limit is left alone. -/
def Settled (libm : Libm K) (rootFinder : RootFinder K) (isotherm : Isotherm K)
    (conc : ConcPair K) : Prop :=
  let mass := isotherm.totalMass conc
  if isotherm.isPrecomputed then
    if (isotherm.tableIndex mass).toNat < isotherm.interpolationTable.length - 1 then
      conc.1 = mass * isotherm.invScaleAqua - isotherm.interpolated mass * isotherm.invScaleSorbed
    else if isotherm.limitedSolubilityOn then conc.1 = isotherm.tableLimit
    else isotherm.SolvedFor libm rootFinder conc
  else (isotherm.limitedSolubilityOn = true ∧ conc.1 > isotherm.tableLimit) ∨
    isotherm.SolvedFor libm rootFinder conc

section Reaction

variable {libm : Libm K} {rootFinder : RootFinder K} {isotherm : Isotherm K}
  {conc after : ConcPair K}

/-- What a call that returns does to the pair: the mass stays, and the dissolved concentration
stays if and only if the pair is settled. -/
structure Reacted (isotherm : Isotherm K) (conc after : ConcPair K) (settled : Prop) : Prop where
  mass : isotherm.totalMass after = isotherm.totalMass conc
  settled : after.1 = conc.1 ↔ settled

theorem solveConc_reacted (scaled : isotherm.Scaled)
    (returned : isotherm.solveConc libm rootFinder conc = .ok after) :
    Reacted isotherm conc after (isotherm.SolvedFor libm rootFinder conc) := by
  unfold solveConc at returned
  unfold SolvedFor solvedConc
  cases made : isotherm.func libm with
  | none =>
      rw [made] at returned
      cases returned
      exact ⟨rfl, iff_of_true rfl (.inl rfl)⟩
  | some func =>
      rw [made] at returned
      unfold solveConcWith eqFunc at returned
      rw [Option.bind_some]
      cases found : rootFinder (CrossFunction func (isotherm.totalMass conc) isotherm.scaleAqua
          isotherm.scaleSorbed isotherm.rhoAqua) 0 (isotherm.upperSolutionBound func) with
      | none =>
          simp only [found] at returned
          cases returned
      | some solution =>
          simp only [found] at returned
          cases returned
          refine ⟨totalMass_rest scaled.sorbed _ _, ?_⟩
          simp

omit [FloorRing K] in
theorem precipitate_reacted (scaled : isotherm.Scaled)
    (returned : isotherm.precipitate conc = .ok after) :
    Reacted isotherm conc after (conc.1 = isotherm.tableLimit) := by
  unfold precipitate at returned
  split_ifs at returned
  cases returned
  exact ⟨totalMass_rest scaled.sorbed _ _, eq_comm⟩

theorem computeReaction_reacted [IsStrictOrderedRing K] (scaled : isotherm.Scaled)
    (returned : isotherm.computeReaction libm rootFinder conc = .ok after) :
    Reacted isotherm conc after (isotherm.Settled libm rootFinder conc) := by
  unfold computeReaction at returned
  unfold Settled
  dsimp only
  by_cases precomputed : isotherm.isPrecomputed = true
  · rw [if_pos precomputed] at returned ⊢
    unfold computeProjection at returned
    dsimp only at returned
    split_ifs at returned with negative inside limited
    · rw [tableIndex, if_pos inside]
      cases returned
      exact ⟨totalMass_rotated scaled.invScaleAqua scaled.invScaleSorbed scaled.sorbed _ _, eq_comm⟩
    · rw [tableIndex, if_neg inside, if_pos limited]
      exact precipitate_reacted scaled returned
    · rw [tableIndex, if_neg inside, if_neg limited]
      exact solveConc_reacted scaled returned
  · rw [if_neg precomputed] at returned ⊢
    by_cases above : (isotherm.limitedSolubilityOn && decide (conc.1 > isotherm.tableLimit)) = true
    · rw [if_pos above] at returned
      rw [Bool.and_eq_true, decide_eq_true_iff] at above
      obtain ⟨_, _, returned⟩ := bind_ok returned
      cases returned
      exact ⟨rfl, iff_of_true rfl (.inl above)⟩
    · rw [if_neg above] at returned
      rw [Bool.and_eq_true, decide_eq_true_iff] at above
      have reacted := solveConc_reacted scaled returned
      exact ⟨reacted.mass, by rw [reacted.settled, or_iff_right above]⟩

omit [LinearOrder K] [FloorRing K] in
theorem Reacted.unchanged {settled : Prop} (reacted : Reacted isotherm conc after settled)
    (scaled : isotherm.Scaled) (holds : settled) : after = conc := by
  have aqua := reacted.settled.mpr holds
  have mass := reacted.mass
  unfold totalMass at mass
  rw [aqua] at mass
  exact Prod.ext aqua (mul_left_cancel₀ scaled.sorbed (add_left_cancel mass))

end Reaction

end Isotherm

end Flow123d

/-!
## The sorption of the two zones

With dual porosity the transport has two objects of one class. The constructor decides which of
the concentrations each of them reads and writes.
-/

namespace Flow123d

open Flow123d.Library

/-- The indices of `conc_matrix`. -/
inductive Phase where
  | mobile
  | immobile
  | mobileSorb
  | immobileSorb
  deriving DecidableEq

/-- The two objects of the class `Sorption`, `sorptions` and `sorptions_immob`. -/
inductive Zone where
  | mobile
  | immobile
  deriving DecidableEq

/-- One of the objects, with the phases that its pointers stand for. What the second pointer
points to is never read. -/
structure ZoneSorption (n nrOfRegions lsize : ℕ) (K : Type) where
  sorption : Sorption n nrOfRegions K
  concentrationMatrix : Phase
  immobConcentrationMatrix : Option Phase
  sorbedConcArray : Fin (n + 1) → Fin lsize → K

/-- The part of `TransportOperatorSplitting` that sorbs. -/
structure OperatorSplitting (n nrOfRegions nSubst lsize : ℕ) (K : Type) where
  concMatrix : Phase → Fin nSubst → Fin lsize → K
  zones : Zone → ZoneSorption n nrOfRegions lsize K

variable {n nrOfRegions nSubst lsize : ℕ} {K : Type} [Field K] [LinearOrder K] [FloorRing K]

namespace OperatorSplitting

section Definitions

variable (libm : Libm K) (rootFinder : RootFinder K) (substanceIds : Fin (n + 1) → Fin nSubst)

/-- The constructor for the dual porosity. Both objects are made from one record; their fields
can have changed in between. -/
def construct (concMatrix : Phase → Fin nSubst → Fin lsize → K)
    (sorption : Sorption n nrOfRegions K) (inputs : Zone → SorptionInput n nrOfRegions lsize K) :
    Except (SorptionError K) (OperatorSplitting n nrOfRegions nSubst lsize K) := do
  let sorptions ← Sorption.makeTables libm rootFinder (inputs .mobile) sorption
  let sorptionsImmob ← Sorption.makeTables libm rootFinder (inputs .immobile) sorption
  .ok
    { concMatrix := concMatrix
      zones := fun
        | .mobile =>
            { sorption := sorptions
              concentrationMatrix := .mobile
              immobConcentrationMatrix := none
              sorbedConcArray := fun _ _ => 0 }
        | .immobile =>
            { sorption := sorptionsImmob
              concentrationMatrix := .mobile
              immobConcentrationMatrix := some .immobile
              sorbedConcArray := fun _ _ => 0 } }

/-- What an object reads and writes. -/
def concentrations (state : OperatorSplitting n nrOfRegions nSubst lsize K) (zone : Zone) :
    SorptionConcentrations n nSubst lsize K where
  concentrationMatrix := state.concMatrix (state.zones zone).concentrationMatrix
  sorbedConcArray := (state.zones zone).sorbedConcArray

/-- The state in which an object has written its results. -/
def store (state : OperatorSplitting n nrOfRegions nSubst lsize K) (zone : Zone)
    (result : Sorption n nrOfRegions K × SorptionConcentrations n nSubst lsize K) :
    OperatorSplitting n nrOfRegions nSubst lsize K where
  concMatrix := Function.update state.concMatrix (state.zones zone).concentrationMatrix
    result.2.concentrationMatrix
  zones := Function.update state.zones zone
    { state.zones zone with
      sorption := result.1
      sorbedConcArray := result.2.sorbedConcArray }

/-- `sorptions->compute_one_step` or `sorptions_immob->compute_one_step`. -/
def computeOneStep (zone : Zone) (input : SorptionInput n nrOfRegions lsize K)
    (state : OperatorSplitting n nrOfRegions nSubst lsize K) :
    Except (SorptionError K) (OperatorSplitting n nrOfRegions nSubst lsize K) := do
  let result ← Sorption.computeOneStep libm rootFinder substanceIds
    ((state.zones zone).sorption, state.concentrations zone) input
  .ok (state.store zone result)

/-- The states of all runs; the transport and the other reactions change the matrix in any way. -/
inductive Reached : OperatorSplitting n nrOfRegions nSubst lsize K → Prop where
  | constructed {concMatrix : Phase → Fin nSubst → Fin lsize → K}
      {sorption : Sorption n nrOfRegions K}
      {inputs : Zone → SorptionInput n nrOfRegions lsize K}
      {state : OperatorSplitting n nrOfRegions nSubst lsize K}
      (empty : ∀ regIdx iSubst, (sorption.isotherms regIdx iSubst).interpolationTable = [])
      (made : construct libm rootFinder concMatrix sorption inputs = .ok state) : Reached state
  | stepped {state after : OperatorSplitting n nrOfRegions nSubst lsize K} {zone : Zone}
      {input : SorptionInput n nrOfRegions lsize K} (before : Reached state)
      (ran : computeOneStep libm rootFinder substanceIds zone input state = .ok after) :
      Reached after
  | transported {state : OperatorSplitting n nrOfRegions nSubst lsize K}
      (concMatrix : Phase → Fin nSubst → Fin lsize → K) (before : Reached state) :
      Reached { state with concMatrix := concMatrix }

end Definitions

section Store

variable {state : OperatorSplitting n nrOfRegions nSubst lsize K} {zone other : Zone}
  {result : Sorption n nrOfRegions K × SorptionConcentrations n nSubst lsize K}

omit [Field K] [LinearOrder K] [FloorRing K] in
theorem store_zones_self : (state.store zone result).zones zone =
    { state.zones zone with
      sorption := result.1
      sorbedConcArray := result.2.sorbedConcArray } :=
  Function.update_self ..

omit [Field K] [LinearOrder K] [FloorRing K] in
theorem store_zones_of_ne (different : other ≠ zone) :
    (state.store zone result).zones other = state.zones other :=
  Function.update_of_ne different ..

omit [Field K] [LinearOrder K] [FloorRing K] in
theorem store_concMatrix_self :
    (state.store zone result).concMatrix (state.zones zone).concentrationMatrix =
      result.2.concentrationMatrix :=
  Function.update_self ..

omit [Field K] [LinearOrder K] [FloorRing K] in
theorem store_concMatrix_of_ne {phase : Phase}
    (different : phase ≠ (state.zones zone).concentrationMatrix) :
    (state.store zone result).concMatrix phase = state.concMatrix phase :=
  Function.update_of_ne different ..

end Store

end OperatorSplitting

/-! ## The isotherms of a run -/

namespace Sorption

open Isotherm

variable {libm : Libm K} {rootFinder : RootFinder K} {substanceIds : Fin (n + 1) → Fin nSubst}

/-- Where there are tables, the scales have been set. -/
def TablesScaled (sorption : Sorption n nrOfRegions K) : Prop :=
  ∀ regIdx, (sorption.isotherms regIdx 0).isPrecomputed = true →
    ∀ iSubst, (sorption.isotherms regIdx iSubst).Scaled

omit [FloorRing K] in
theorem isothermReinit_scaled {data : SorptionData n K} {sorption : Sorption n nrOfRegions K}
    {isotherms after : Fin (n + 1) → Isotherm K}
    (ran : isothermReinit data sorption isotherms = .ok after) (iSubst : Fin (n + 1)) :
    (after iSubst).Scaled := by
  unfold isothermReinit at ran
  split at ran
  · cases ran
  case isFalse positive =>
    cases ran
    constructor
    · rfl
    · rfl
    · exact fun zero => positive ⟨iSubst, zero⟩

theorem makeTable_scaled {nrOfPoints : ℤ} {isotherm made : Isotherm K}
    (scaled : isotherm.Scaled)
    (built : isotherm.makeTable libm rootFinder nrOfPoints = .ok made) : made.Scaled := by
  rcases makeTable_cases built with ⟨_, rfl⟩ | ⟨func, known, step, filled⟩
  · exact scaled
  · have start : (0 : K) = ((0 : ℕ) : K) * step := by simp
    rw [start] at filled
    obtain ⟨points, rfl, _, _⟩ := fillTable_points _ 0
      { isotherm with tableLimit := isotherm.tableBound, totalMassStep := step } filled
    exact ⟨scaled.invScaleAqua, scaled.invScaleSorbed, scaled.sorbed⟩

theorem makeTablesOf_scaled {input : SorptionInput n nrOfRegions lsize K}
    {sorption after : Sorption n nrOfRegions K} {regIdx : Fin nrOfRegions}
    (scaled : sorption.TablesScaled)
    (ran : makeTablesOf libm rootFinder input sorption regIdx = .ok after) :
    after.TablesScaled := by
  unfold makeTablesOf at ran
  split at ran
  · obtain ⟨reinitialised, initialised, ran⟩ := bind_ok ran
    obtain ⟨made, built, ran⟩ := bind_ok ran
    cases ran
    intro other precomputed iSubst
    by_cases here : other = regIdx
    · rw [here, setIsotherms_self]
      exact makeTable_scaled (isothermReinit_scaled initialised iSubst)
        (makeRegionTables_spec built iSubst)
    · rw [setIsotherms_of_ne here] at precomputed ⊢
      exact scaled other precomputed iSubst
  · cases ran
    exact scaled

theorem makeTables_scaled {input : SorptionInput n nrOfRegions lsize K}
    {sorption after : Sorption n nrOfRegions K} (scaled : sorption.TablesScaled)
    (ran : makeTables libm rootFinder input sorption = .ok after) : after.TablesScaled := by
  apply foldlM_preserves ran (fun _ sorption => sorption.TablesScaled) scaled
  intro _ _ _ _ _ _ before stepped
  exact makeTablesOf_scaled before stepped

omit [FloorRing K] in
theorem elementIsotherms_scaled {data : SorptionData n K} {sorption : Sorption n nrOfRegions K}
    {regIdx : Fin nrOfRegions} {isotherms : Fin (n + 1) → Isotherm K}
    (scaled : sorption.TablesScaled)
    (ran : elementIsotherms data sorption (sorption.isotherms regIdx) = .ok isotherms)
    (iSubst : Fin (n + 1)) : (isotherms iSubst).Scaled := by
  unfold elementIsotherms at ran
  split at ran
  case isTrue precomputed =>
    cases ran
    exact scaled regIdx precomputed iSubst
  case isFalse => exact isothermReinit_scaled ran iSubst

/-! ## One element -/

/-- The concentrations at one element. -/
structure ElementConcentrations (n nSubst : ℕ) (K : Type) where
  dissolved : Fin nSubst → K
  sorbed : Fin (n + 1) → K

/-- The pair of one species. -/
def ElementConcentrations.pair (conc : ElementConcentrations n nSubst K)
    (substanceIds : Fin (n + 1) → Fin nSubst) (iSubst : Fin (n + 1)) : ConcPair K :=
  (conc.dissolved (substanceIds iSubst), conc.sorbed iSubst)

/-- The reaction of one species at the element. -/
def ElementConcentrations.react (libm : Libm K) (rootFinder : RootFinder K)
    (substanceIds : Fin (n + 1) → Fin nSubst) (isotherms : Fin (n + 1) → Isotherm K)
    (conc : ElementConcentrations n nSubst K) (iSubst : Fin (n + 1)) :
    Except (SorptionError K) (ElementConcentrations n nSubst K) :=
  match (isotherms iSubst).computeReaction libm rootFinder (conc.pair substanceIds iSubst) with
  | .error error => .error (.isotherm error)
  | .ok after => .ok
      { dissolved := Function.update conc.dissolved (substanceIds iSubst) after.1
        sorbed := Function.update conc.sorbed iSubst after.2 }

def atElement (concentrations : SorptionConcentrations n nSubst lsize K) (locEl : Fin lsize) :
    ElementConcentrations n nSubst K where
  dissolved := fun substance => concentrations.concentrationMatrix substance locEl
  sorbed := fun iSubst => concentrations.sorbedConcArray iSubst locEl

theorem reactSubstance_atElement {locEl : Fin lsize} {isotherms : Fin (n + 1) → Isotherm K}
    {concentrations after : SorptionConcentrations n nSubst lsize K} {iSubst : Fin (n + 1)}
    (ran : reactSubstance libm rootFinder substanceIds locEl isotherms concentrations iSubst =
      .ok after) :
    (atElement concentrations locEl).react libm rootFinder substanceIds isotherms iSubst =
        .ok (atElement after locEl) ∧
      ∀ other, other ≠ locEl → atElement after other = atElement concentrations other := by
  unfold reactSubstance at ran
  unfold ElementConcentrations.react
  change (match (isotherms iSubst).computeReaction libm rootFinder
    ((atElement concentrations locEl).pair substanceIds iSubst) with
    | .error error => _
    | .ok after => _) = _ at ran
  cases reacted : (isotherms iSubst).computeReaction libm rootFinder
      ((atElement concentrations locEl).pair substanceIds iSubst) with
  | error error =>
      rw [reacted] at ran
      cases ran
  | ok pair =>
      rw [reacted] at ran
      cases ran
      constructor
      · simp only [atElement, Except.ok.injEq, ElementConcentrations.mk.injEq]
        constructor
        · funext substance
          by_cases here : substance = substanceIds iSubst
          · subst here
            simp
          · simp [here]
        · funext other
          by_cases here : other = iSubst
          · subst here
            simp
          · simp [here]
      · intro other different
        simp only [atElement, ElementConcentrations.mk.injEq]
        constructor
        · funext substance
          by_cases here : substance = substanceIds iSubst
          · subst here
            simp [different]
          · simp [here]
        · funext species
          by_cases here : species = iSubst
          · subst here
            simp [different]
          · simp [here]

/-! ## All elements -/

omit [FloorRing K] in
theorem isothermReinit_again {data other : SorptionData n K} {sorption : Sorption n nrOfRegions K}
    {isotherms after : Fin (n + 1) → Isotherm K}
    (ran : isothermReinit data sorption isotherms = .ok after) :
    isothermReinit other sorption after = isothermReinit other sorption isotherms := by
  have same : after = fun iSubst => sorption.reinitialised data iSubst (isotherms iSubst) :=
    funext (isothermReinit_spec ran)
  rw [same]
  rfl

omit [FloorRing K] in
/-- What the reaction of one element leaves in the region gives other elements what they would
have got before. -/
theorem elementIsotherms_again {data other : SorptionData n K}
    {sorption : Sorption n nrOfRegions K} {isotherms after : Fin (n + 1) → Isotherm K}
    (ran : elementIsotherms data sorption isotherms = .ok after) :
    elementIsotherms other sorption after = elementIsotherms other sorption isotherms := by
  by_cases precomputed : (isotherms 0).isPrecomputed = true
  · rw [elementIsotherms, if_pos precomputed] at ran
    cases ran
    rfl
  · rw [elementIsotherms, if_neg precomputed] at ran
    have kept : ¬ (after 0).isPrecomputed = true := by
      rw [isothermReinit_spec ran 0]
      exact precomputed
    rw [elementIsotherms, elementIsotherms, if_neg kept, if_neg precomputed]
    exact isothermReinit_again ran

/-- The isotherms with which the elements of all regions react are the same. -/
def SameIsotherms (first second : Sorption n nrOfRegions K) : Prop :=
  ∀ data regIdx, elementIsotherms data first (first.isotherms regIdx) =
    elementIsotherms data second (second.isotherms regIdx)

theorem computeReaction_elements {input : SorptionInput n nrOfRegions lsize K}
    {state after : Sorption n nrOfRegions K × SorptionConcentrations n nSubst lsize K}
    {locEl : Fin lsize}
    (ran : computeReaction libm rootFinder substanceIds input state locEl = .ok after) :
    SameIsotherms after.1 state.1 ∧
      (∃ isotherms, elementIsotherms (input.elementData locEl) state.1
          (state.1.isotherms (input.region locEl)) = .ok isotherms ∧
        (List.finRange (n + 1)).foldlM
          (ElementConcentrations.react libm rootFinder substanceIds isotherms)
          (atElement state.2 locEl) = .ok (atElement after.2 locEl)) ∧
      ∀ other, other ≠ locEl → atElement after.2 other = atElement state.2 other := by
  obtain ⟨isotherms, initialised, ran⟩ := bind_ok ran
  obtain ⟨concentrations, reacted, ran⟩ := bind_ok ran
  cases ran
  have loop := foldlM_preserves reacted
    (fun seen concentrations =>
      seen.foldlM (ElementConcentrations.react libm rootFinder substanceIds isotherms)
          (atElement state.2 locEl) = .ok (atElement concentrations locEl) ∧
        ∀ other, other ≠ locEl →
          atElement concentrations other = atElement state.2 other)
    ⟨rfl, fun _ _ => rfl⟩ ?_
  · refine ⟨?_, ⟨isotherms, initialised, loop.1⟩, loop.2⟩
    intro data regIdx
    by_cases here : regIdx = input.region locEl
    · rw [here, setIsotherms_self]
      exact elementIsotherms_again initialised
    · rw [setIsotherms_of_ne here]
      rfl
  · intro seen iSubst remaining before next split valid stepped
    obtain ⟨column, others⟩ := reactSubstance_atElement stepped
    constructor
    · exact foldlM_concat valid.1 column
    · intro other different
      rw [others other different, valid.2 other different]

theorem computeOneStep_loop {input : SorptionInput n nrOfRegions lsize K}
    {state after : Sorption n nrOfRegions K × SorptionConcentrations n nSubst lsize K}
    (ran : computeOneStep libm rootFinder substanceIds state input = .ok after) :
    ∃ sorption, (if input.changedDuringSetTime.all then makeTables libm rootFinder input state.1
        else .ok state.1) = .ok sorption ∧
      (List.finRange lsize).foldlM (computeReaction libm rootFinder substanceIds input)
        (sorption, state.2) = .ok after := by
  unfold computeOneStep at ran
  cases changed : input.changedDuringSetTime.all with
  | true =>
      simp only [changed, if_true] at ran ⊢
      exact bind_ok ran
  | false =>
      simp only [changed, Bool.false_eq_true, if_false] at ran ⊢
      exact ⟨state.1, rfl, ran⟩

/-- A call keeps the molar masses, and the scales of what has tables. -/
theorem computeOneStep_keeps {input : SorptionInput n nrOfRegions lsize K}
    {state after : Sorption n nrOfRegions K × SorptionConcentrations n nSubst lsize K}
    (scaled : state.1.TablesScaled)
    (ran : computeOneStep libm rootFinder substanceIds state input = .ok after) :
    after.1.molarMasses = state.1.molarMasses ∧ after.1.TablesScaled := by
  obtain ⟨sorption, made, ran⟩ := computeOneStep_loop ran
  have start : sorption.molarMasses = state.1.molarMasses ∧ sorption.TablesScaled := by
    split at made
    · obtain ⟨setting, _, _⟩ := makeTables_spec made
      exact ⟨by rw [setting], makeTables_scaled scaled made⟩
    · cases made
      exact ⟨rfl, scaled⟩
  apply foldlM_preserves ran (fun _ current =>
    current.1.molarMasses = state.1.molarMasses ∧ current.1.TablesScaled) start
  rintro seen locEl remaining before next split ⟨masses, scaledBefore⟩ stepped
  obtain ⟨isotherms, initialised, stepped⟩ := bind_ok stepped
  obtain ⟨concentrations, _, stepped⟩ := bind_ok stepped
  cases stepped
  refine ⟨masses, ?_⟩
  intro regIdx precomputed iSubst
  by_cases here : regIdx = input.region locEl
  · rw [here, setIsotherms_self]
    exact elementIsotherms_scaled scaledBefore initialised iSubst
  · rw [setIsotherms_of_ne here] at precomputed ⊢
    exact scaledBefore regIdx precomputed iSubst

/-- Every element reacts once, with the isotherms that the tables leave it. -/
theorem computeOneStep_elements {input : SorptionInput n nrOfRegions lsize K}
    {state after : Sorption n nrOfRegions K × SorptionConcentrations n nSubst lsize K}
    (ran : computeOneStep libm rootFinder substanceIds state input = .ok after) :
    ∃ sorption, (if input.changedDuringSetTime.all then makeTables libm rootFinder input state.1
        else .ok state.1) = .ok sorption ∧
      ∀ locEl, ∃ isotherms, elementIsotherms (input.elementData locEl) sorption
          (sorption.isotherms (input.region locEl)) = .ok isotherms ∧
        (List.finRange (n + 1)).foldlM
          (ElementConcentrations.react libm rootFinder substanceIds isotherms)
          (atElement state.2 locEl) = .ok (atElement after.2 locEl) := by
  obtain ⟨sorption, made, ran⟩ := computeOneStep_loop ran
  refine ⟨sorption, made, ?_⟩
  have loop := foldlM_preserves ran
    (fun seen current => SameIsotherms current.1 sorption ∧
      (∀ locEl ∈ seen, ∃ isotherms, elementIsotherms (input.elementData locEl) sorption
          (sorption.isotherms (input.region locEl)) = .ok isotherms ∧
        (List.finRange (n + 1)).foldlM
          (ElementConcentrations.react libm rootFinder substanceIds isotherms)
          (atElement state.2 locEl) = .ok (atElement current.2 locEl)) ∧
      ∀ locEl, locEl ∉ seen → atElement current.2 locEl = atElement state.2 locEl)
    ⟨fun _ _ => rfl, by simp, fun _ _ => rfl⟩ ?_
  · intro locEl
    exact loop.2.1 locEl (List.mem_finRange locEl)
  · rintro seen locEl remaining before next split ⟨same, done, waiting⟩ stepped
    obtain ⟨kept, ⟨isotherms, initialised, reacted⟩, others⟩ := computeReaction_elements stepped
    have unseen : locEl ∉ seen := by
      intro member
      have distinct := List.nodup_finRange lsize
      rw [split, List.nodup_append] at distinct
      exact distinct.2.2 locEl member locEl List.mem_cons_self rfl
    refine ⟨fun data regIdx => (kept data regIdx).trans (same data regIdx), ?_, ?_⟩
    · intro other member
      by_cases here : other = locEl
      · rw [here]
        rw [same] at initialised
        rw [waiting locEl unseen] at reacted
        exact ⟨isotherms, initialised, reacted⟩
      · rw [others other here]
        rcases List.mem_append.mp member with earlier | last
        · exact done other earlier
        · exact absurd (List.mem_singleton.mp last) here
    · intro other absent
      rw [List.mem_append, List.mem_singleton, not_or] at absent
      rw [others other absent.2, waiting other absent.1]

end Sorption

end Flow123d
