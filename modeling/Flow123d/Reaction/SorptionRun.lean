import Flow123d.Reaction.SorptionTables

/-!
# Runs of the sorption

The calls that initialise isotherms and make tables, any number of time steps, and the
condition under which every table describes the current isotherm.
-/

set_option autoImplicit false

namespace Flow123d

open Flow123d.Library

namespace Sorption

open Isotherm

variable {n nrOfRegions nSubst lsize : ℕ} {K : Type} [Field K] [LinearOrder K] [FloorRing K]
  {libm : Libm K} {rootFinder : RootFinder K} {substanceIds : Fin (n + 1) → Fin nSubst}

/-! ## The reaction keeps the tables -/

/-- What the reaction keeps of an isotherm. -/
structure KeepsTable (libm : Libm K) (before after : Isotherm K) : Prop where
  table : after.interpolationTable = before.interpolationTable
  step : after.totalMassStep = before.totalMassStep
  same : before.interpolationTable ≠ [] → SameIsotherm libm before after

theorem KeepsTable.rfl {isotherm : Isotherm K} : KeepsTable libm isotherm isotherm where
  table := Eq.refl _
  step := Eq.refl _
  same := fun _ =>
    ⟨Eq.refl _, fun _ => Eq.refl _, Eq.refl _, Eq.refl _, Eq.refl _, Eq.refl _⟩

theorem elementIsotherms_keep {input : SorptionInput n nrOfRegions lsize K}
    {sorption : Sorption n nrOfRegions K} {locEl : Fin lsize}
    {isotherms : Fin (n + 1) → Isotherm K} (matching : AllMatch libm input sorption)
    (ran : elementIsotherms (input.elementData locEl) sorption
      (sorption.isotherms (input.region locEl)) = .ok isotherms) (iSubst : Fin (n + 1)) :
    KeepsTable libm (sorption.isotherms (input.region locEl) iSubst) (isotherms iSubst) := by
  unfold elementIsotherms at ran
  split at ran
  case isTrue =>
    cases ran
    exact .rfl
  case isFalse =>
    rw [isothermReinit_spec ran iSubst]
    constructor
    · rfl
    · rfl
    · intro filled
      exact (matching locEl iSubst filled).symm

/-- The reaction of one element leaves the tables current. -/
theorem computeReaction_keeps {input : SorptionInput n nrOfRegions lsize K}
    {state after : Sorption n nrOfRegions K × SorptionConcentrations n nSubst lsize K}
    {locEl : Fin lsize} (own : OwnTables libm rootFinder state.1)
    (matching : AllMatch libm input state.1)
    (ran : computeReaction libm rootFinder substanceIds input state locEl = .ok after) :
    OwnTables libm rootFinder after.1 ∧ AllMatch libm input after.1 := by
  obtain ⟨isotherms, initialised, ran⟩ := bind_ok ran
  obtain ⟨concentrations, _, ran⟩ := bind_ok ran
  cases ran
  have keeps (regIdx : Fin nrOfRegions) (iSubst : Fin (n + 1)) :
      KeepsTable libm (state.1.isotherms regIdx iSubst)
        ((state.1.setIsotherms (input.region locEl) isotherms).isotherms regIdx iSubst) := by
    by_cases here : regIdx = input.region locEl
    · rw [here, setIsotherms_self]
      exact elementIsotherms_keep matching initialised iSubst
    · rw [setIsotherms_of_ne here]
      exact .rfl
  constructor
  · intro regIdx iSubst
    rw [(keeps regIdx iSubst).table, (keeps regIdx iSubst).step]
    intro filled
    exact (own regIdx iSubst).congr ((keeps regIdx iSubst).same filled) filled
  · intro other iSubst filled
    have kept := keeps (input.region other) iSubst
    rw [kept.table] at filled
    have setting : SameSetting (state.1.setIsotherms (input.region locEl) isotherms) state.1 :=
      rfl
    exact (reinitialised_sameIsotherm setting rfl _ _).trans
      ((matching other iSubst filled).trans (kept.same filled))

theorem foldlM_computeReaction_keeps {input : SorptionInput n nrOfRegions lsize K}
    {state after : Sorption n nrOfRegions K × SorptionConcentrations n nSubst lsize K}
    {elements : List (Fin lsize)} (own : OwnTables libm rootFinder state.1)
    (matching : AllMatch libm input state.1)
    (ran : elements.foldlM (computeReaction libm rootFinder substanceIds input) state =
      .ok after) :
    OwnTables libm rootFinder after.1 ∧ AllMatch libm input after.1 := by
  refine foldlM_preserves ran
    (fun _ state => OwnTables libm rootFinder state.1 ∧ AllMatch libm input state.1)
    ⟨own, matching⟩ ?_
  rintro seen locEl remaining before next split ⟨ownBefore, matchingBefore⟩ stepped
  exact computeReaction_keeps ownBefore matchingBefore stepped

/-! ## Calls -/

/-- The calls that decide about the tables; the records are read before the tables are made. -/
inductive Call (n nrOfRegions lsize : ℕ) (K : Type) where
  | prepareInputs (input : SorptionInput n nrOfRegions lsize K)
  | computeOneStep (input : SorptionInput n nrOfRegions lsize K)

namespace Call

def input : Call n nrOfRegions lsize K → SorptionInput n nrOfRegions lsize K
  | .prepareInputs input => input
  | .computeOneStep input => input

/-- Whether the call makes tables. -/
def makes : Call n nrOfRegions lsize K → Bool
  | .prepareInputs _ => true
  | .computeOneStep input => input.changedDuringSetTime.all

/-- The elements whose reaction the call computes. -/
def elements : Call n nrOfRegions lsize K → List (Fin lsize)
  | .prepareInputs _ => []
  | .computeOneStep _ => List.finRange lsize

/-- The tables with which the call computes the reaction. -/
def tables (libm : Libm K) (rootFinder : RootFinder K) (call : Call n nrOfRegions lsize K)
    (sorption : Sorption n nrOfRegions K) : Except (SorptionError K) (Sorption n nrOfRegions K) :=
  if call.makes then makeTables libm rootFinder call.input sorption else .ok sorption

/-- The call as far as the reaction of some of its elements. -/
def upTo (libm : Libm K) (rootFinder : RootFinder K) (substanceIds : Fin (n + 1) → Fin nSubst)
    (call : Call n nrOfRegions lsize K) (elements : List (Fin lsize))
    (state : Sorption n nrOfRegions K × SorptionConcentrations n nSubst lsize K) :
    Except (SorptionError K)
      (Sorption n nrOfRegions K × SorptionConcentrations n nSubst lsize K) := do
  let sorption ← call.tables libm rootFinder state.1
  elements.foldlM (Sorption.computeReaction libm rootFinder substanceIds call.input)
    (sorption, state.2)

/-- An error stops the program. -/
def run (libm : Libm K) (rootFinder : RootFinder K) (substanceIds : Fin (n + 1) → Fin nSubst)
    (state : Except (SorptionError K)
      (Sorption n nrOfRegions K × SorptionConcentrations n nSubst lsize K))
    (call : Call n nrOfRegions lsize K) :
    Except (SorptionError K)
      (Sorption n nrOfRegions K × SorptionConcentrations n nSubst lsize K) := do
  let reached ← state
  call.upTo libm rootFinder substanceIds call.elements reached

theorem run_computeOneStep (input : SorptionInput n nrOfRegions lsize K)
    (state : Sorption n nrOfRegions K × SorptionConcentrations n nSubst lsize K) :
    run libm rootFinder substanceIds (.ok state) (.computeOneStep input) =
      Sorption.computeOneStep libm rootFinder substanceIds state input := by
  change upTo libm rootFinder substanceIds _ _ state = _
  unfold upTo tables Sorption.computeOneStep
  cases changed : input.changedDuringSetTime.all with
  | true =>
      simp only [makes, changed, if_true]
      rfl
  | false =>
      simp only [makes, changed, Bool.false_eq_true, if_false]
      rfl

theorem upTo_of_run
    {state : Except (SorptionError K)
      (Sorption n nrOfRegions K × SorptionConcentrations n nSubst lsize K)}
    {call : Call n nrOfRegions lsize K}
    {after : Sorption n nrOfRegions K × SorptionConcentrations n nSubst lsize K}
    (ran : run libm rootFinder substanceIds state call = .ok after) :
    ∃ reached, state = .ok reached ∧
      call.upTo libm rootFinder substanceIds call.elements reached = .ok after := by
  unfold run at ran
  exact bind_ok ran

/-- All along the call, every table describes the isotherm that the current data give. -/
def KeepsCurrent (libm : Libm K) (rootFinder : RootFinder K)
    (substanceIds : Fin (n + 1) → Fin nSubst)
    (state : Except (SorptionError K)
      (Sorption n nrOfRegions K × SorptionConcentrations n nSubst lsize K))
    (call : Call n nrOfRegions lsize K) : Prop :=
  ∀ elements, elements <+: call.elements → ∀ reached ∈ state.toOption, ∀ after,
    call.upTo libm rootFinder substanceIds elements reached = .ok after →
      TablesCurrent libm rootFinder call.input after.1

/-- The condition on a call and the state before it. -/
def Keeps (libm : Libm K)
    (state : Except (SorptionError K)
      (Sorption n nrOfRegions K × SorptionConcentrations n nSubst lsize K))
    (call : Call n nrOfRegions lsize K) : Prop :=
  ∀ reached ∈ state.toOption, KeepsTables libm (call.makes = true) call.input reached.1

theorem upTo_keeps [IsStrictOrderedRing K] {call : Call n nrOfRegions lsize K}
    {elements : List (Fin lsize)}
    {state after : Sorption n nrOfRegions K × SorptionConcentrations n nSubst lsize K}
    (own : OwnTables libm rootFinder state.1)
    (condition : KeepsTables libm (call.makes = true) call.input state.1)
    (ran : call.upTo libm rootFinder substanceIds elements state = .ok after) :
    OwnTables libm rootFinder after.1 ∧ AllMatch libm call.input after.1 := by
  obtain ⟨sorption, made, ran⟩ := bind_ok ran
  unfold tables at made
  cases makes : call.makes with
  | true =>
      rw [makes] at made condition
      obtain ⟨_, ownMade, matching⟩ := makeTables_keeps
        ⟨fun _ => condition.fresh rfl, fun _ => condition.uniform rfl, condition.kept⟩ own made
      exact foldlM_computeReaction_keeps ownMade matching ran
  | false =>
      rw [makes] at made
      cases made
      exact foldlM_computeReaction_keeps own condition.kept ran

/-- In every run from empty tables whose calls meet the condition, all tables are current. -/
theorem run_keepsCurrent [IsStrictOrderedRing K] {sorption : Sorption n nrOfRegions K}
    {concentrations : SorptionConcentrations n nSubst lsize K}
    {calls : List (Call n nrOfRegions lsize K)}
    (empty : ∀ regIdx iSubst, (sorption.isotherms regIdx iSubst).interpolationTable = [])
    (conditions : AlongRun (run libm rootFinder substanceIds) (Keeps libm)
      (.ok (sorption, concentrations)) calls) :
    AlongRun (run libm rootFinder substanceIds) (KeepsCurrent libm rootFinder substanceIds)
      (.ok (sorption, concentrations)) calls := by
  refine AlongRun.of_invariant
    (fun state => ∀ reached ∈ state.toOption, OwnTables libm rootFinder reached.1) ?_ ?_ ?_
    conditions
  · intro state call own condition after ended
    obtain ⟨reached, rfl, ran⟩ := upTo_of_run (ok_of_mem_toOption ended)
    exact (upTo_keeps (own reached rfl) (condition reached rfl) ran).1
  · intro state call own condition elements initial reached isState after ran
    obtain ⟨ownAfter, matching⟩ :=
      upTo_keeps (own reached isState) (condition reached isState) ran
    exact tablesCurrent_of_allMatch ownAfter matching
  · intro reached start
    cases start
    intro regIdx iSubst filled
    exact absurd (empty regIdx iSubst) filled

/-! ## One linear species -/

/-- `c_s = c_a` everywhere, with the porosity one half and all other data one. -/
def oneLinear (changed : Bool) : SorptionInput 0 1 1 ℚ where
  changedDuringSetTime := ⟨changed, changed, changed, changed, changed, changed⟩
  bulk := [0]
  constAccessor := fun _ => ⟨true, true, true, true, true, true⟩
  regionData := fun _ => ⟨1, fun _ => .linear, fun _ => 1, fun _ => 0, 1 / 2, 0, 1⟩
  region := fun _ => 0
  elementData := fun _ => ⟨1, fun _ => .linear, fun _ => 1, fun _ => 0, 1 / 2, 0, 1⟩
  bulk_nodup := List.nodup_singleton _
  constant := fun _ _ => rfl

/-- One point of the table besides the start; there are no tables yet. -/
def oneSpecies : Sorption 0 1 ℚ where
  nrOfPoints := 1
  solventDens := 1
  molarMasses := fun _ => 1
  cAqMax := fun _ => 1
  isotherms := fun _ _ => ⟨.none, 0, 0, 0, false, 0, 0, 0, 0, 0, [], 0⟩

def noConcentrations : SorptionConcentrations 0 1 1 ℚ := ⟨fun _ _ => 0, fun _ _ => 0⟩

def noLibm : Libm ℚ := ⟨fun _ _ => 0, fun _ => 0⟩

/-- The number of points and the size of the table, if the calls do not fail. -/
def tableSize (calls : List (Call 0 1 1 ℚ)) : Option (ℤ × ℕ) :=
  (calls.foldl (run noLibm secant id) (.ok (oneSpecies, noConcentrations))).toOption.map
    fun reached =>
      (reached.1.nrOfPoints, (reached.1.isotherms 0 0).interpolationTable.length)

theorem oneLinear_keepsTables :
    KeepsTables noLibm True (oneLinear true) oneSpecies := by
  constructor
  · intro _ regIdx _ iSubst
    rfl
  · intro _ locEl _ iSubst _
    rfl
  · intro locEl iSubst filled
    exact absurd rfl filled

theorem run_keepsCurrent_oneLinear :
    AlongRun (run noLibm secant id) (KeepsCurrent noLibm secant id)
        (.ok (oneSpecies, noConcentrations))
        [.prepareInputs (oneLinear true), .computeOneStep (oneLinear false)] ∧
      tableSize [.prepareInputs (oneLinear true), .computeOneStep (oneLinear false)] =
        some (1, 2) := by
  refine ⟨run_keepsCurrent (fun _ _ => rfl) ⟨?_, ?_, trivial⟩, by decide +kernel⟩
  · intro reached start
    cases start
    exact ⟨fun _ => oneLinear_keepsTables.fresh trivial,
      fun _ => oneLinear_keepsTables.uniform trivial, oneLinear_keepsTables.kept⟩
  · intro reached ended
    obtain ⟨initial, start, ran⟩ := upTo_of_run (ok_of_mem_toOption ended)
    cases start
    obtain ⟨sorption, made, ran⟩ := bind_ok ran
    cases ran
    have empty : OwnTables noLibm secant oneSpecies := by
      intro regIdx iSubst filled
      exact absurd rfl filled
    obtain ⟨_, _, matching⟩ := makeTables_keeps oneLinear_keepsTables empty made
    exact ⟨nofun, nofun, matching⟩

/-- A table that is built anew gets twice its size. -/
theorem not_always_keepsCurrent :
    ¬ ∀ calls : List (Call 0 1 1 ℚ),
      AlongRun (run noLibm secant id) (KeepsCurrent noLibm secant id)
        (.ok (oneSpecies, noConcentrations)) calls := by
  intro always
  have size : tableSize [.prepareInputs (oneLinear true), .computeOneStep (oneLinear true)] =
      some (1, 4) := by
    decide +kernel
  obtain ⟨after, ended, sizes⟩ := Option.map_eq_some_iff.mp size
  obtain ⟨reached, first, ran⟩ := upTo_of_run (ok_of_mem_toOption ended)
  obtain ⟨_, second, _⟩ :=
    always [.prepareInputs (oneLinear true), .computeOneStep (oneLinear true)]
  have isState : reached ∈ (run noLibm secant id (.ok (oneSpecies, noConcentrations))
      (.prepareInputs (oneLinear true))).toOption := by
    rw [first]
    rfl
  obtain ⟨points, length⟩ := Prod.mk.inj sizes
  have filled : (after.1.isotherms 0 0).interpolationTable ≠ [] := by
    intro isEmpty
    rw [isEmpty] at length
    cases length
  obtain ⟨_, _, entries, sameTable, count, _⟩ :=
    second _ (List.prefix_refl _) reached isState after ran 0 0 filled
  rw [points] at count
  have twice := congrArg List.length sameTable
  rw [List.length_map, count] at twice
  have impossible := twice.symm.trans length
  cases impossible

end Call

end Sorption

end Flow123d
