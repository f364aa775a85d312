import Flow123d.Library.Fold
import Flow123d.Reaction.Sorption

/-!
# The tables of the sorption

A table is filled by appending, and rebuilt only when all fields have changed. It describes
the current isotherm in the runs that build it once and keep its parameters.
-/

set_option autoImplicit false

namespace Flow123d

open Flow123d.Library

namespace Isotherm

variable {K : Type} [Field K] [LinearOrder K] [FloorRing K]

/-- `table_limit_` as `make_table` leaves it. -/
def tableBound (isotherm : Isotherm K) : K :=
  if isotherm.tableLimit ≤ 0 then 1 else isotherm.tableLimit

/-- Everything that a table depends on is the same. -/
structure SameIsotherm (libm : Libm K) (first second : Isotherm K) : Prop where
  func : first.func libm = second.func libm
  tableSteps : ∀ nrOfPoints, first.tableSteps nrOfPoints = second.tableSteps nrOfPoints
  tableBound : first.tableBound = second.tableBound
  rhoAqua : first.rhoAqua = second.rhoAqua
  scaleAqua : first.scaleAqua = second.scaleAqua
  scaleSorbed : first.scaleSorbed = second.scaleSorbed

/-- The pair of the isotherm at a mass of the table. -/
def tablePoint (rootFinder : RootFinder K) (func : K → Option K) (isotherm : Isotherm K)
    (mass : K) : Except (IsothermError K) (ConcPair K) :=
  ({ isotherm with tableLimit := isotherm.tableBound } : Isotherm K).solveConcWith rootFinder
    func (isotherm.tableConc mass)

/-- A table that is not empty has one entry more than steps, and the entry `i` is the rotated
sorbed coordinate of the isotherm at the mass `i * step`. -/
def Describes (libm : Libm K) (rootFinder : RootFinder K) (nrOfPoints : ℤ)
    (current : Isotherm K) (table : List K) (step : K) : Prop :=
  table ≠ [] → ∃ func ∈ current.func libm, ∃ points : List (ConcPair K),
    table = points.map current.rotSorbed ∧
      points.length = (current.tableSteps nrOfPoints + 1).toNat ∧
      ∀ (i : ℕ) point, points[i]? = some point →
        current.tablePoint rootFinder func (i * step) = .ok point

variable {libm : Libm K} {rootFinder : RootFinder K} {nrOfPoints : ℤ}

namespace SameIsotherm

variable {first second third : Isotherm K}

theorem symm (same : SameIsotherm libm first second) : SameIsotherm libm second first where
  func := same.func.symm
  tableSteps := fun nrOfPoints => (same.tableSteps nrOfPoints).symm
  tableBound := same.tableBound.symm
  rhoAqua := same.rhoAqua.symm
  scaleAqua := same.scaleAqua.symm
  scaleSorbed := same.scaleSorbed.symm

theorem trans (same : SameIsotherm libm first second) (also : SameIsotherm libm second third) :
    SameIsotherm libm first third where
  func := same.func.trans also.func
  tableSteps := fun nrOfPoints => (same.tableSteps nrOfPoints).trans (also.tableSteps nrOfPoints)
  tableBound := same.tableBound.trans also.tableBound
  rhoAqua := same.rhoAqua.trans also.rhoAqua
  scaleAqua := same.scaleAqua.trans also.scaleAqua
  scaleSorbed := same.scaleSorbed.trans also.scaleSorbed

end SameIsotherm

omit [FloorRing K] in
theorem tablePoint_congr {first second : Isotherm K} {func : K → Option K}
    (tableBound : first.tableBound = second.tableBound)
    (rhoAqua : first.rhoAqua = second.rhoAqua) (scaleAqua : first.scaleAqua = second.scaleAqua)
    (scaleSorbed : first.scaleSorbed = second.scaleSorbed) (mass : K) :
    first.tablePoint rootFinder func mass = second.tablePoint rootFinder func mass := by
  unfold tablePoint
  rw [tableBound]
  cases first
  cases second
  cases rhoAqua
  cases scaleAqua
  cases scaleSorbed
  rfl

omit [FloorRing K] in
theorem tablePoint_of_bounded {bounded : Isotherm K} {func : K → Option K}
    (fixed : bounded.tableBound = bounded.tableLimit) (mass : K) :
    bounded.tablePoint rootFinder func mass =
      bounded.solveConcWith rootFinder func (bounded.tableConc mass) := by
  unfold tablePoint
  rw [fixed]

theorem Describes.congr {first second : Isotherm K} {table : List K} {step : K}
    (described : Describes libm rootFinder nrOfPoints first table step)
    (same : SameIsotherm libm first second) :
    Describes libm rootFinder nrOfPoints second table step := by
  intro filled
  obtain ⟨func, known, points, entries, length, solved⟩ := described filled
  have rotation : first.rotSorbed = second.rotSorbed := by
    funext conc
    rw [rotSorbed, rotSorbed, same.scaleAqua, same.scaleSorbed]
  refine ⟨func, same.func ▸ known, points, rotation ▸ entries,
    same.tableSteps nrOfPoints ▸ length, ?_⟩
  intro i point listed
  rw [← tablePoint_congr same.tableBound same.rhoAqua same.scaleAqua same.scaleSorbed]
  exact solved i point listed

/-! ## Building a table -/

omit [LinearOrder K] [FloorRing K] in
theorem fillTable_points {func : K → Option K} {made : Isotherm K} (count : ℕ) (first : ℕ)
    (isotherm : Isotherm K)
    (filled : fillTable rootFinder func count (first * isotherm.totalMassStep) isotherm =
      .ok made) :
    ∃ points : List (ConcPair K),
      made = { isotherm with interpolationTable :=
        isotherm.interpolationTable ++ points.map isotherm.rotSorbed } ∧
      points.length = count ∧
      ∀ (i : ℕ) point, points[i]? = some point → isotherm.solveConcWith rootFinder func
        (isotherm.tableConc ((first + i : ℕ) * isotherm.totalMassStep)) = .ok point := by
  induction count generalizing first isotherm with
  | zero =>
      cases filled
      refine ⟨[], by simp, rfl, ?_⟩
      intro i point listed
      cases listed
  | succ count ih =>
      rw [fillTable] at filled
      obtain ⟨after, solved, rest⟩ := bind_ok filled
      have next : (first : K) * isotherm.totalMassStep + isotherm.totalMassStep =
          ((first + 1 : ℕ) : K) * isotherm.totalMassStep := by
        push_cast
        ring
      rw [next] at rest
      obtain ⟨points, rfl, length, others⟩ := ih (first + 1)
        { isotherm with interpolationTable :=
            isotherm.interpolationTable ++ [isotherm.rotSorbed after] } rest
      refine ⟨after :: points, by simp [rotSorbed], by rw [List.length_cons, length], ?_⟩
      intro i point listed
      cases i with
      | zero =>
          cases listed
          exact solved
      | succ i =>
          rw [show first + (i + 1) = first + 1 + i by omega]
          exact others i point listed

/-- What a call of `make_table` does. -/
theorem makeTable_cases {isotherm made : Isotherm K}
    (built : isotherm.makeTable libm rootFinder nrOfPoints = .ok made) :
    isotherm.func libm = none ∧ made = isotherm ∨
      ∃ func ∈ isotherm.func libm, ∃ step,
        fillTable rootFinder func (isotherm.tableSteps nrOfPoints + 1).toNat 0
          { isotherm with tableLimit := isotherm.tableBound, totalMassStep := step } =
            .ok made := by
  unfold makeTable at built
  cases known : isotherm.func libm with
  | none =>
      rw [known] at built
      cases built
      exact .inl ⟨rfl, rfl⟩
  | some func =>
      rw [known] at built
      simp only [makeTableWith] at built
      cases sorbed : func ((if isotherm.tableLimit ≤ 0 then 1 else isotherm.tableLimit) /
          isotherm.rhoAqua) with
      | none =>
          rw [sorbed] at built
          cases built
      | some value =>
          rw [sorbed] at built
          exact .inr ⟨func, rfl, _, built⟩

theorem func_other {isotherm : Isotherm K} (other : isotherm.adsorptionType = .other) :
    isotherm.func libm = none := by
  rw [func, other]

omit [FloorRing K] in
theorem tableBound_pos (isotherm : Isotherm K) [IsStrictOrderedRing K] :
    0 < isotherm.tableBound := by
  unfold tableBound
  split
  case isTrue => exact one_pos
  case isFalse positive => exact not_le.mp positive

/-- A table built where there was none describes the isotherm. -/
theorem makeTable_describes [IsStrictOrderedRing K] {isotherm made : Isotherm K}
    (empty : isotherm.interpolationTable = [])
    (built : isotherm.makeTable libm rootFinder nrOfPoints = .ok made) :
    Describes libm rootFinder nrOfPoints made made.interpolationTable made.totalMassStep ∧
      SameIsotherm libm isotherm made ∧
      (made.interpolationTable ≠ [] → isotherm.func libm ≠ none) := by
  rcases makeTable_cases built with ⟨_, rfl⟩ | ⟨func, known, step, filled⟩
  · refine ⟨?_, ⟨rfl, fun _ => rfl, rfl, rfl, rfl, rfl⟩, ?_⟩
    · intro filled
      exact absurd empty filled
    · intro filled
      exact absurd empty filled
  · have start : (0 : K) = ((0 : ℕ) : K) * step := by simp
    rw [start] at filled
    obtain ⟨points, rfl, length, solved⟩ := fillTable_points _ 0
      { isotherm with tableLimit := isotherm.tableBound, totalMassStep := step } filled
    have bound (other : Isotherm K) (same : other.tableLimit = isotherm.tableBound) :
        other.tableBound = isotherm.tableBound := by
      have positive := isotherm.tableBound_pos
      rw [← same] at positive ⊢
      exact if_neg (not_le.mpr positive)
    refine ⟨?_, ⟨rfl, fun _ => rfl, (bound _ rfl).symm, rfl, rfl, rfl⟩, ?_⟩
    · intro _
      refine ⟨func, known, points, ?_, length, ?_⟩
      · rw [empty]
        rfl
      · intro i point listed
        have entry := solved i point listed
        rw [Nat.zero_add] at entry
        refine (tablePoint_of_bounded ?_ _).trans entry
        exact bound _ rfl
    · intro _ unknown
      rw [unknown] at known
      cases known

end Isotherm

/-! ## The tables of the regions -/

namespace Sorption

open Isotherm

variable {n nrOfRegions nSubst lsize : ℕ} {K : Type} [Field K] [LinearOrder K] [FloorRing K]
  {libm : Libm K} {rootFinder : RootFinder K}

/-- The data at an element give the isotherm that its region has. -/
def Matches (libm : Libm K) (input : SorptionInput n nrOfRegions lsize K)
    (sorption : Sorption n nrOfRegions K) (locEl : Fin lsize) (iSubst : Fin (n + 1)) : Prop :=
  SameIsotherm libm
    (sorption.reinitialised (input.elementData locEl) iSubst
      (sorption.isotherms (input.region locEl) iSubst))
    (sorption.isotherms (input.region locEl) iSubst)

/-- For every local element, the table with which a species is interpolated describes the
isotherm that the current data give. -/
def TablesCurrent (libm : Libm K) (rootFinder : RootFinder K)
    (input : SorptionInput n nrOfRegions lsize K) (sorption : Sorption n nrOfRegions K) : Prop :=
  ∀ locEl iSubst, Describes libm rootFinder sorption.nrOfPoints
    (sorption.reinitialised (input.elementData locEl) iSubst
      (sorption.isotherms (input.region locEl) iSubst))
    (sorption.isotherms (input.region locEl) iSubst).interpolationTable
    (sorption.isotherms (input.region locEl) iSubst).totalMassStep

/-- The region gets its tables when tables are made. -/
def Tabulated (input : SorptionInput n nrOfRegions lsize K) (regIdx : Fin nrOfRegions) : Prop :=
  regIdx ∈ input.bulk ∧ (input.constAccessor regIdx).all = true

/-- Tables are made only where there are none and where the elements have the type of the
isotherm of their region; the data of an isotherm that has a table stay. -/
structure KeepsTables (libm : Libm K) (makes : Prop)
    (input : SorptionInput n nrOfRegions lsize K) (sorption : Sorption n nrOfRegions K) :
    Prop where
  fresh : makes → ∀ regIdx, Tabulated input regIdx →
    ∀ iSubst, (sorption.isotherms regIdx iSubst).interpolationTable = []
  uniform : makes → ∀ locEl, Tabulated input (input.region locEl) → ∀ iSubst,
    (input.regionData (input.region locEl)).sorptionTypes iSubst ≠ .other →
      (input.elementData locEl).sorptionTypes iSubst =
        (input.regionData (input.region locEl)).sorptionTypes iSubst
  kept : ∀ locEl iSubst,
    (sorption.isotherms (input.region locEl) iSubst).interpolationTable ≠ [] →
      Matches libm input sorption locEl iSubst

/-- The tables describe the isotherms of the regions. -/
def OwnTables (libm : Libm K) (rootFinder : RootFinder K) (sorption : Sorption n nrOfRegions K) :
    Prop :=
  ∀ regIdx iSubst, Describes libm rootFinder sorption.nrOfPoints
    (sorption.isotherms regIdx iSubst)
    (sorption.isotherms regIdx iSubst).interpolationTable
    (sorption.isotherms regIdx iSubst).totalMassStep

def AllMatch (libm : Libm K) (input : SorptionInput n nrOfRegions lsize K)
    (sorption : Sorption n nrOfRegions K) : Prop :=
  ∀ locEl iSubst, (sorption.isotherms (input.region locEl) iSubst).interpolationTable ≠ [] →
    Matches libm input sorption locEl iSubst

theorem tablesCurrent_of_allMatch {input : SorptionInput n nrOfRegions lsize K}
    {sorption : Sorption n nrOfRegions K} (own : OwnTables libm rootFinder sorption)
    (matching : AllMatch libm input sorption) :
    TablesCurrent libm rootFinder input sorption := by
  intro locEl iSubst filled
  exact (own (input.region locEl) iSubst).congr (matching locEl iSubst filled).symm filled

/-! ## Making the tables -/

theorem makeRegionTables_spec {nrOfPoints : ℤ} {isotherms made : Fin (n + 1) → Isotherm K}
    (built : makeRegionTables libm rootFinder nrOfPoints isotherms = .ok made)
    (iSubst : Fin (n + 1)) :
    (isotherms iSubst).makeTable libm rootFinder nrOfPoints = .ok (made iSubst) := by
  have one := (foldlM_update (List.nodup_finRange _) built).1 iSubst (List.mem_finRange _)
  unfold Sorption.makeTable at one
  split at one
  · cases one
  case h_2 computed =>
    cases one
    exact computed

omit [FloorRing K] in
theorem isothermReinit_spec {data : SorptionData n K} {sorption : Sorption n nrOfRegions K}
    {isotherms after : Fin (n + 1) → Isotherm K}
    (ran : isothermReinit data sorption isotherms = .ok after) (iSubst : Fin (n + 1)) :
    after iSubst = sorption.reinitialised data iSubst (isotherms iSubst) := by
  unfold isothermReinit at ran
  split at ran
  · cases ran
  · cases ran
    rfl

/-- The states of a sorption that differ in the isotherms only. -/
def SameSetting (first second : Sorption n nrOfRegions K) : Prop :=
  first = { second with isotherms := first.isotherms }

theorem makeTablesOf_spec {input : SorptionInput n nrOfRegions lsize K}
    {sorption after : Sorption n nrOfRegions K} {regIdx : Fin nrOfRegions}
    (ran : makeTablesOf libm rootFinder input sorption regIdx = .ok after) :
    SameSetting after sorption ∧
      ((input.constAccessor regIdx).all = true → ∀ iSubst,
        (sorption.reinitialised (input.regionData regIdx) iSubst
          (sorption.isotherms regIdx iSubst)).makeTable libm rootFinder sorption.nrOfPoints =
            .ok (after.isotherms regIdx iSubst)) ∧
      ∀ other, ¬ (other = regIdx ∧ (input.constAccessor regIdx).all = true) →
        after.isotherms other = sorption.isotherms other := by
  unfold makeTablesOf at ran
  split at ran
  case isTrue constant =>
    obtain ⟨reinitialised, initialised, ran⟩ := bind_ok ran
    obtain ⟨made, built, ran⟩ := bind_ok ran
    cases ran
    refine ⟨rfl, ?_, ?_⟩
    · intro _ iSubst
      have one := makeRegionTables_spec built iSubst
      rw [isothermReinit_spec initialised iSubst] at one
      rw [setIsotherms_self]
      exact one
    · intro other outside
      exact setIsotherms_of_ne fun same => outside ⟨same, constant⟩
  case isFalse varying =>
    cases ran
    refine ⟨rfl, ?_, ?_⟩
    · intro constant
      exact absurd constant varying
    · intro _ _
      rfl

/-- What making the tables does to each region. -/
theorem makeTables_spec {input : SorptionInput n nrOfRegions lsize K}
    {sorption after : Sorption n nrOfRegions K}
    (ran : makeTables libm rootFinder input sorption = .ok after) :
    SameSetting after sorption ∧
      (∀ regIdx, Tabulated input regIdx → ∀ iSubst,
        (sorption.reinitialised (input.regionData regIdx) iSubst
          (sorption.isotherms regIdx iSubst)).makeTable libm rootFinder sorption.nrOfPoints =
            .ok (after.isotherms regIdx iSubst)) ∧
      ∀ regIdx, ¬ Tabulated input regIdx →
        after.isotherms regIdx = sorption.isotherms regIdx := by
  have loop := foldlM_preserves ran
    (fun seen state => SameSetting state sorption ∧
      (∀ regIdx, regIdx ∈ seen ∧ (input.constAccessor regIdx).all = true → ∀ iSubst,
        (sorption.reinitialised (input.regionData regIdx) iSubst
          (sorption.isotherms regIdx iSubst)).makeTable libm rootFinder sorption.nrOfPoints =
            .ok (state.isotherms regIdx iSubst)) ∧
      ∀ regIdx, ¬ (regIdx ∈ seen ∧ (input.constAccessor regIdx).all = true) →
        state.isotherms regIdx = sorption.isotherms regIdx)
    ⟨rfl, by simp, fun _ _ => rfl⟩ ?_
  · exact loop
  · rintro seen regIdx remaining state next split ⟨rest, done, untouched⟩ stepped
    obtain ⟨same, made, others⟩ := makeTablesOf_spec stepped
    have unseen : regIdx ∉ seen := by
      intro before
      have distinct := input.bulk_nodup
      rw [split, List.nodup_append] at distinct
      exact distinct.2.2 regIdx before regIdx List.mem_cons_self rfl
    unfold SameSetting at rest same ⊢
    refine ⟨by rw [same, rest], ?_, ?_⟩
    · rintro other ⟨member, constant⟩ iSubst
      rcases List.mem_append.mp member with before | here
      · rw [others other fun inside => unseen (inside.1 ▸ before)]
        exact done other ⟨before, constant⟩ iSubst
      · rw [List.mem_singleton.mp here] at constant ⊢
        have one := made constant iSubst
        rw [untouched regIdx fun inside => unseen inside.1, rest] at one
        exact one
    · intro other outside
      rw [others other fun inside => outside ⟨by simp [inside.1], inside.1 ▸ inside.2⟩]
      exact untouched other fun inside =>
        outside ⟨List.mem_append_left _ inside.1, inside.2⟩

/-- Two data that differ in the types of other species give the same isotherm. -/
theorem reinitialised_sameIsotherm {data : SorptionData n K}
    {sorptionTypes : Fin (n + 1) → SorptionType} {first second : Sorption n nrOfRegions K}
    (setting : SameSetting first second) {iSubst : Fin (n + 1)}
    (sameType : sorptionTypes iSubst = data.sorptionTypes iSubst) (old older : Isotherm K) :
    SameIsotherm libm
      (first.reinitialised { data with sorptionTypes := sorptionTypes } iSubst old)
      (second.reinitialised data iSubst older) := by
  unfold SameSetting at setting
  rw [setting]
  constructor
  · simp only [func, reinitialised, reinit, sameType]
  · intro nrOfPoints
    change (if sorptionTypes iSubst = .none then (1 : ℤ) else nrOfPoints) =
      if data.sorptionTypes iSubst = .none then 1 else nrOfPoints
    rw [sameType]
  · rfl
  · rfl
  · rfl
  · rfl

theorem matches_of_sameSetting {input : SorptionInput n nrOfRegions lsize K}
    {sorption after : Sorption n nrOfRegions K} {locEl : Fin lsize} {iSubst : Fin (n + 1)}
    (setting : SameSetting after sorption)
    (unchanged : after.isotherms (input.region locEl) = sorption.isotherms (input.region locEl))
    (matching : Matches libm input sorption locEl iSubst) :
    Matches libm input after locEl iSubst := by
  unfold Matches at matching ⊢
  rw [unchanged]
  exact (reinitialised_sameIsotherm setting rfl _ _).trans matching

/-- Under the condition, making the tables leaves tables that are current. -/
theorem makeTables_keeps [IsStrictOrderedRing K] {input : SorptionInput n nrOfRegions lsize K}
    {sorption after : Sorption n nrOfRegions K}
    (condition : KeepsTables libm True input sorption)
    (own : OwnTables libm rootFinder sorption)
    (ran : makeTables libm rootFinder input sorption = .ok after) :
    SameSetting after sorption ∧ OwnTables libm rootFinder after ∧ AllMatch libm input after := by
  obtain ⟨setting, made, others⟩ := makeTables_spec ran
  have points : after.nrOfPoints = sorption.nrOfPoints := by rw [setting]
  have built (regIdx : Fin nrOfRegions) (tabulated : Tabulated input regIdx)
      (iSubst : Fin (n + 1)) := by
    have empty : (sorption.reinitialised (input.regionData regIdx) iSubst
        (sorption.isotherms regIdx iSubst)).interpolationTable = [] :=
      condition.fresh trivial regIdx tabulated iSubst
    exact makeTable_describes empty (made regIdx tabulated iSubst)
  refine ⟨setting, ?_, ?_⟩
  · intro regIdx iSubst
    rw [points]
    by_cases tabulated : Tabulated input regIdx
    · exact (built regIdx tabulated iSubst).1
    · rw [others regIdx tabulated]
      exact own regIdx iSubst
  · intro locEl iSubst filled
    by_cases tabulated : Tabulated input (input.region locEl)
    · obtain ⟨_, same, known⟩ := built (input.region locEl) tabulated iSubst
      have sameType := condition.uniform trivial locEl tabulated iSubst
        fun other => known filled (func_other other)
      unfold Matches
      rw [input.constant locEl tabulated.2]
      exact (reinitialised_sameIsotherm setting sameType _ _).trans same
    · rw [others _ tabulated] at filled
      exact matches_of_sameSetting setting (others _ tabulated)
        (condition.kept locEl iSubst filled)

end Sorption

end Flow123d
