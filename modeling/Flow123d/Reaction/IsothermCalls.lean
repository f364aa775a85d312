import Flow123d.Reaction.IsothermBracket

/-!
# When every call of the root finder brackets a root

The calls of the reaction, of the projection and of the table.
-/

set_option autoImplicit false

namespace Flow123d

open Flow123d.Library

namespace Isotherm

/-! ## The ways to the root finder -/

/-- The mass is beyond the table. -/
def BeyondTable (isotherm : Isotherm ℝ) (conc : ConcPair ℝ) : Prop :=
  0 ≤ ⌊isotherm.totalMass conc / isotherm.totalMassStep⌋ ∧
    isotherm.interpolationTable.length - 1 ≤
      ⌊isotherm.totalMass conc / isotherm.totalMassStep⌋.toNat

/-- The reaction of the pair calls the root finder. -/
def Solves (isotherm : Isotherm ℝ) (conc : ConcPair ℝ) : Prop :=
  isotherm.adsorptionType ≠ .other ∧
    if isotherm.isPrecomputed then
      isotherm.limitedSolubilityOn = false ∧ isotherm.BeyondTable conc
    else ¬ (isotherm.limitedSolubilityOn = true ∧ conc.1 > isotherm.tableLimit)

section Calls

variable {solver : BracketSolver ℝ} {isotherm : Isotherm ℝ} {conc : ConcPair ℝ}

theorem func_of_known (known : isotherm.adsorptionType ≠ .other) :
    ∃ func, isotherm.func Libm.real = some func := by
  unfold func
  cases adsorptionType : isotherm.adsorptionType with
  | none => exact ⟨_, rfl⟩
  | linear => exact ⟨_, rfl⟩
  | freundlich => exact ⟨_, rfl⟩
  | langmuir => exact ⟨_, rfl⟩
  | other => exact absurd adsorptionType known

theorem computeProjection_beyond {rootFinder : RootFinder ℝ}
    (beyond : isotherm.BeyondTable conc) :
    isotherm.computeProjection Libm.real rootFinder conc =
      if isotherm.limitedSolubilityOn then isotherm.precipitate conc
      else isotherm.solveConc Libm.real rootFinder conc := by
  have index := not_lt.mpr beyond.1
  have outside := not_lt.mpr beyond.2
  simp only [computeProjection, index, outside, if_false]

theorem computeReaction_of_solves {rootFinder : RootFinder ℝ} {func : ℝ → Option ℝ}
    (solves : isotherm.Solves conc) (known : isotherm.func Libm.real = some func) :
    isotherm.computeReaction Libm.real rootFinder conc =
      isotherm.solveConcWith rootFinder func conc := by
  have solved : isotherm.solveConc Libm.real rootFinder conc =
      isotherm.solveConcWith rootFinder func conc := by
    simp only [solveConc, known]
  have way := solves.2
  unfold computeReaction
  split at way
  case isTrue precomputed =>
    rw [if_pos precomputed, computeProjection_beyond way.2, way.1]
    exact solved
  case isFalse empty =>
    have dissolved : ¬ (isotherm.limitedSolubilityOn &&
        decide (conc.1 > isotherm.tableLimit)) = true := by
      simpa using way
    rw [if_neg empty, if_neg dissolved]
    exact solved

/-! ## Soundness of the calls -/

/-- The pair that is returned after a call comes from its bracket, and so do the points of
a table. -/
structure CallsSound (solver : BracketSolver ℝ) (isotherm : Isotherm ℝ) (conc : ConcPair ℝ)
    (nrOfPoints : ℤ) : Prop where
  reaction : isotherm.Solves conc → ∃ func ∈ isotherm.func Libm.real, ∃ after,
    isotherm.computeReaction Libm.real solver.solve conc = .ok after ∧
      isotherm.SolvedTo solver func conc after
  table : isotherm.adsorptionType ≠ .other → 0 ≤ isotherm.tableSteps nrOfPoints →
    isotherm.TableSound solver nrOfPoints

/-- The reaction that solves has its mass inside the bounds; a table is not built for the
exponent zero. -/
structure CallsBounded (isotherm : Isotherm ℝ) (conc : ConcPair ℝ) (nrOfPoints : ℤ) :
    Prop where
  reaction : isotherm.Solves conc → ∃ func ∈ isotherm.func Libm.real,
    isotherm.BoundsHold func (isotherm.totalMass conc)
  table : 0 ≤ isotherm.tableSteps nrOfPoints → isotherm.adsorptionType = .freundlich →
    isotherm.secondCoef = 0 → isotherm.multCoef = 0

variable (physical : isotherm.Physical)

include physical

theorem reaction_sound_iff (nonneg : 0 ≤ isotherm.totalMass conc)
    (solves : isotherm.Solves conc) :
    (∃ func ∈ isotherm.func Libm.real, ∃ after,
      isotherm.computeReaction Libm.real solver.solve conc = .ok after ∧
        isotherm.SolvedTo solver func conc after) ↔
      ∃ func ∈ isotherm.func Libm.real,
        isotherm.BoundsHold func (isotherm.totalMass conc) := by
  constructor
  · rintro ⟨func, known, after, computed, solved⟩
    rw [computeReaction_of_solves solves known] at computed
    exact ⟨func, known, (solveConcWith_sound_iff physical (physical.curve known) nonneg).mp
      ⟨after, computed, solved⟩⟩
  · rintro ⟨func, known, bounds⟩
    rw [computeReaction_of_solves solves known]
    exact ⟨func, known, (solveConcWith_sound_iff physical (physical.curve known) nonneg).mpr
      bounds⟩

theorem table_sound_iff {nrOfPoints : ℤ} (known : isotherm.adsorptionType ≠ .other)
    (growing : 0 ≤ isotherm.tableSteps nrOfPoints) :
    isotherm.TableSound solver nrOfPoints ↔
      (isotherm.adsorptionType = .freundlich → isotherm.secondCoef = 0 →
        isotherm.multCoef = 0) := by
  constructor
  · rintro ⟨func, known, made, _, built, _⟩ freundlich exponent
    by_contra sorbing
    rw [makeTable_of_sorbing physical known freundlich exponent sorbing growing] at built
    cases built
  · intro origin
    obtain ⟨func, known⟩ := func_of_known known
    obtain ⟨points, built, length, sound⟩ :=
      @makeTable_of_origin solver func _ physical known origin _ growing
    refine ⟨func, known, _, points, built, rfl, length, ?_⟩
    intro i point listed
    obtain ⟨bracket, found, on⟩ := sound i point listed
    exact ⟨bracket, found, on.nonneg, on.encloses, on.middle, on.conserved⟩

/-- For every physical isotherm, with any table and limit, and every nonnegative pair. -/
theorem calls_sound_iff (aqua : 0 ≤ conc.1) (sorbed : 0 ≤ conc.2) (nrOfPoints : ℤ) :
    isotherm.CallsSound solver conc nrOfPoints ↔ isotherm.CallsBounded conc nrOfPoints := by
  have nonneg : 0 ≤ isotherm.totalMass conc :=
    add_nonneg (mul_nonneg physical.scaleAqua.le aqua)
      (mul_nonneg physical.scaleSorbed.le sorbed)
  constructor
  · intro sound
    refine ⟨?_, ?_⟩
    · intro solves
      exact (reaction_sound_iff physical nonneg solves).mp (sound.reaction solves)
    · intro growing freundlich
      have known : isotherm.adsorptionType ≠ .other := by
        rw [freundlich]
        decide
      exact (table_sound_iff physical known growing).mp (sound.table known growing) freundlich
  · intro bounded
    refine ⟨?_, ?_⟩
    · intro solves
      exact (reaction_sound_iff physical nonneg solves).mpr (bounded.reaction solves)
    · intro known growing
      exact (table_sound_iff physical known growing).mpr (bounded.table growing)

end Calls

/-! ## The unlimited linear isotherm -/

/-- `c_s = c_a` with unit scales and the default solubility, without a table. -/
noncomputable def unlimitedLinear : Isotherm ℝ where
  adsorptionType := .linear
  multCoef := 1
  secondCoef := 0
  tableLimit := -1
  limitedSolubilityOn := false
  rhoAqua := 1
  scaleAqua := 1
  scaleSorbed := 1
  invScaleAqua := 1 / 2
  invScaleSorbed := 1 / 2
  interpolationTable := []
  totalMassStep := 0

theorem unlimitedLinear_physical (limit : ℝ) :
    ({ unlimitedLinear with tableLimit := limit } : Isotherm ℝ).Physical :=
  ⟨zero_le_one, le_refl 0, one_pos, one_pos, one_pos⟩

theorem calls_sound_unlimitedLinear :
    ({ unlimitedLinear with tableLimit := 1 } : Isotherm ℝ).CallsSound BracketSolver.atEnds
      (0, 0) 0 := by
  refine (calls_sound_iff (unlimitedLinear_physical 1) (le_refl 0) (le_refl 0) 0).mpr ?_
  constructor
  · intro _
    refine ⟨Linear 1, rfl, ?_⟩
    constructor
    · intro freundlich
      cases freundlich
    · refine ⟨_, rfl, ?_, ?_⟩
      · norm_num [unlimitedLinear]
      · norm_num [unlimitedLinear, totalMass, massAt, value]
  · intro _ freundlich
    cases freundlich

theorem not_always_calls_sound :
    ¬ ∀ (solver : BracketSolver ℝ) (isotherm : Isotherm ℝ) (conc : ConcPair ℝ)
      (nrOfPoints : ℤ), isotherm.Physical → isotherm.Prepared → 0 ≤ conc.1 → 0 ≤ conc.2 →
      isotherm.CallsSound solver conc nrOfPoints := by
  intro always
  have prepared : unlimitedLinear.Prepared := by
    constructor
    · norm_num [unlimitedLinear]
    · norm_num [unlimitedLinear]
    · intro limited
      cases limited
  have sound := always BracketSolver.atEnds unlimitedLinear (1, 1) 0
    (unlimitedLinear_physical (-1)) prepared zero_le_one zero_le_one
  have solves : unlimitedLinear.Solves (1, 1) := by
    refine ⟨by decide, ?_⟩
    simp [unlimitedLinear, isPrecomputed]
  have nonneg : 0 ≤ unlimitedLinear.totalMass (1, 1) := by
    norm_num [unlimitedLinear, totalMass]
  obtain ⟨func, known, bounds⟩ := (reaction_sound_iff (unlimitedLinear_physical (-1)) nonneg
    solves).mp (sound.reaction solves)
  cases known
  obtain ⟨bound, same, positive, _⟩ := bounds.upper
  cases same
  norm_num [unlimitedLinear] at positive

end Isotherm

end Flow123d
