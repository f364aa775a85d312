import Flow123d.Reaction.IsothermCalls

/-!
# The limit of solubility

What the reaction returns as the dissolved concentration, with a table and without one,
compared with the limit.
-/

set_option autoImplicit false

namespace Flow123d

open Flow123d.Library

namespace Isotherm

/-- An isotherm with a limit of solubility, as `reinit` leaves it, without a table. -/
structure Limited (isotherm : Isotherm ℝ) : Prop where
  prepared : isotherm.Prepared
  known : isotherm.adsorptionType ≠ .other
  limitedOn : isotherm.limitedSolubilityOn = true
  empty : isotherm.interpolationTable = []

/-- The brackets of the calls for the isotherm have the relative width `eps`, the stopping
criterion that the root finder is called with. -/
def MeetsTolerance (eps : ℝ) (solver : BracketSolver ℝ) (isotherm : Isotherm ℝ) : Prop :=
  ∀ func ∈ isotherm.func Libm.real, ∀ conc,
    ∀ bracket ∈ solver.solve (isotherm.eqFunc func conc) 0 (isotherm.upperSolutionBound func),
    |bracket.1 - bracket.2| ≤ eps * max |bracket.1| |bracket.2|

/-- The dissolved concentration is at most the limit, up to the tolerance, and beyond the
mass at which the isotherm reaches the limit it is the limit. -/
structure KeepsLimit (eps limit : ℝ) (solver : BracketSolver ℝ) (isotherm : Isotherm ℝ)
    (conc : ConcPair ℝ) : Prop where
  below : ∀ after, isotherm.computeReaction Libm.real solver.solve conc = .ok after →
    after.1 ≤ limit / (1 - eps)
  beyond : isotherm.massAt limit < isotherm.totalMass conc →
    ∃ after, isotherm.computeReaction Libm.real solver.solve conc = .ok after ∧
      after.1 = limit

theorem reinit_limited (adsorptionType : SorptionType)
    (rhoAqua scaleAqua scaleSorbed cAquaLimit multCoef secondCoef : ℝ) (isotherm : Isotherm ℝ)
    (known : adsorptionType ≠ .other) (positive : 0 < cAquaLimit)
    (empty : isotherm.interpolationTable = []) :
    (isotherm.reinit adsorptionType rhoAqua scaleAqua scaleSorbed cAquaLimit multCoef
      secondCoef).Limited :=
  ⟨reinit_prepared _ _ _ _ _ _ _ _, known, decide_eq_true positive, empty⟩

section Bracket

variable {isotherm : Isotherm ℝ} {func : ℝ → Option ℝ} {eps : ℝ}

theorem OnIsotherm.le_limit {mass limit : ℝ} {bracket : ℝ × ℝ} {after : ConcPair ℝ}
    (physical : isotherm.Physical) (curve : Curve func isotherm.value)
    (solved : isotherm.OnIsotherm mass bracket after) (proper : eps < 1)
    (narrow : |bracket.1 - bracket.2| ≤ eps * max |bracket.1| |bracket.2|)
    (positive : 0 ≤ limit) (below : mass ≤ isotherm.massAt limit) :
    after.1 ≤ limit / (1 - eps) := by
  obtain ⟨x, above, toUpper, root⟩ := solved.encloses
  have lower := solved.nonneg
  have atRoot : x ≤ limit := by
    rw [← root] at below
    exact ((massAt_strictMono physical curve).le_iff_le
      (Set.mem_Ici.mpr (lower.trans above)) (Set.mem_Ici.mpr positive)).mp below
  have ordered : bracket.1 ≤ bracket.2 := above.trans toUpper
  have upper : 0 ≤ bracket.2 := lower.trans ordered
  rw [abs_sub_comm, abs_of_nonneg (sub_nonneg.mpr ordered), abs_of_nonneg lower,
    abs_of_nonneg upper, max_eq_right ordered] at narrow
  have middle := solved.middle
  have slack : 0 < 1 - eps := sub_pos.mpr proper
  rw [le_div_iff₀ slack]
  have shrunk : after.1 * (1 - eps) ≤ bracket.2 * (1 - eps) :=
    mul_le_mul_of_nonneg_right (by linarith) slack.le
  linarith

end Bracket

/-! ## With a table -/

section Table

variable {solver : BracketSolver ℝ} {isotherm : Isotherm ℝ} {func : ℝ → Option ℝ}

theorem usedLimit_eq (positive : 0 < isotherm.tableLimit) :
    isotherm.usedLimit = isotherm.tableLimit :=
  if_neg (not_le.mpr positive)

/-- What a table that has been built consists of. -/
theorem made_of_makeTable {nrOfPoints : ℤ} {made : Isotherm ℝ} (physical : isotherm.Physical)
    (known : isotherm.func Libm.real = some func)
    (empty : isotherm.interpolationTable = [])
    (built : isotherm.makeTable Libm.real solver.solve nrOfPoints = .ok made)
    (precomputed : made.isPrecomputed = true) :
    0 ≤ isotherm.tableSteps nrOfPoints ∧ ∃ points : List (ConcPair ℝ),
      made = isotherm.withPoints (isotherm.tableSteps nrOfPoints) points ∧
      points.length = (isotherm.tableSteps nrOfPoints + 1).toNat ∧
      (isotherm.forTable (isotherm.tableSteps nrOfPoints)).PointsFrom solver func 0 points := by
  have growing : 0 ≤ isotherm.tableSteps nrOfPoints := by
    by_contra negative
    have turns : (isotherm.tableSteps nrOfPoints + 1).toNat = 0 := by omega
    rw [makeTable_eq physical known, turns, fillTable] at built
    cases built
    simp [isPrecomputed, forTable, empty] at precomputed
  have origin : isotherm.adsorptionType = .freundlich → isotherm.secondCoef = 0 →
      isotherm.multCoef = 0 := by
    intro freundlich exponent
    by_contra sorbing
    rw [makeTable_of_sorbing physical known freundlich exponent sorbing growing] at built
    cases built
  obtain ⟨points, made, length, sound⟩ :=
    @makeTable_of_origin solver func _ physical known origin _ growing
  rw [made] at built
  cases built
  exact ⟨growing, points, rfl, length, sound⟩

/-- The rotation is undone at every point. -/
theorem Prepared.rotated_aqua (prepared : isotherm.Prepared) (physical : isotherm.Physical)
    (point : ConcPair ℝ) :
    isotherm.totalMass point * isotherm.invScaleAqua -
      isotherm.rotSorbed point * isotherm.invScaleSorbed = point.1 := by
  have aqua := physical.scaleAqua
  have sorbed := physical.scaleSorbed
  have norm : isotherm.scaleAqua * isotherm.scaleAqua +
      isotherm.scaleSorbed * isotherm.scaleSorbed ≠ 0 := by
    positivity
  unfold totalMass rotSorbed
  rw [prepared.invScaleAqua, prepared.invScaleSorbed]
  field_simp
  ring

theorem interpolated_aqua (prepared : isotherm.Prepared) (physical : isotherm.Physical)
    {low high : ConcPair ℝ} {first part step : ℝ}
    (lowMass : isotherm.totalMass low = first * step)
    (highMass : isotherm.totalMass high = (first + 1) * step) :
    (first + part) * step * isotherm.invScaleAqua -
        (isotherm.rotSorbed low +
            part * (isotherm.rotSorbed high - isotherm.rotSorbed low)) *
          isotherm.invScaleSorbed =
      (1 - part) * low.1 + part * high.1 := by
  have lowAqua := prepared.rotated_aqua physical low
  have highAqua := prepared.rotated_aqua physical high
  rw [lowMass] at lowAqua
  rw [highMass] at highAqua
  rw [← lowAqua, ← highAqua]
  ring

theorem computeProjection_inside {rootFinder : RootFinder ℝ} {conc low high : ConcPair ℝ}
    {points : List (ConcPair ℝ)} {i : ℕ}
    (table : isotherm.interpolationTable = points.map isotherm.rotSorbed)
    (index : ⌊isotherm.totalMass conc / isotherm.totalMassStep⌋ = i)
    (first : points[i]? = some low) (second : points[i + 1]? = some high) :
    isotherm.computeProjection Libm.real rootFinder conc =
      .ok (isotherm.totalMass conc * isotherm.invScaleAqua -
          (isotherm.rotSorbed low +
              (isotherm.totalMass conc / isotherm.totalMassStep - (i : ℤ)) *
                (isotherm.rotSorbed high - isotherm.rotSorbed low)) *
            isotherm.invScaleSorbed,
        isotherm.totalMass conc * isotherm.invScaleSorbed +
          (isotherm.rotSorbed low +
              (isotherm.totalMass conc / isotherm.totalMassStep - (i : ℤ)) *
                (isotherm.rotSorbed high - isotherm.rotSorbed low)) *
            isotherm.invScaleAqua) := by
  have inside : i < isotherm.interpolationTable.length - 1 := by
    have bound := (List.getElem?_eq_some_iff.mp second).1
    rw [table, List.length_map]
    omega
  have atLow : isotherm.interpolationTable.getD i 0 = isotherm.rotSorbed low := by
    simp [table, first]
  have atHigh : isotherm.interpolationTable.getD (i + 1) 0 = isotherm.rotSorbed high := by
    simp [table, second]
  unfold computeProjection
  simp only [index, Int.toNat_natCast, inside, if_true, atLow, atHigh]
  exact if_neg (not_lt.mpr (Int.natCast_nonneg i))

/-- Between two entries the dissolved concentration is between those of their points. -/
theorem computeProjection_le {rootFinder : RootFinder ℝ} {conc low high after : ConcPair ℝ}
    {points : List (ConcPair ℝ)} {i : ℕ} {bound : ℝ} (prepared : isotherm.Prepared)
    (physical : isotherm.Physical)
    (table : isotherm.interpolationTable = points.map isotherm.rotSorbed)
    (index : ⌊isotherm.totalMass conc / isotherm.totalMassStep⌋ = i)
    (step : isotherm.totalMassStep ≠ 0)
    (first : points[i]? = some low) (second : points[i + 1]? = some high)
    (lowMass : isotherm.totalMass low = i * isotherm.totalMassStep)
    (highMass : isotherm.totalMass high = (i + 1 : ℕ) * isotherm.totalMassStep)
    (lowBound : low.1 ≤ bound) (highBound : high.1 ≤ bound)
    (computed : isotherm.computeProjection Libm.real rootFinder conc = .ok after) :
    after.1 ≤ bound := by
  have fract := Int.self_sub_floor (isotherm.totalMass conc / isotherm.totalMassStep)
  have start := Int.fract_nonneg (isotherm.totalMass conc / isotherm.totalMassStep)
  have ending := Int.fract_lt_one (isotherm.totalMass conc / isotherm.totalMassStep)
  rw [index] at fract
  rw [← fract] at start ending
  rw [computeProjection_inside table index first second] at computed
  cases computed
  have mass : isotherm.totalMass conc =
      (i + (isotherm.totalMass conc / isotherm.totalMassStep - (i : ℤ))) *
        isotherm.totalMassStep := by
    push_cast
    rw [add_sub_cancel, div_mul_cancel₀ _ step]
  generalize isotherm.totalMass conc / isotherm.totalMassStep - (i : ℤ) = part at *
  push_cast at highMass
  rw [mass, interpolated_aqua prepared physical lowMass highMass]
  have lowPart := mul_le_mul_of_nonneg_left lowBound (sub_nonneg.mpr ending.le)
  have highPart := mul_le_mul_of_nonneg_left highBound start
  linarith

theorem tablePoint_le {eps : ℝ} {points : List (ConcPair ℝ)} {nSteps : ℤ} {i : ℕ}
    {point : ConcPair ℝ} (physical : isotherm.Physical)
    (known : isotherm.func Libm.real = some func) (positive : 0 < isotherm.tableLimit)
    (proper : eps < 1) (meets : isotherm.MeetsTolerance eps solver)
    (sound : (isotherm.forTable nSteps).PointsFrom solver func 0 points)
    (inside : (i : ℤ) ≤ nSteps) (listed : points[i]? = some point) :
    isotherm.totalMass point = i * (isotherm.forTable nSteps).totalMassStep ∧
      point.1 ≤ isotherm.tableLimit / (1 - eps) := by
  have curve := physical.curve known
  have start := forTable_physical physical nSteps
  obtain ⟨bracket, found, on⟩ := sound i point listed
  rw [totalMass_tableConc start, Nat.zero_add] at on
  have sameBound : (isotherm.forTable nSteps).upperSolutionBound func =
      isotherm.upperSolutionBound func := by
    unfold upperSolutionBound forTable
    rw [usedLimit_eq positive]
  rw [sameBound] at found
  have narrow := meets func known _ bracket found
  have below := forTable_mass_le physical curve inside
  rw [usedLimit_eq positive] at below
  have bounded := on.le_limit start curve proper narrow positive.le below
  exact ⟨on.conserved, bounded⟩

theorem massAt_pos (physical : isotherm.Physical) (curve : Curve func isotherm.value) {x : ℝ}
    (positive : 0 < x) : 0 < isotherm.massAt x :=
  (mul_pos physical.scaleAqua positive).trans_le
    (scaleAqua_mul_le_massAt physical curve positive.le)

theorem limit_le_tolerated {eps limit : ℝ} (positive : 0 < limit) (start : 0 ≤ eps)
    (proper : eps < 1) : limit ≤ limit / (1 - eps) := by
  rw [le_div_iff₀ (sub_pos.mpr proper)]
  nlinarith

section Built

variable {nSteps : ℤ} {points : List (ConcPair ℝ)} {conc : ConcPair ℝ}

theorem withPoints_physical (physical : isotherm.Physical) :
    (isotherm.withPoints nSteps points).Physical :=
  ⟨physical.multCoef, physical.secondCoef, physical.scaleAqua, physical.scaleSorbed,
    physical.rhoAqua⟩

theorem withPoints_prepared (prepared : isotherm.Prepared) :
    (isotherm.withPoints nSteps points).Prepared :=
  ⟨prepared.invScaleAqua, prepared.invScaleSorbed, fun _ => isotherm.usedLimit_pos⟩

theorem withPoints_table (limited : isotherm.Limited) :
    (isotherm.withPoints nSteps points).interpolationTable =
      points.map (isotherm.withPoints nSteps points).rotSorbed := by
  unfold withPoints
  rw [limited.empty]
  rfl

theorem computeReaction_precipitates (limited : isotherm.Limited)
    (precomputed : (isotherm.withPoints nSteps points).isPrecomputed = true)
    (beyond : (isotherm.withPoints nSteps points).BeyondTable conc) :
    ∃ after, (isotherm.withPoints nSteps points).computeReaction Libm.real solver.solve conc =
      .ok after ∧ after.1 = isotherm.tableLimit := by
  have positive := limited.prepared.limited limited.limitedOn
  rw [computeReaction, if_pos precomputed, computeProjection_beyond beyond, precipitate]
  refine ⟨_, (if_pos limited.limitedOn).trans (if_pos isotherm.usedLimit_pos), ?_⟩
  exact usedLimit_eq positive

/-- Beyond the mass of the limit there is no entry of the table. -/
theorem beyondTable_of_heavy (physical : isotherm.Physical)
    (curve : Curve func isotherm.value) (growing : 0 ≤ nSteps)
    (limited : isotherm.Limited) (length : points.length = (nSteps + 1).toNat)
    (heavy : isotherm.massAt isotherm.tableLimit < isotherm.totalMass conc) :
    (isotherm.withPoints nSteps points).BeyondTable conc := by
  have positive := limited.prepared.limited limited.limitedOn
  have limitMass := massAt_pos physical curve positive
  have step := forTable_step_nonneg physical curve growing
  have steps : 0 ≤ isotherm.totalMass conc / (isotherm.forTable nSteps).totalMassStep :=
    div_nonneg (limitMass.trans heavy).le step
  have reached : nSteps ≤
      ⌊isotherm.totalMass conc / (isotherm.forTable nSteps).totalMassStep⌋ := by
    rw [Int.le_floor]
    by_cases zero : nSteps = 0
    · rw [zero, Int.cast_zero]
      exact zero ▸ steps
    · have count : (0 : ℝ) < nSteps := by
        exact_mod_cast lt_of_le_of_ne growing (Ne.symm zero)
      have stepEq : (isotherm.forTable nSteps).totalMassStep =
          isotherm.massAt isotherm.tableLimit / nSteps := by
        rw [forTable, usedLimit_eq positive]
      rw [stepEq, le_div_iff₀ (div_pos limitMass count), mul_div_cancel₀ _ count.ne']
      exact heavy.le
  refine ⟨Int.floor_nonneg.mpr steps, ?_⟩
  rw [withPoints_table limited, List.length_map, length]
  have index : (nSteps + 1).toNat - 1 ≤
      ⌊isotherm.totalMass conc / (isotherm.forTable nSteps).totalMassStep⌋.toNat := by
    omega
  exact index

theorem computeReaction_inside_le {eps : ℝ} {after : ConcPair ℝ}
    (physical : isotherm.Physical) (known : isotherm.func Libm.real = some func)
    (limited : isotherm.Limited) (proper : eps < 1)
    (meets : isotherm.MeetsTolerance eps solver) (growing : 0 ≤ nSteps)
    (nonneg : 0 ≤ isotherm.totalMass conc)
    (length : points.length = (nSteps + 1).toNat)
    (sound : (isotherm.forTable nSteps).PointsFrom solver func 0 points)
    (precomputed : (isotherm.withPoints nSteps points).isPrecomputed = true)
    (inside : ¬ (isotherm.withPoints nSteps points).BeyondTable conc)
    (computed : (isotherm.withPoints nSteps points).computeReaction Libm.real solver.solve
      conc = .ok after) :
    after.1 ≤ isotherm.tableLimit / (1 - eps) := by
  have curve := physical.curve known
  have positive := limited.prepared.limited limited.limitedOn
  have step := forTable_step_nonneg physical curve growing
  have steps : 0 ≤ isotherm.totalMass conc / (isotherm.forTable nSteps).totalMassStep :=
    div_nonneg nonneg step
  obtain ⟨i, index⟩ := Int.eq_ofNat_of_zero_le (Int.floor_nonneg.mpr steps)
  have before : i + 1 < points.length := by
    by_contra last
    apply inside
    refine ⟨Int.floor_nonneg.mpr steps, ?_⟩
    rw [withPoints_table limited, List.length_map]
    have reached : ⌊isotherm.totalMass conc /
        (isotherm.forTable nSteps).totalMassStep⌋.toNat = i := by
      rw [index]
      rfl
    exact le_trans (by omega) reached.ge
  have count : (0 : ℝ) < nSteps := by
    have : 0 < nSteps := by omega
    exact_mod_cast this
  have stepPos : 0 < (isotherm.forTable nSteps).totalMassStep :=
    div_pos (massAt_pos physical curve isotherm.usedLimit_pos) count
  have first := List.getElem?_eq_getElem (show i < points.length by omega)
  have second := List.getElem?_eq_getElem before
  obtain ⟨lowMass, lowBound⟩ :=
    tablePoint_le physical known positive proper meets sound (by omega) first
  obtain ⟨highMass, highBound⟩ :=
    tablePoint_le physical known positive proper meets sound (by omega) second
  rw [computeReaction, if_pos precomputed] at computed
  exact computeProjection_le (withPoints_prepared limited.prepared)
    (withPoints_physical physical) (withPoints_table limited) index stepPos.ne' first second
    lowMass highMass lowBound highBound computed

end Built

/-- The table path keeps the limit. -/
theorem table_keepsLimit {eps : ℝ} {conc : ConcPair ℝ} {nrOfPoints : ℤ} {made : Isotherm ℝ}
    (physical : isotherm.Physical) (limited : isotherm.Limited) (start : 0 ≤ eps)
    (proper : eps < 1) (meets : isotherm.MeetsTolerance eps solver)
    (nonneg : 0 ≤ isotherm.totalMass conc)
    (built : isotherm.makeTable Libm.real solver.solve nrOfPoints = .ok made)
    (precomputed : made.isPrecomputed = true) :
    made.KeepsLimit eps isotherm.tableLimit solver conc := by
  obtain ⟨func, known⟩ := func_of_known limited.known
  have positive := limited.prepared.limited limited.limitedOn
  obtain ⟨growing, points, rfl, length, sound⟩ :=
    made_of_makeTable physical known limited.empty built precomputed
  constructor
  · intro after computed
    by_cases beyond : (isotherm.withPoints (isotherm.tableSteps nrOfPoints)
        points).BeyondTable conc
    · obtain ⟨_, precipitated, atLimit⟩ :=
        computeReaction_precipitates limited precomputed beyond
      rw [precipitated] at computed
      cases computed
      exact atLimit.le.trans (limit_le_tolerated positive start proper)
    · exact computeReaction_inside_le physical known limited proper meets growing nonneg
        length sound precomputed beyond computed
  · intro heavy
    have beyond := beyondTable_of_heavy physical (physical.curve known) growing limited length
      heavy
    exact computeReaction_precipitates limited precomputed beyond

end Table

/-! ## Both paths -/

/-- The reaction without a table and the reactions with every table keep the limit. -/
structure PathsKeepLimit (eps : ℝ) (solver : BracketSolver ℝ) (isotherm : Isotherm ℝ)
    (conc : ConcPair ℝ) : Prop where
  iterative : isotherm.KeepsLimit eps isotherm.tableLimit solver conc
  table : ∀ nrOfPoints made,
    isotherm.makeTable Libm.real solver.solve nrOfPoints = .ok made →
    made.isPrecomputed = true → made.KeepsLimit eps isotherm.tableLimit solver conc

section Paths

variable {solver : BracketSolver ℝ} {isotherm : Isotherm ℝ} {conc : ConcPair ℝ} {eps : ℝ}

theorem Limited.not_precomputed (limited : isotherm.Limited) :
    isotherm.isPrecomputed = false := by
  simp [isPrecomputed, limited.empty]

/-- After the precipitation the pair from before is returned. -/
theorem computeReaction_unchanged (limited : isotherm.Limited)
    (above : isotherm.tableLimit < conc.1) :
    isotherm.computeReaction Libm.real solver.solve conc = .ok conc := by
  have positive := limited.prepared.limited limited.limitedOn
  simp [computeReaction, limited.not_precomputed, limited.limitedOn, above, precipitate,
    positive]
  rfl

theorem Limited.solves (limited : isotherm.Limited) (below : conc.1 ≤ isotherm.tableLimit) :
    isotherm.Solves conc := by
  refine ⟨limited.known, ?_⟩
  rw [if_neg (by simp [limited.not_precomputed])]
  rintro ⟨_, above⟩
  exact absurd below (not_le.mpr above)

theorem iterative_keepsLimit (physical : isotherm.Physical) (limited : isotherm.Limited)
    (proper : eps < 1) (meets : isotherm.MeetsTolerance eps solver)
    (nonneg : 0 ≤ isotherm.totalMass conc)
    (light : isotherm.totalMass conc ≤ isotherm.massAt isotherm.tableLimit)
    (below : conc.1 ≤ isotherm.tableLimit / (1 - eps)) :
    isotherm.KeepsLimit eps isotherm.tableLimit solver conc := by
  obtain ⟨func, known⟩ := func_of_known limited.known
  have curve := physical.curve known
  have positive := limited.prepared.limited limited.limitedOn
  constructor
  · intro after computed
    by_cases dissolved : conc.1 ≤ isotherm.tableLimit
    · rw [computeReaction_of_solves (limited.solves dissolved) known] at computed
      by_cases bounds : isotherm.BoundsHold func (isotherm.totalMass conc)
      · obtain ⟨_, solved, bracket, found, on⟩ :=
          @solveConcWith_of_boundsHold solver _ _ _ physical curve nonneg bounds
        rw [solved] at computed
        cases computed
        exact on.le_limit physical curve proper (meets func known conc bracket found)
          positive.le light
      · rw [solveConcWith_of_not_boundsHold physical curve nonneg bounds] at computed
        cases computed
    · rw [computeReaction_unchanged limited (not_le.mp dissolved)] at computed
      cases computed
      exact below
  · intro heavy
    exact absurd light (not_le.mpr heavy)

/-- The calls of the exact root finder return the root. -/
theorem exact_bracket {func : ℝ → Option ℝ} {bracket : ℝ × ℝ} (physical : isotherm.Physical)
    (known : isotherm.func Libm.real = some func)
    (found : bracket ∈ BracketSolver.exact.solve (isotherm.eqFunc func conc) 0
      (isotherm.upperSolutionBound func)) :
    bracket.1 = bracket.2 := by
  have curve := physical.curve known
  refine BracketSolver.exact_point ?_ found
  intro changes
  obtain ⟨bound, atBound, positive, below, above⟩ := changesSign_eqFunc physical curve changes
  obtain ⟨x, lower, upper, root⟩ :=
    exists_massAt_eq physical curve (le_refl 0) positive.le below above
  refine ⟨x, lower, ?_, ?_⟩
  · intro other atOther
    rw [Option.mem_unique atOther atBound]
    exact upper
  · rw [eqFunc_eq physical curve lower, root, sub_self]

theorem exact_meetsTolerance (physical : isotherm.Physical) (start : 0 ≤ eps) :
    isotherm.MeetsTolerance eps BracketSolver.exact := by
  intro func known conc bracket found
  rw [exact_bracket physical known found, sub_self, abs_zero]
  exact mul_nonneg start (le_max_of_le_left (abs_nonneg _))

/-- A heavier pair is dissolved beyond the limit by the exact root finder. -/
theorem light_of_beyond (physical : isotherm.Physical) (limited : isotherm.Limited)
    (nonneg : 0 ≤ isotherm.totalMass conc)
    (keeps : isotherm.KeepsLimit eps isotherm.tableLimit BracketSolver.exact conc) :
    isotherm.totalMass conc ≤ isotherm.massAt isotherm.tableLimit := by
  obtain ⟨func, known⟩ := func_of_known limited.known
  have curve := physical.curve known
  by_contra heavy
  obtain ⟨after, computed, atLimit⟩ := keeps.beyond (not_le.mp heavy)
  by_cases dissolved : conc.1 ≤ isotherm.tableLimit
  · rw [computeReaction_of_solves (limited.solves dissolved) known] at computed
    by_cases bounds : isotherm.BoundsHold func (isotherm.totalMass conc)
    · obtain ⟨_, solved, bracket, found, on⟩ :=
        solveConcWith_of_boundsHold physical curve nonneg bounds
      rw [solved] at computed
      cases computed
      obtain ⟨x, above, below, root⟩ := on.encloses
      have point := exact_bracket physical known found
      have middle := on.middle
      have atRoot : x = isotherm.tableLimit := by linarith
      rw [atRoot] at root
      exact heavy root.ge
    · rw [solveConcWith_of_not_boundsHold physical curve nonneg bounds] at computed
      cases computed
  · rw [computeReaction_unchanged limited (not_le.mp dissolved)] at computed
    cases computed
    exact dissolved atLimit.le

/-- For every isotherm with a limit and every nonnegative pair. -/
theorem paths_keepLimit_iff (physical : isotherm.Physical) (limited : isotherm.Limited)
    (start : 0 ≤ eps) (proper : eps < 1) (aqua : 0 ≤ conc.1) (sorbed : 0 ≤ conc.2) :
    (∀ solver, isotherm.MeetsTolerance eps solver →
      isotherm.PathsKeepLimit eps solver conc) ↔
      isotherm.totalMass conc ≤ isotherm.massAt isotherm.tableLimit ∧
        conc.1 ≤ isotherm.tableLimit / (1 - eps) := by
  have nonneg : 0 ≤ isotherm.totalMass conc :=
    add_nonneg (mul_nonneg physical.scaleAqua.le aqua)
      (mul_nonneg physical.scaleSorbed.le sorbed)
  constructor
  · intro keeps
    have exact := keeps BracketSolver.exact (exact_meetsTolerance physical start)
    refine ⟨light_of_beyond physical limited nonneg exact.iterative, ?_⟩
    by_cases dissolved : conc.1 ≤ isotherm.tableLimit
    · have positive := limited.prepared.limited limited.limitedOn
      exact dissolved.trans (limit_le_tolerated positive start proper)
    · exact exact.iterative.below conc
        (computeReaction_unchanged limited (not_le.mp dissolved))
  · rintro ⟨light, below⟩ solver meets
    constructor
    · exact iterative_keepsLimit physical limited proper meets nonneg light below
    · intro nrOfPoints made built precomputed
      exact table_keepsLimit physical limited start proper meets nonneg built precomputed

end Paths

/-! ## The limited linear isotherm -/

/-- `c_s = c_a` with unit scales and the limit one. -/
noncomputable def limitedLinear : Isotherm ℝ :=
  unlimitedLinear.reinit .linear 1 1 1 1 1 0

theorem limitedLinear_limited : limitedLinear.Limited :=
  reinit_limited _ _ _ _ _ _ _ _ (by decide) one_pos rfl

theorem limitedLinear_physical : limitedLinear.Physical :=
  ⟨zero_le_one, le_refl 0, one_pos, one_pos, one_pos⟩

theorem paths_keepLimit_limitedLinear :
    limitedLinear.PathsKeepLimit (1 / 2 ^ 29) BracketSolver.exact (1 / 2, 1 / 2) := by
  have start : (0 : ℝ) ≤ 1 / 2 ^ 29 := by norm_num
  refine (paths_keepLimit_iff limitedLinear_physical limitedLinear_limited start
    (by norm_num) (by norm_num) (by norm_num)).mpr ⟨?_, ?_⟩ BracketSolver.exact
    (exact_meetsTolerance limitedLinear_physical start)
  · norm_num [limitedLinear, reinit, totalMass, massAt, value]
  · norm_num [limitedLinear, reinit]

theorem not_always_paths_keepLimit :
    ¬ ∀ (eps : ℝ) (solver : BracketSolver ℝ) (isotherm : Isotherm ℝ) (conc : ConcPair ℝ),
      0 ≤ eps → eps < 1 → isotherm.Physical → isotherm.Limited → 0 ≤ conc.1 → 0 ≤ conc.2 →
      isotherm.MeetsTolerance eps solver → isotherm.PathsKeepLimit eps solver conc := by
  intro always
  have start : (0 : ℝ) ≤ 1 / 2 ^ 29 := by norm_num
  have keeps := always (1 / 2 ^ 29) BracketSolver.exact limitedLinear (2, 0) start
    (by norm_num) limitedLinear_physical limitedLinear_limited (by norm_num) (le_refl 0)
    (exact_meetsTolerance limitedLinear_physical start)
  have above : limitedLinear.tableLimit < (2, (0 : ℝ)).1 := by
    norm_num [limitedLinear, reinit]
  have below := keeps.iterative.below (2, 0)
    (computeReaction_unchanged limitedLinear_limited above)
  norm_num [limitedLinear, reinit] at below

end Isotherm

end Flow123d
