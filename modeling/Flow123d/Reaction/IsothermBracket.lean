import Flow123d.Reaction.IsothermConservation
import Flow123d.Reaction.IsothermCurve

/-!
# Calls of the root finder

When the interval that `solve_conc` hands to the root finder brackets a root, and what is
then returned by the reaction and stored in the table.
-/

set_option autoImplicit false

namespace Flow123d

open Flow123d.Library

namespace Isotherm

/-- The pair has the mass and is the middle of a bracket around the point of the isotherm
with this mass. -/
structure OnIsotherm (isotherm : Isotherm ℝ) (mass : ℝ) (bracket : ℝ × ℝ)
    (after : ConcPair ℝ) : Prop where
  nonneg : 0 ≤ bracket.1
  encloses : ∃ x, bracket.1 ≤ x ∧ x ≤ bracket.2 ∧ isotherm.massAt x = mass
  middle : after.1 = (bracket.1 + bracket.2) / 2
  conserved : isotherm.totalMass after = mass

/-- The pair comes from the bracket that the root finder returns for the call. -/
def SolvedTo (solver : BracketSolver ℝ) (func : ℝ → Option ℝ) (isotherm : Isotherm ℝ)
    (conc after : ConcPair ℝ) : Prop :=
  ∃ bracket ∈ solver.solve (isotherm.eqFunc func conc) 0 (isotherm.upperSolutionBound func),
    isotherm.OnIsotherm (isotherm.totalMass conc) bracket after

/-- The mass lies between the masses of the isotherm at zero, where only the exponent zero
has sorbed something, and at the upper bound, which is a positive number. -/
structure BoundsHold (isotherm : Isotherm ℝ) (func : ℝ → Option ℝ) (mass : ℝ) : Prop where
  origin : isotherm.adsorptionType = .freundlich → isotherm.secondCoef = 0 →
    isotherm.scaleSorbed * isotherm.multCoef ≤ mass
  upper : ∃ bound ∈ isotherm.upperSolutionBound func, 0 < bound ∧ mass ≤ isotherm.massAt bound

theorem massAt_zero (isotherm : Isotherm ℝ) :
    isotherm.massAt 0 = isotherm.scaleSorbed * isotherm.value 0 := by
  simp [massAt]

section Call

variable {solver : BracketSolver ℝ} {isotherm : Isotherm ℝ} {func : ℝ → Option ℝ}
  {conc : ConcPair ℝ}

theorem origin_iff {mass : ℝ} (nonneg : 0 ≤ mass) :
    isotherm.massAt 0 ≤ mass ↔
      (isotherm.adsorptionType = .freundlich → isotherm.secondCoef = 0 →
        isotherm.scaleSorbed * isotherm.multCoef ≤ mass) := by
  rw [massAt_zero, value_zero]
  by_cases zero : isotherm.adsorptionType = .freundlich ∧ isotherm.secondCoef = 0
  · simp [zero]
  · rw [if_neg zero, mul_zero]
    constructor
    · intro _ freundlich exponent
      exact absurd ⟨freundlich, exponent⟩ zero
    · intro _
      exact nonneg

theorem boundsHold_iff {mass : ℝ} (nonneg : 0 ≤ mass) :
    isotherm.BoundsHold func mass ↔ isotherm.massAt 0 ≤ mass ∧
      ∃ bound ∈ isotherm.upperSolutionBound func, 0 < bound ∧
        mass ≤ isotherm.massAt bound := by
  rw [origin_iff nonneg]
  constructor
  · intro bounds
    exact ⟨bounds.origin, bounds.upper⟩
  · rintro ⟨origin, upper⟩
    exact ⟨origin, upper⟩

variable (physical : isotherm.Physical) (curve : Curve func isotherm.value)

include physical curve

theorem brackets_eqFunc {lower upper : ℝ} (positive : 0 ≤ lower) (ordered : lower ≤ upper) :
    Brackets (isotherm.eqFunc func conc) lower (some upper) ↔
      isotherm.massAt lower ≤ isotherm.totalMass conc ∧
        isotherm.totalMass conc ≤ isotherm.massAt upper := by
  have atLower := @eqFunc_eq _ _ physical curve conc lower positive
  have atUpper := @eqFunc_eq _ _ physical curve conc upper (positive.trans ordered)
  constructor
  · rintro ⟨bound, same, _, ⟨first, atFirst, nonpos⟩, last, atLast, nonneg⟩
    cases same
    rw [atLower] at atFirst
    rw [atUpper] at atLast
    cases atFirst
    cases atLast
    exact ⟨sub_nonpos.mp nonpos, sub_nonneg.mp nonneg⟩
  · rintro ⟨below, above⟩
    exact ⟨upper, rfl, ordered, ⟨_, atLower, sub_nonpos.mpr below⟩, _, atUpper,
      sub_nonneg.mpr above⟩

theorem changesSign_eqFunc {upper : Option ℝ}
    (changes : ChangesSign (isotherm.eqFunc func conc) 0 upper) :
    ∃ bound ∈ upper, 0 < bound ∧ isotherm.massAt 0 ≤ isotherm.totalMass conc ∧
      isotherm.totalMass conc ≤ isotherm.massAt bound := by
  obtain ⟨bound, same, proper, first, atFirst, last, atLast, signs⟩ := changes
  rw [eqFunc_eq physical curve (le_refl 0)] at atFirst
  rw [eqFunc_eq physical curve proper.le] at atLast
  cases atFirst
  cases atLast
  have grows := massAt_strictMono physical curve (Set.mem_Ici.mpr (le_refl 0)) proper.le proper
  refine ⟨bound, same, proper, ?_⟩
  rcases signs with ⟨nonpos, nonneg⟩ | ⟨nonpos, nonneg⟩
  · exact ⟨sub_nonpos.mp nonpos, sub_nonneg.mp nonneg⟩
  · exact ⟨by linarith, by linarith⟩

theorem solveConcWith_of_boundsHold (nonneg : 0 ≤ isotherm.totalMass conc)
    (bounds : isotherm.BoundsHold func (isotherm.totalMass conc)) :
    ∃ after, isotherm.solveConcWith solver.solve func conc = .ok after ∧
      isotherm.SolvedTo solver func conc after := by
  obtain ⟨below, bound, atBound, positive, above⟩ := (boundsHold_iff nonneg).mp bounds
  have brackets := (brackets_eqFunc physical curve (le_refl 0) positive.le).mpr ⟨below, above⟩
  obtain ⟨bracket, found, lower, _, inside⟩ :=
    solver.narrows (isotherm.eqFunc func conc) 0 bound positive brackets
  obtain ⟨_, same, ordered, _⟩ := id inside
  cases same
  obtain ⟨belowRoot, aboveRoot⟩ := (brackets_eqFunc physical curve lower ordered).mp inside
  have encloses := exists_massAt_eq physical curve lower ordered belowRoot aboveRoot
  have solved : solver.solve (isotherm.eqFunc func conc) 0
      (isotherm.upperSolutionBound func) = some bracket := by
    rw [Option.mem_def.mp atBound]
    exact found
  simp only [solveConcWith, solved]
  refine ⟨_, rfl, bracket, solved, lower, encloses, rfl, ?_⟩
  exact totalMass_rest physical.scaleSorbed.ne' _ _

theorem solveConcWith_of_not_boundsHold (nonneg : 0 ≤ isotherm.totalMass conc)
    (broken : ¬ isotherm.BoundsHold func (isotherm.totalMass conc)) :
    isotherm.solveConcWith solver.solve func conc = .error .rootFinder := by
  have failed : solver.solve (isotherm.eqFunc func conc) 0
      (isotherm.upperSolutionBound func) = none := by
    apply solver.fails
    intro changes
    obtain ⟨bound, same, positive, below, above⟩ :=
      changesSign_eqFunc physical curve changes
    exact broken ((boundsHold_iff nonneg).mpr ⟨below, bound, same, positive, above⟩)
  simp only [solveConcWith, failed]

theorem solveConcWith_sound_iff (nonneg : 0 ≤ isotherm.totalMass conc) :
    (∃ after, isotherm.solveConcWith solver.solve func conc = .ok after ∧
      isotherm.SolvedTo solver func conc after) ↔
      isotherm.BoundsHold func (isotherm.totalMass conc) := by
  constructor
  · rintro ⟨after, solved, _⟩
    by_contra broken
    rw [solveConcWith_of_not_boundsHold physical curve nonneg broken] at solved
    cases solved
  · exact solveConcWith_of_boundsHold physical curve nonneg

omit curve in
/-- A bracket of one point is the point of the isotherm. -/
theorem OnIsotherm.of_point {mass x : ℝ} {after : ConcPair ℝ}
    (solved : isotherm.OnIsotherm mass (x, x) after) :
    after = (x, isotherm.value (x / isotherm.rhoAqua)) := by
  obtain ⟨y, above, below, root⟩ := solved.encloses
  have point : y = x := le_antisymm below above
  have middle : after.1 = x := by
    have half := solved.middle
    simp only at half
    linarith
  have conserved := solved.conserved
  rw [← root, point] at conserved
  unfold totalMass massAt at conserved
  rw [middle] at conserved
  have scaled : isotherm.scaleSorbed * after.2 =
      isotherm.scaleSorbed * isotherm.value (x / isotherm.rhoAqua) := by
    linarith
  exact Prod.ext middle (mul_left_cancel₀ physical.scaleSorbed.ne' scaled)

end Call

/-! ## The table -/

section Table

variable {solver : BracketSolver ℝ} {func : ℝ → Option ℝ}

/-- The points are what the root finder gives for the masses from the step `first` on. -/
def PointsFrom (solver : BracketSolver ℝ) (func : ℝ → Option ℝ) (isotherm : Isotherm ℝ)
    (first : ℕ) (points : List (ConcPair ℝ)) : Prop :=
  ∀ i point, points[i]? = some point → isotherm.SolvedTo solver func
    (isotherm.tableConc ((first + i : ℕ) * isotherm.totalMassStep)) point

/-- The stored table plays no part in a call. -/
theorem SolvedTo.of_table {isotherm : Isotherm ℝ} {table : List ℝ} {conc after : ConcPair ℝ}
    (solved : ({ isotherm with interpolationTable := table } : Isotherm ℝ).SolvedTo solver func
      conc after) :
    isotherm.SolvedTo solver func conc after := by
  obtain ⟨bracket, found, on⟩ := solved
  exact ⟨bracket, found, on.nonneg, on.encloses, on.middle, on.conserved⟩

theorem totalMass_tableConc {isotherm : Isotherm ℝ} (physical : isotherm.Physical) (mass : ℝ) :
    isotherm.totalMass (isotherm.tableConc mass) = mass := by
  unfold totalMass tableConc
  rw [mul_div_cancel₀ _ physical.scaleAqua.ne', mul_zero, add_zero]

theorem fillTable_of_boundsHold (count : ℕ) (first : ℕ) (isotherm : Isotherm ℝ)
    (physical : isotherm.Physical) (curve : Curve func isotherm.value)
    (step : 0 ≤ isotherm.totalMassStep)
    (bounds : ∀ i, first ≤ i → i < first + count →
      isotherm.BoundsHold func (i * isotherm.totalMassStep)) :
    ∃ points, fillTable solver.solve func count (first * isotherm.totalMassStep) isotherm =
        .ok { isotherm with interpolationTable :=
          isotherm.interpolationTable ++ points.map isotherm.rotSorbed } ∧
      points.length = count ∧ isotherm.PointsFrom solver func first points := by
  induction count generalizing first isotherm with
  | zero =>
      refine ⟨[], by simp [fillTable], rfl, ?_⟩
      intro i point listed
      cases listed
  | succ count ih =>
      have mass := totalMass_tableConc physical (first * isotherm.totalMassStep)
      have nonneg : 0 ≤ isotherm.totalMass
          (isotherm.tableConc (first * isotherm.totalMassStep)) := by
        rw [mass]
        positivity
      have here := bounds first (le_refl _) (by omega)
      rw [← mass] at here
      obtain ⟨after, solved, point⟩ :=
        @solveConcWith_of_boundsHold solver _ _ _ physical curve nonneg here
      obtain ⟨points, filled, length, rest⟩ := ih (first + 1)
        { isotherm with interpolationTable :=
            isotherm.interpolationTable ++ [isotherm.rotSorbed after] }
        ⟨physical.multCoef, physical.secondCoef, physical.scaleAqua, physical.scaleSorbed,
          physical.rhoAqua⟩ curve step
        (fun i later before => by
          have bound := bounds i (by omega) (by omega)
          exact ⟨bound.origin, bound.upper⟩)
      refine ⟨after :: points, ?_, by rw [List.length_cons, length], ?_⟩
      · have next : (first : ℝ) * isotherm.totalMassStep + isotherm.totalMassStep =
            ((first + 1 : ℕ) : ℝ) * isotherm.totalMassStep := by
          push_cast
          ring
        rw [fillTable, solved, next]
        refine filled.trans ?_
        simp [rotSorbed]
      · intro i other listed
        cases i with
        | zero =>
            cases listed
            exact point
        | succ i =>
            rw [show first + (i + 1) = first + 1 + i by omega]
            exact (rest i other listed).of_table

noncomputable def usedLimit (isotherm : Isotherm ℝ) : ℝ :=
  if isotherm.tableLimit ≤ 0 then 1 else isotherm.tableLimit

theorem usedLimit_pos (isotherm : Isotherm ℝ) : 0 < isotherm.usedLimit := by
  unfold usedLimit
  split
  case isTrue => exact one_pos
  case isFalse positive => exact not_le.mp positive

/-- The isotherm with which the loop over the masses starts. -/
noncomputable def forTable (isotherm : Isotherm ℝ) (nSteps : ℤ) : Isotherm ℝ :=
  { isotherm with
    tableLimit := isotherm.usedLimit
    totalMassStep := isotherm.massAt isotherm.usedLimit / nSteps }

/-- The isotherm with the entries of the points behind its table. -/
noncomputable def withPoints (isotherm : Isotherm ℝ) (nSteps : ℤ)
    (points : List (ConcPair ℝ)) : Isotherm ℝ :=
  { (isotherm.forTable nSteps) with
    interpolationTable := isotherm.interpolationTable ++ points.map isotherm.rotSorbed }

variable {isotherm : Isotherm ℝ}

theorem forTable_physical (physical : isotherm.Physical) (nSteps : ℤ) :
    (isotherm.forTable nSteps).Physical :=
  ⟨physical.multCoef, physical.secondCoef, physical.scaleAqua, physical.scaleSorbed,
    physical.rhoAqua⟩

theorem makeTable_eq (physical : isotherm.Physical)
    (known : isotherm.func Libm.real = some func) (nrOfPoints : ℤ) :
    isotherm.makeTable Libm.real solver.solve nrOfPoints =
      fillTable solver.solve func (isotherm.tableSteps nrOfPoints + 1).toNat 0
        (isotherm.forTable (isotherm.tableSteps nrOfPoints)) := by
  have curve := physical.curve known
  have limit : 0 ≤ isotherm.usedLimit / isotherm.rhoAqua :=
    div_nonneg isotherm.usedLimit_pos.le physical.rhoAqua.le
  have sorbed := curve.eval _ limit
  unfold usedLimit at sorbed
  simp only [makeTable, known, makeTableWith, sorbed]
  unfold forTable massAt usedLimit
  rw [add_comm (isotherm.scaleSorbed * _)]

theorem massAt_usedLimit_nonneg (physical : isotherm.Physical)
    (curve : Curve func isotherm.value) : 0 ≤ isotherm.massAt isotherm.usedLimit := by
  have limit := isotherm.usedLimit_pos.le
  have scaled := scaleAqua_mul_le_massAt physical curve limit
  exact (mul_nonneg physical.scaleAqua.le limit).trans scaled

theorem upperSolutionBound_eq (physical : isotherm.Physical)
    (curve : Curve func isotherm.value) (positive : 0 ≤ isotherm.tableLimit) :
    isotherm.upperSolutionBound func =
      some (isotherm.massAt isotherm.tableLimit / isotherm.scaleAqua + 1 / 100000) := by
  unfold upperSolutionBound
  rw [curve.eval _ (div_nonneg positive physical.rhoAqua.le)]
  unfold massAt
  rw [Option.map_some]
  congr 3
  ring

/-- With a positive limit the mass of the limit is inside the interval. -/
theorem upper_of_le_limit (physical : isotherm.Physical) (curve : Curve func isotherm.value)
    (positive : 0 < isotherm.tableLimit) {mass : ℝ}
    (below : mass ≤ isotherm.massAt isotherm.tableLimit) :
    ∃ bound ∈ isotherm.upperSolutionBound func, 0 < bound ∧ mass ≤ isotherm.massAt bound := by
  have limitMass := scaleAqua_mul_le_massAt physical curve positive.le
  have massNonneg := (mul_nonneg physical.scaleAqua.le positive.le).trans limitMass
  have quotient := div_nonneg massNonneg physical.scaleAqua.le
  have bound : 0 < isotherm.massAt isotherm.tableLimit / isotherm.scaleAqua + 1 / 100000 := by
    linarith
  refine ⟨_, upperSolutionBound_eq physical curve positive.le, bound, ?_⟩
  have scaled := scaleAqua_mul_le_massAt physical curve bound.le
  have split : isotherm.scaleAqua *
      (isotherm.massAt isotherm.tableLimit / isotherm.scaleAqua + 1 / 100000) =
        isotherm.massAt isotherm.tableLimit + isotherm.scaleAqua / 100000 := by
    have nonzero := physical.scaleAqua.ne'
    field_simp
  have aqua := physical.scaleAqua
  linarith

theorem forTable_step_nonneg (physical : isotherm.Physical)
    (curve : Curve func isotherm.value) {nSteps : ℤ} (growing : 0 ≤ nSteps) :
    0 ≤ (isotherm.forTable nSteps).totalMassStep := by
  have steps : (0 : ℝ) ≤ nSteps := by exact_mod_cast growing
  exact div_nonneg (massAt_usedLimit_nonneg physical curve) steps

/-- The masses of the table end with that of the limit. -/
theorem forTable_mass_le (physical : isotherm.Physical) (curve : Curve func isotherm.value)
    {nSteps : ℤ} {i : ℕ} (inside : (i : ℤ) ≤ nSteps) :
    i * (isotherm.forTable nSteps).totalMassStep ≤ isotherm.massAt isotherm.usedLimit := by
  have count : (i : ℝ) ≤ nSteps := by exact_mod_cast inside
  have step := forTable_step_nonneg physical curve ((Int.natCast_nonneg i).trans inside)
  calc i * (isotherm.forTable nSteps).totalMassStep
      ≤ nSteps * (isotherm.massAt isotherm.usedLimit / nSteps) :=
        mul_le_mul_of_nonneg_right count step
    _ ≤ isotherm.massAt isotherm.usedLimit := by
        by_cases zero : (nSteps : ℝ) = 0
        · rw [zero, zero_mul]
          exact massAt_usedLimit_nonneg physical curve
        · rw [mul_div_cancel₀ _ zero]

theorem forTable_boundsHold (physical : isotherm.Physical) (curve : Curve func isotherm.value)
    (origin : isotherm.adsorptionType = .freundlich → isotherm.secondCoef = 0 →
      isotherm.multCoef = 0) {nSteps : ℤ} {i : ℕ} (inside : (i : ℤ) ≤ nSteps) :
    (isotherm.forTable nSteps).BoundsHold func
      (i * (isotherm.forTable nSteps).totalMassStep) := by
  have step := forTable_step_nonneg physical curve ((Int.natCast_nonneg i).trans inside)
  constructor
  · intro freundlich exponent
    have unsorbed : isotherm.scaleSorbed * isotherm.multCoef = 0 := by
      rw [origin freundlich exponent, mul_zero]
    exact unsorbed.le.trans (mul_nonneg (Nat.cast_nonneg i) step)
  · exact upper_of_le_limit (forTable_physical physical nSteps) curve isotherm.usedLimit_pos
      (forTable_mass_le physical curve inside)

/-- The table is built, and its new entries are those of the equidistant masses. -/
def TableSound (solver : BracketSolver ℝ) (isotherm : Isotherm ℝ) (nrOfPoints : ℤ) : Prop :=
  ∃ func ∈ isotherm.func Libm.real, ∃ made points,
    isotherm.makeTable Libm.real solver.solve nrOfPoints = .ok made ∧
      made.interpolationTable =
        isotherm.interpolationTable ++ points.map made.rotSorbed ∧
      points.length = (isotherm.tableSteps nrOfPoints + 1).toNat ∧
      made.PointsFrom solver func 0 points

theorem makeTable_of_origin (physical : isotherm.Physical)
    (known : isotherm.func Libm.real = some func)
    (origin : isotherm.adsorptionType = .freundlich → isotherm.secondCoef = 0 →
      isotherm.multCoef = 0) {nrOfPoints : ℤ} (growing : 0 ≤ isotherm.tableSteps nrOfPoints) :
    ∃ points, isotherm.makeTable Libm.real solver.solve nrOfPoints =
        .ok (isotherm.withPoints (isotherm.tableSteps nrOfPoints) points) ∧
      points.length = (isotherm.tableSteps nrOfPoints + 1).toNat ∧
      (isotherm.forTable (isotherm.tableSteps nrOfPoints)).PointsFrom solver func 0
        points := by
  have curve := physical.curve known
  have step := forTable_step_nonneg physical curve growing
  obtain ⟨points, filled, length, sound⟩ := @fillTable_of_boundsHold solver func
    (isotherm.tableSteps nrOfPoints + 1).toNat 0 _
    (forTable_physical physical (isotherm.tableSteps nrOfPoints)) curve step
    (fun i _ before => forTable_boundsHold physical curve origin (by omega))
  rw [Nat.cast_zero, zero_mul] at filled
  rw [makeTable_eq physical known]
  exact ⟨points, filled, length, sound⟩

/-- The first call of the table has the mass zero. -/
theorem makeTable_of_sorbing (physical : isotherm.Physical)
    (known : isotherm.func Libm.real = some func)
    (freundlich : isotherm.adsorptionType = .freundlich) (exponent : isotherm.secondCoef = 0)
    (sorbing : isotherm.multCoef ≠ 0) {nrOfPoints : ℤ}
    (growing : 0 ≤ isotherm.tableSteps nrOfPoints) :
    isotherm.makeTable Libm.real solver.solve nrOfPoints = .error .rootFinder := by
  have positive : 0 < isotherm.multCoef := lt_of_le_of_ne physical.multCoef (Ne.symm sorbing)
  have start := forTable_physical physical (isotherm.tableSteps nrOfPoints)
  have mass := totalMass_tableConc start 0
  have broken : ¬ (isotherm.forTable (isotherm.tableSteps nrOfPoints)).BoundsHold func
      ((isotherm.forTable (isotherm.tableSteps nrOfPoints)).totalMass
        ((isotherm.forTable (isotherm.tableSteps nrOfPoints)).tableConc 0)) := by
    intro bounds
    have origin := bounds.origin freundlich exponent
    rw [mass] at origin
    exact absurd origin (not_le.mpr (mul_pos physical.scaleSorbed positive))
  have failed := @solveConcWith_of_not_boundsHold solver _ _ _ start (physical.curve known)
    mass.ge broken
  have turns : (isotherm.tableSteps nrOfPoints + 1).toNat =
      (isotherm.tableSteps nrOfPoints).toNat + 1 := by
    omega
  rw [makeTable_eq physical known, turns, fillTable, failed]
  rfl

end Table

end Isotherm

end Flow123d
