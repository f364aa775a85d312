import Flow123d.Coupling.TimeGovernorRun

/-!
# The number of steps in an `int`

`estimate_dt` keeps the number of steps till the next fixed mark in a 32-bit integer and divides
by it. The number is the least for the upper constraint exactly when it fits, is not rounded down
to zero, and the lower constraint does not ask for longer steps.
-/

set_option autoImplicit false

namespace Flow123d

open Flow123d.Library

namespace TimeGovernor

/-- There is no number of steps where a conversion to `int` is not defined. -/
def countSteps (fullStep stepEstimate : Double) : Option ℤ :=
  (fullStep / stepEstimate).ceil.toInt.bind fun nSteps : ℤ =>
    (fullStep / stepEstimate).floor.toInt.map fun nFloorSteps : ℤ =>
      if (fullStep / stepEstimate - .fin nFloorSteps).abs < .fin roundNStepsPrecision then
        nFloorSteps
      else nSteps

/-- `estimate_dt` with its conversions to `int`. -/
def estimateDtInt (marks : TimeMarks) (tg : TimeGovernor) : Option Double :=
  if tg.time = infTime ∨ tg.isEnd then some (.fin 0)
  else if tg.steady ∧ tg.timeLevel = 0 then some infTime
  else if tg.steady ∧ tg.timeLevel = 1 then some (.fin 0)
  else if tg.lt tg.endOfFixedDtInterval then some tg.fixedDt
  else
    let fullStep := (marks.next tg tg.fixedTimeMarkMask).time - tg.time
    let stepEstimate :=
      Double.stdMax (Double.stdMin fullStep tg.upperConstraint) tg.lowerConstraint
    (countSteps fullStep stepEstimate).map fun nSteps => fullStep / .fin nSteps

/-- So many equal steps are not longer than the given one, up to the rounding precision of their
number. -/
def StepsKeep (distance : ℚ) (step : Double) (count : ℕ) : Prop :=
  .fin distance < step * .fin (count + roundNStepsPrecision)

/-- Fewer steps, which the lower constraint could ask for, would not suffice for the upper
constraint. -/
structure LeastSteps (marks : TimeMarks) (tg : TimeGovernor) (t m dt : ℚ) (count : ℕ) :
    Prop where
  time : tg.time = .fin t
  mark : (marks.next tg tg.fixedTimeMarkMask).time = .fin m
  counted : countSteps (.fin (m - t)) (wantedStep marks tg) = some (count : ℤ)
  nonzero : 0 < count
  estimated : tg.estimateDtInt marks = some (.fin dt)
  positive : 0 < dt
  divides : count * dt = m - t
  enough : StepsKeep (m - t) tg.upperConstraint count
  least : ∀ fewer, 0 < fewer → StepsKeep (m - t) tg.upperConstraint fewer → count ≤ fewer

def EstimatesLeast (marks : TimeMarks) (tg : TimeGovernor) : Prop :=
  ∃ t m dt count, LeastSteps marks tg t m dt count

/-- The condition on the constraints for a distance to the next fixed mark. -/
structure CountsDistance (tg : TimeGovernor) (distance : ℚ) : Prop where
  coarse : tg.lowerConstraint ≤ .fin (10 ^ 14 * distance)
  fits : .fin distance ≤ tg.upperConstraint * .fin (2 ^ 31 - 1) ∨
    .fin distance ≤ tg.lowerConstraint * .fin (2 ^ 31 - 1)
  compatible : ∀ count, 0 < count → StepsKeep distance tg.lowerConstraint count →
    StepsKeep distance tg.upperConstraint count

def CountsSteps (marks : TimeMarks) (tg : TimeGovernor) : Prop :=
  ∃ t m : ℚ, tg.time = .fin t ∧ (marks.next tg tg.fixedTimeMarkMask).time = .fin m ∧
    CountsDistance tg (m - t)

variable {marks : TimeMarks} {tg : TimeGovernor} {t m d s l : ℚ}

/-! ## The conversions -/

section Conversions

theorem stepCount_le_iff (positive : 0 < s) (count : ℕ) :
    stepCount d s ≤ count ↔ d < s * (count + roundNStepsPrecision) := by
  unfold stepCount
  rw [Int.add_one_le_iff, Int.floor_lt, sub_lt_iff_lt_add, div_lt_iff₀ positive, Int.cast_natCast,
    mul_comm s]

/-- The number of steps is defined if the distance is at most that many steps. -/
theorem countSteps_fin (ahead : 0 < d) (positive : 0 < s) :
    countSteps (.fin d) (.fin s) =
      if d ≤ s * (2 ^ 31 - 1) then some (stepCount d s) else none := by
  have ratio : 0 < d / s := div_pos ahead positive
  obtain ⟨raised, isRaised⟩ := Int.eq_ofNat_of_zero_le (Int.ceil_nonneg ratio.le)
  obtain ⟨floored, isFloored⟩ := Int.eq_ofNat_of_zero_le (Int.floor_nonneg.mpr ratio.le)
  have fits : d ≤ s * (2 ^ 31 - 1) ↔ raised < 2 ^ 31 := by
    have bound : raised < 2 ^ 31 ↔ ⌈d / s⌉ ≤ (2 ^ 31 - 1 : ℤ) := by
      rw [isRaised]
      omega
    rw [bound, Int.ceil_le, div_le_iff₀ positive, mul_comm s]
    norm_num
  unfold countSteps
  rw [Double.fin_div_fin positive.ne', Double.ceil_fin, Double.floor_fin, isRaised, isFloored,
    Double.toInt_natCast, Double.toInt_natCast]
  by_cases inside : d ≤ s * (2 ^ 31 - 1)
  · have below : floored ≤ raised := by
      have ordered := Int.floor_le_ceil (d / s)
      rw [isRaised, isFloored] at ordered
      exact_mod_cast ordered
    have rounded := numberOfSteps_fin (d := d) positive
    unfold numberOfSteps at rounded
    rw [Double.fin_div_fin positive.ne', Double.ceil_fin, Double.floor_fin, isRaised,
      isFloored] at rounded
    rw [if_pos inside, if_pos (fits.mp inside), if_pos (below.trans_lt (fits.mp inside)),
      Option.bind_some, Option.map_some, Option.some_inj]
    dsimp only at rounded
    split_ifs at rounded ⊢
    · exact_mod_cast Double.fin.inj rounded
    · exact_mod_cast Double.fin.inj rounded
  · rw [if_neg inside, if_neg (mt fits.mpr inside)]
    rfl

theorem countSteps_posInf (d : ℚ) : countSteps (.fin d) .posInf = some 0 := by
  have zero : Double.toInt (.fin ((0 : ℕ) : ℤ)) = some ((0 : ℕ) : ℤ) := Double.toInt_natCast 0
  unfold countSteps
  rw [Double.fin_div_posInf, Double.ceil_fin, Double.floor_fin, Int.ceil_zero, Int.floor_zero]
  change (Double.toInt (.fin ((0 : ℕ) : ℤ))).bind _ = _
  rw [zero, Option.bind_some]
  change (Double.toInt (.fin ((0 : ℕ) : ℤ))).map _ = _
  rw [zero, Option.map_some, ite_self]
  rfl

theorem estimateDtInt_free (running : tg.isEnd = false) (unsteady : tg.steady = false)
    (free : tg.lt tg.endOfFixedDtInterval = false) (time : tg.time = .fin t)
    (mark : (marks.next tg tg.fixedTimeMarkMask).time = .fin m) :
    tg.estimateDtInt marks =
      (countSteps (.fin (m - t)) (wantedStep marks tg)).map
        fun nSteps => .fin (m - t) / .fin nSteps := by
  have notInf := ne_infTime running
  have distance : (marks.next tg tg.fixedTimeMarkMask).time - tg.time = .fin (m - t) := by
    rw [time, mark, Double.fin_sub_fin]
  unfold estimateDtInt wantedStep
  simp only [running, unsteady, free, notInf, distance, Bool.false_eq_true, false_and, or_self,
    if_false]

end Conversions

/-! ## The wanted step -/

section Wanted

variable {upper : Double}

/-- Neither constraint alone would ask for fewer steps than both. -/
structure IsWanted (d l : ℚ) (upper : Double) (s : ℚ) : Prop where
  positive : 0 < s
  less : ∀ c : ℚ, 1 < c → (d < s * c ↔ .fin d < upper * .fin c ∨ d < l * c)
  lessEq : ∀ c : ℚ, 1 ≤ c → (d ≤ s * c ↔ .fin d ≤ upper * .fin c ∨ d ≤ l * c)
  bounded : ∀ bound : ℚ, d ≤ bound → (s ≤ bound ↔ l ≤ bound)

theorem exists_wanted (number : upper ≠ .nan) (ahead : 0 < d) (positive : 0 < l) :
    ∃ s, Double.stdMax (Double.stdMin (.fin d) upper) (.fin l) = .fin s ∧
      IsWanted d l upper s := by
  cases upper with
  | nan => exact absurd rfl number
  | negInf =>
      refine ⟨l, rfl, positive, fun c large => ?_, fun c large => ?_, fun _ _ => Iff.rfl⟩
      · rw [Double.negInf_mul_fin (zero_lt_one.trans large), or_iff_right]
        exact nofun
      · rw [Double.negInf_mul_fin (zero_lt_one.trans_le large), or_iff_right]
        exact nofun
  | posInf =>
      refine ⟨max d l, Double.stdMax_fin, lt_max_of_lt_left ahead, fun c large => ?_,
        fun c large => ?_, fun bound above => max_le_iff.trans (and_iff_right above)⟩
      · rw [Double.posInf_mul_fin (zero_lt_one.trans large)]
        refine iff_of_true ?_ (.inl rfl)
        calc
          d < d * c := lt_mul_of_one_lt_right ahead large
          _ ≤ max d l * c := by gcongr; exact le_max_left d l
      · rw [Double.posInf_mul_fin (zero_lt_one.trans_le large)]
        refine iff_of_true ?_ (.inl rfl)
        calc
          d ≤ d * c := le_mul_of_one_le_right ahead.le large
          _ ≤ max d l * c := by gcongr; exact le_max_left d l
  | fin u =>
      refine ⟨max (min d u) l, ?_, lt_max_of_lt_right positive, fun c large => ?_,
        fun c large => ?_,
        fun bound above => max_le_iff.trans (and_iff_right ((min_le_left d u).trans above))⟩
      · rw [Double.stdMin_fin, Double.stdMax_fin]
      · have scaled : 0 ≤ c := (zero_lt_one.trans large).le
        have further : d < d * c := lt_mul_of_one_lt_right ahead large
        rw [Double.fin_mul_fin, Double.fin_lt_fin, max_mul_of_nonneg _ _ scaled,
          min_mul_of_nonneg _ _ scaled, lt_max_iff, lt_min_iff, and_iff_right further]
      · have scaled : 0 ≤ c := zero_le_one.trans large
        have further : d ≤ d * c := le_mul_of_one_le_right ahead.le large
        rw [Double.fin_mul_fin, Double.fin_le_fin, max_mul_of_nonneg _ _ scaled,
          min_mul_of_nonneg _ _ scaled, le_max_iff, le_min_iff, and_iff_right further]

/-- A number of steps suffices for the wanted step if it does for one of the constraints. -/
theorem IsWanted.stepCount_le_iff (wanted : IsWanted d l upper s) {count : ℕ}
    (some_ : 0 < count) :
    stepCount d s ≤ count ↔ StepsKeep d upper count ∨ StepsKeep d (.fin l) count := by
  have many : (1 : ℚ) ≤ count := by exact_mod_cast some_
  have precision := roundNStepsPrecision_pos
  rw [TimeGovernor.stepCount_le_iff wanted.positive, wanted.less _ (by linarith)]
  unfold StepsKeep
  rw [Double.fin_mul_fin, Double.fin_lt_fin]

/-- A step that suffices suffices for more steps. -/
theorem StepsKeep.more {count more : ℕ} (ahead : 0 < d) (enough : StepsKeep d upper count)
    (more_ : count ≤ more) : StepsKeep d upper more := by
  have precision := roundNStepsPrecision_pos
  have scale : (0 : ℚ) < count + roundNStepsPrecision := by positivity
  have larger : (count : ℚ) + roundNStepsPrecision ≤ more + roundNStepsPrecision := by
    have cast : (count : ℚ) ≤ more := by exact_mod_cast more_
    linarith
  unfold StepsKeep at enough ⊢
  cases upper with
  | nan =>
      rw [Double.nan_mul] at enough
      cases enough
  | negInf =>
      rw [Double.negInf_mul_fin scale] at enough
      cases enough
  | posInf =>
      rw [Double.posInf_mul_fin (scale.trans_le larger)]
      rfl
  | fin u =>
      rw [Double.fin_mul_fin, Double.fin_lt_fin] at enough ⊢
      have nonneg : 0 ≤ u := by
        by_contra negative
        have below := mul_neg_of_neg_of_pos (not_le.mp negative) scale
        linarith
      exact enough.trans_le (mul_le_mul_of_nonneg_left larger nonneg)

theorem IsWanted.stepCount_pos_iff (wanted : IsWanted d l upper s) (ahead : 0 < d) :
    0 < stepCount d s ↔ l ≤ 10 ^ 14 * d := by
  rw [← wanted.bounded (10 ^ 14 * d) (by linarith)]
  constructor
  · intro counted
    by_contra long
    rw [stepCount_eq_zero wanted.positive ahead (not_le.mp long)] at counted
    exact lt_irrefl _ counted
  · exact stepCount_pos wanted.positive

/-- The number of steps suffices for the upper constraint only if it does wherever the lower one
is kept. -/
theorem IsWanted.enough_iff (wanted : IsWanted d l upper s) (ahead : 0 < d) {count : ℕ}
    (nonzero : 0 < count) (counted : stepCount d s = count) :
    StepsKeep d upper count ↔
      ∀ other, 0 < other → StepsKeep d (.fin l) other → StepsKeep d upper other := by
  constructor
  · intro enough other some_ forLower
    have notLess := (wanted.stepCount_le_iff some_).mpr (.inr forLower)
    rw [counted] at notLess
    exact enough.more ahead (by exact_mod_cast notLess)
  · intro compatible
    rcases (wanted.stepCount_le_iff nonzero).mp counted.le with forUpper | forLower
    · exact forUpper
    · exact compatible count nonzero forLower

end Wanted

/-! ## The least number of steps -/

section Least

theorem LeastSteps.before {dt : ℚ} {count : ℕ} (least : LeastSteps marks tg t m dt count) :
    t < m := by
  have next := lt_next marks tg.fixedTimeMarkMask least.time
  rw [least.mark] at next
  exact before_of_lt least.time next

theorem wantedStep_posInf (time : tg.time = .fin t)
    (mark : (marks.next tg tg.fixedTimeMarkMask).time = .fin m)
    (lower : tg.lowerConstraint = .posInf) (number : tg.upperConstraint ≠ .nan) :
    wantedStep marks tg = .posInf := by
  unfold wantedStep
  rw [time, mark, lower, Double.fin_sub_fin]
  unfold Double.stdMax
  split_ifs with less
  · rfl
  · cases upper : tg.upperConstraint with
    | nan => exact absurd upper number
    | negInf =>
        rw [upper] at less
        exact absurd rfl less
    | posInf =>
        rw [upper] at less
        exact absurd rfl less
    | fin u =>
        rw [upper, Double.stdMin_fin] at less
        exact absurd rfl less

theorem LeastSteps.countsSteps {dt : ℚ} {count : ℕ} (least : LeastSteps marks tg t m dt count)
    (lower : tg.lowerConstraint = .fin l) (positive : 0 < l) (number : tg.upperConstraint ≠ .nan) :
    CountsSteps marks tg := by
  have ahead : 0 < m - t := sub_pos.mpr least.before
  obtain ⟨s, isWanted, wanted⟩ := exists_wanted number ahead positive
  have counted := least.counted
  unfold wantedStep at counted
  rw [least.time, least.mark, lower, Double.fin_sub_fin, isWanted,
    countSteps_fin ahead wanted.positive] at counted
  split_ifs at counted with fits
  rw [Option.some_inj] at counted
  refine ⟨t, m, least.time, least.mark, ?_, ?_, ?_⟩
  · rw [lower, Double.fin_le_fin, ← wanted.stepCount_pos_iff ahead, counted]
    exact_mod_cast least.nonzero
  · rw [lower, Double.fin_mul_fin, Double.fin_le_fin]
    exact (wanted.lessEq _ (by norm_num)).mp fits
  · rw [lower]
    exact (wanted.enough_iff ahead least.nonzero counted).mp least.enough

theorem CountsSteps.estimatesLeast (condition : CountsSteps marks tg)
    (running : tg.isEnd = false) (unsteady : tg.steady = false)
    (free : tg.lt tg.endOfFixedDtInterval = false) (lower : tg.lowerConstraint = .fin l)
    (positive : 0 < l) (number : tg.upperConstraint ≠ .nan) : EstimatesLeast marks tg := by
  obtain ⟨t, m, time, mark, coarse, fits, compatible⟩ := condition
  have ahead : 0 < m - t := by
    have next := lt_next marks tg.fixedTimeMarkMask time
    rw [mark] at next
    exact sub_pos.mpr (before_of_lt time next)
  obtain ⟨s, isWanted, wanted⟩ := exists_wanted number ahead positive
  rw [lower, Double.fin_le_fin, ← wanted.stepCount_pos_iff ahead] at coarse
  rw [lower, Double.fin_mul_fin, Double.fin_le_fin, ← wanted.lessEq _ (by norm_num)] at fits
  rw [lower] at compatible
  obtain ⟨count, isCount⟩ := Int.eq_ofNat_of_zero_le coarse.le
  have nonzero : 0 < count := by
    rw [isCount] at coarse
    exact_mod_cast coarse
  have counted : countSteps (.fin (m - t)) (wantedStep marks tg) = some (count : ℤ) := by
    unfold wantedStep
    rw [time, mark, lower, Double.fin_sub_fin, isWanted, countSteps_fin ahead wanted.positive,
      if_pos fits, isCount]
  have nonzeroCast : ((count : ℤ) : ℚ) ≠ 0 := by exact_mod_cast nonzero.ne'
  refine ⟨t, m, (m - t) / count, count, time, mark, counted, nonzero, ?_,
    div_pos ahead (by exact_mod_cast nonzero), mul_div_cancel₀ _ (by exact_mod_cast nonzeroCast),
    (wanted.enough_iff ahead nonzero isCount).mpr compatible, ?_⟩
  · rw [estimateDtInt_free running unsteady free time mark, counted, Option.map_some,
      Double.fin_div_fin nonzeroCast, Int.cast_natCast]
  · intro fewer some_ enough
    have notLess := (wanted.stepCount_le_iff some_).mpr (.inl enough)
    rw [isCount] at notLess
    exact_mod_cast notLess

theorem estimatesLeast_iff (running : tg.isEnd = false) (unsteady : tg.steady = false)
    (free : tg.lt tg.endOfFixedDtInterval = false) (lowerPositive : .fin 0 < tg.lowerConstraint)
    (number : tg.upperConstraint ≠ .nan) : EstimatesLeast marks tg ↔ CountsSteps marks tg := by
  cases lower : tg.lowerConstraint with
  | nan =>
      rw [lower] at lowerPositive
      cases lowerPositive
  | negInf =>
      rw [lower] at lowerPositive
      cases lowerPositive
  | posInf =>
      constructor
      · rintro ⟨t, m, dt, count, least⟩
        have counted := least.counted
        have nonzero := least.nonzero
        rw [wantedStep_posInf least.time least.mark lower number, countSteps_posInf,
          Option.some_inj] at counted
        omega
      · rintro ⟨t, m, time, mark, condition⟩
        have coarse := condition.coarse
        rw [lower] at coarse
        cases coarse
  | fin l =>
      rw [lower, Double.fin_lt_fin] at lowerPositive
      constructor
      · rintro ⟨t, m, dt, count, least⟩
        exact least.countsSteps lower lowerPositive number
      · intro condition
        exact condition.estimatesLeast running unsteady free lower lowerPositive number

/-- A lower constraint that is not above the upper one is compatible with it. -/
theorem StepsKeep.mono {step upper : Double} {count : ℕ} (enough : StepsKeep d step count)
    (ordered : step ≤ upper) : StepsKeep d upper count := by
  have precision := roundNStepsPrecision_pos
  have scale : (0 : ℚ) < count + roundNStepsPrecision := by positivity
  unfold StepsKeep at enough ⊢
  cases step with
  | nan =>
      rw [Double.nan_mul] at enough
      cases enough
  | negInf =>
      rw [Double.negInf_mul_fin scale] at enough
      cases enough
  | posInf => cases upper <;> first | exact enough | cases ordered
  | fin s =>
      cases upper with
      | nan => cases ordered
      | negInf => cases ordered
      | posInf =>
          rw [Double.posInf_mul_fin scale]
          rfl
      | fin u =>
          rw [Double.fin_mul_fin, Double.fin_lt_fin] at enough ⊢
          rw [Double.fin_le_fin] at ordered
          exact enough.trans_le (mul_le_mul_of_nonneg_right ordered scale.le)

end Least

end TimeGovernor

end Flow123d
