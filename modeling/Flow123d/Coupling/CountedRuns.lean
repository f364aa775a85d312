import Flow123d.Coupling.CountedSteps

/-!
# Runs with counted steps

The calls of a governor with the number of steps in an `int`. While the counts fit, they are the
calls of `TimeGovernor`, the time stays finite, and in every state that is reached the estimated
step is the least exactly under the condition on the constraints.
-/

set_option autoImplicit false

namespace Flow123d

open Flow123d.Library

namespace TimeGovernor

/-- A fixed interval needs no number of steps. -/
def chooseStepInt (marks : TimeMarks) (tg : TimeGovernor) : Option TimeGovernor :=
  if tg.lt tg.endOfFixedDtInterval then some (tg.chooseStep marks)
  else
    (tg.estimateDtInt marks).map fun timeStep =>
      { tg with
        lastTimeStep := tg.timeStep
        timeStep := timeStep
        dtChanged := !tg.timeStep.equal timeStep }

def nextTimeInt (marks : TimeMarks) (tg : TimeGovernor) : Option TimeGovernor :=
  if tg.time = infTime ∨ tg.isEnd then some tg
  else if tg.steady then some (tg.nextTime marks)
  else (tg.chooseStepInt marks).map advance

def fixDtUntilMarkInt (marks : TimeMarks) (tg : TimeGovernor) : Option TimeGovernor :=
  if tg.steady then some tg
  else
    (tg.release.estimateDtInt marks).map fun fixedDt =>
      { tg with
        fixedDt := fixedDt
        dtFixedNow := true
        endOfFixedDtInterval := (marks.next tg tg.fixedTimeMarkMask).time }

inductive Request where
  | setPermanentConstraint (minDt maxDt : Double)
  | setUpperConstraint (upper : Double)
  | setLowerConstraint (lower : Double)
  | fixDtUntilMark
  | nextTime
deriving DecidableEq

/-- There is no state behind a message of the program. -/
def request (marks : TimeMarks) (tg : TimeGovernor) : Request → Option TimeGovernor
  | .setPermanentConstraint minDt maxDt => (tg.setPermanentConstraint minDt maxDt).toOption
  | .setUpperConstraint upper => some (tg.setUpperConstraint upper).1
  | .setLowerConstraint lower => some (tg.setLowerConstraint lower).1
  | .fixDtUntilMark => tg.fixDtUntilMarkInt marks
  | .nextTime => tg.nextTimeInt marks

/-- The condition on a request in the state before it. -/
def Counted (marks : TimeMarks) (tg : TimeGovernor) : Request → Prop
  | .setPermanentConstraint minDt maxDt => minDt ≠ .nan ∧ maxDt ≠ .nan
  | .setUpperConstraint _ => True
  | .setLowerConstraint _ => True
  | .fixDtUntilMark => tg.isEnd = false → CountsSteps marks tg
  | .nextTime => tg.isEnd = false → tg.lt tg.endOfFixedDtInterval = false → CountsSteps marks tg

/-- Marks may be added between the requests. -/
inductive Reached (start : TimeGovernor) : TimeGovernor → Prop where
  | start : Reached start start
  | request {tg next : TimeGovernor} {marks : TimeMarks} {request : Request}
      (reached : Reached start tg) (counted : Counted marks tg request)
      (result : tg.request marks request = some next) : Reached start next

/-- The step of a fixed interval leads to its end. -/
structure Timed (tg : TimeGovernor) : Prop where
  unsteady : tg.steady = false
  finiteEnd : ∃ e : ℚ, tg.endTime = .fin e
  minPositive : .fin 0 < tg.minTimeStep
  lowerPositive : .fin 0 < tg.lowerConstraint
  upperNumber : tg.upperConstraint ≠ .nan
  time : ∃ t : ℚ, 0 ≤ t ∧ tg.time = .fin t
  fixed : tg.isEnd = false → tg.lt tg.endOfFixedDtInterval = true → ∃ t target dt : ℚ,
    tg.endOfFixedDtInterval = .fin target ∧ tg.fixedDt = .fin dt ∧ Aims tg t target (.fin dt)

variable {marks : TimeMarks} {tg next : TimeGovernor} {t m : ℚ}

/-! ## Where the counts fit -/

section Agreement

theorem toInt_floor {a : Double} {whole : ℤ} (converted : a.floor.toInt = some whole) :
    a.floor = .fin whole := by
  cases a with
  | fin value =>
      have same : (if ((⌊value⌋ : ℤ) : ℚ) < 0 then ⌈((⌊value⌋ : ℤ) : ℚ)⌉
          else ⌊((⌊value⌋ : ℤ) : ℚ)⌋) = ⌊value⌋ := by
        rw [Int.ceil_intCast, Int.floor_intCast, ite_self]
      unfold Double.toInt Double.floor at converted
      simp only [same] at converted
      split_ifs at converted with fits
      rw [Double.floor_fin, Option.some_inj.mp converted]
  | _ => cases converted

theorem toInt_ceil {a : Double} {whole : ℤ} (converted : a.ceil.toInt = some whole) :
    a.ceil = .fin whole := by
  cases a with
  | fin value =>
      have same : (if ((⌈value⌉ : ℤ) : ℚ) < 0 then ⌈((⌈value⌉ : ℤ) : ℚ)⌉
          else ⌊((⌈value⌉ : ℤ) : ℚ)⌋) = ⌈value⌉ := by
        rw [Int.ceil_intCast, Int.floor_intCast, ite_self]
      unfold Double.toInt Double.ceil at converted
      simp only [same] at converted
      split_ifs at converted with fits
      rw [Double.ceil_fin, Option.some_inj.mp converted]
  | _ => cases converted

theorem numberOfSteps_of_countSteps {fullStep stepEstimate : Double} {count : ℤ}
    (counted : countSteps fullStep stepEstimate = some count) :
    numberOfSteps fullStep stepEstimate = .fin count := by
  unfold countSteps at counted
  obtain ⟨raised, isRaised, later⟩ := Option.bind_eq_some_iff.mp counted
  obtain ⟨floored, isFloored, result⟩ := Option.map_eq_some_iff.mp later
  unfold numberOfSteps
  rw [toInt_floor isFloored, toInt_ceil isRaised, ← result]
  dsimp only
  split_ifs <;> rfl

/-- The unbounded count gives the same step. -/
theorem estimateDt_of_estimateDtInt {dt : Double}
    (estimated : tg.estimateDtInt marks = some dt) : tg.estimateDt marks = dt := by
  unfold estimateDtInt at estimated
  unfold estimateDt
  split_ifs at estimated ⊢
  · exact Option.some_inj.mp estimated
  · exact Option.some_inj.mp estimated
  · exact Option.some_inj.mp estimated
  · exact Option.some_inj.mp estimated
  · obtain ⟨count, counted, result⟩ := Option.map_eq_some_iff.mp estimated
    dsimp only
    rw [numberOfSteps_of_countSteps counted, result]

theorem nextTime_of_nextTimeInt (result : tg.nextTimeInt marks = some next) :
    tg.nextTime marks = next := by
  unfold nextTimeInt chooseStepInt at result
  unfold nextTime
  split_ifs at result ⊢ with ended steady fixed
  · exact Option.some_inj.mp result
  · unfold nextTime at result
    rw [if_neg ended, if_pos steady] at result
    exact Option.some_inj.mp result
  · exact Option.some_inj.mp result
  · rw [Option.map_map] at result
    obtain ⟨dt, estimated, same⟩ := Option.map_eq_some_iff.mp result
    unfold chooseStep
    rw [if_neg fixed, estimateDt_of_estimateDtInt estimated]
    exact same

end Agreement

/-! ## The requests keep the time finite -/

namespace Timed

/-- What a counted step does. -/
theorem nextTime_cases (timed : Timed tg) (running : tg.isEnd = false)
    (counted : Counted marks tg .nextTime) : ∃ (t target dt : ℚ) (dtFixedNow dtChanged : Bool),
      Aims tg t target (.fin dt) ∧
      tg.nextTime marks = tg.stepped (.fin dt) dtFixedNow dtChanged ∧
      (tg.lt tg.endOfFixedDtInterval = true →
        tg.endOfFixedDtInterval = .fin target ∧ tg.fixedDt = .fin dt) := by
  rw [nextTime_unsteady running timed.unsteady]
  unfold chooseStep
  cases fixed : tg.lt tg.endOfFixedDtInterval with
  | true =>
      obtain ⟨t, target, dt, end_, fixedDt, aims⟩ := timed.fixed running fixed
      have sameStep : tg.correctedDt = .fin dt := by
        rw [← fixedDt] at aims ⊢
        exact aims.correctedDt end_
      refine ⟨t, target, dt, false, tg.dtFixedNow && !tg.timeStep.equal (.fin dt), aims, ?_,
        fun _ => ⟨end_, fixedDt⟩⟩
      rw [sameStep, ← fixedDt]
      rfl
  | false =>
      obtain ⟨t, m, dt, count, least⟩ :=
        (estimatesLeast_iff running timed.unsteady fixed timed.lowerPositive
          timed.upperNumber).mpr (counted running fixed)
      obtain ⟨t', nonneg, time⟩ := timed.time
      rw [least.time, Double.fin.injEq] at time
      have many : (count : ℚ) ≠ 0 := by exact_mod_cast least.nonzero.ne'
      have step : dt = (m - t) / count := by
        rw [eq_div_iff many, mul_comm, least.divides]
      rw [estimateDt_of_estimateDtInt least.estimated]
      exact ⟨t, m, dt, tg.dtFixedNow, _, ⟨least.time, time ▸ nonneg, least.before,
        .inr ⟨count, least.nonzero, congrArg _ step⟩⟩, rfl, nofun⟩

theorem nextTime (timed : Timed tg) (counted : Counted marks tg .nextTime) :
    Timed (tg.nextTime marks) := by
  cases running : tg.isEnd with
  | true =>
      rw [nextTime_of_isEnd running]
      exact timed
  | false =>
      obtain ⟨t, target, dt, dtFixedNow, dtChanged, aims, stepped, fixed⟩ :=
        timed.nextTime_cases running counted
      obtain ⟨e, end_⟩ := timed.finiteEnd
      obtain infinite | ⟨t', later, -, time⟩ := aims.stepped_time dtFixedNow dtChanged
      · have sum : tg.time + .fin dt = .posInf := infinite
        rw [aims.time] at sum
        cases sum
      · rw [stepped]
        refine
          { unsteady := timed.unsteady
            finiteEnd := timed.finiteEnd
            minPositive := timed.minPositive
            lowerPositive := timed.minPositive
            upperNumber := ?_
            time := ⟨t', aims.nonneg.trans later.le, time⟩
            fixed := ?_ }
        · change Double.stdMin (tg.endTime - (tg.time + .fin dt)) tg.maxTimeStep ≠ .nan
          refine Double.stdMin_number ?_ _
          rw [end_, aims.time, Double.fin_add_fin, Double.fin_sub_fin]
          exact Double.noConfusion
        · intro goesOn stays
          obtain ⟨isTarget, isStep⟩ :=
            fixed (lt_of_later aims.time time aims.nonneg later.le stays)
          have ahead : (tg.stepped (.fin dt) dtFixedNow dtChanged).lt (.fin target) = true := by
            rw [← isTarget]
            exact stays
          exact ⟨t', target, dt, isTarget, isStep,
            aims.stepped_fixed dtFixedNow dtChanged time ahead⟩

/-- Leaving the fixed interval changes no constraint. -/
theorem countsSteps_release (condition : CountsSteps marks tg) : CountsSteps marks tg.release := by
  obtain ⟨t, m, time, mark, coarse, fits, compatible⟩ := condition
  exact ⟨t, m, time, mark, coarse, fits, compatible⟩

theorem fixDtUntilMark (timed : Timed tg) (counted : Counted marks tg .fixDtUntilMark)
    (result : tg.fixDtUntilMarkInt marks = some next) : Timed next := by
  unfold fixDtUntilMarkInt at result
  rw [if_neg (by simp [timed.unsteady])] at result
  obtain ⟨fixedDt, estimated, rfl⟩ := Option.map_eq_some_iff.mp result
  refine { timed with fixed := ?_ }
  intro running _
  obtain ⟨t, nonneg, time⟩ := timed.time
  have released : tg.release.isEnd = false := running
  have free : tg.release.lt tg.release.endOfFixedDtInterval = false := not_lt_negInf time
  obtain ⟨t', m, dt, count, least⟩ :=
    (estimatesLeast_iff released timed.unsteady free timed.lowerPositive timed.upperNumber).mpr
      (countsSteps_release (counted running))
  have sameTime : t' = t := Double.fin.inj (least.time.symm.trans time)
  have many : (count : ℚ) ≠ 0 := by exact_mod_cast least.nonzero.ne'
  have step : dt = (m - t') / count := by
    rw [eq_div_iff many, mul_comm, least.divides]
  have isStep : fixedDt = .fin dt := Option.some_inj.mp (estimated.symm.trans least.estimated)
  exact ⟨t', m, dt, least.mark, isStep, least.time, sameTime ▸ nonneg, least.before,
    .inr ⟨count, least.nonzero, congrArg _ step⟩⟩

theorem setConstraints (timed : Timed tg) {upper lower max min : Double}
    (minPositive : .fin 0 < min) (lowerPositive : .fin 0 < lower) (number : upper ≠ .nan) :
    Timed { tg with
      upperConstraint := upper
      lowerConstraint := lower
      maxTimeStep := max
      minTimeStep := min } :=
  { unsteady := timed.unsteady
    finiteEnd := timed.finiteEnd
    minPositive := minPositive
    lowerPositive := lowerPositive
    upperNumber := number
    time := timed.time
    fixed := by
      intro running less
      obtain ⟨t, target, dt, end_, fixedDt, time, nonneg, before, divides⟩ :=
        timed.fixed running less
      exact ⟨t, target, dt, end_, fixedDt, time, nonneg, before, divides⟩ }

theorem setPermanentConstraint (timed : Timed tg) {minDt maxDt : Double}
    (numbers : minDt ≠ .nan ∧ maxDt ≠ .nan)
    (result : (tg.setPermanentConstraint minDt maxDt).toOption = some next) : Timed next := by
  have positive := epsilon_pos
  unfold TimeGovernor.setPermanentConstraint at result
  split_ifs at result
  · cases result
  · cases result
  · cases result
    have minPositive : .fin 0 < Double.stdMax minDt (.fin timeStepLowerBound) := by
      unfold Double.stdMax
      have bound : .fin 0 < Double.fin timeStepLowerBound :=
        (Double.fin_lt_fin 0 timeStepLowerBound).mpr positive
      split_ifs with less
      · exact bound
      · exact Double.lt_of_lt_of_le bound (Double.le_of_not_lt numbers.1 Double.noConfusion less)
    exact timed.setConstraints minPositive minPositive (Double.stdMin_number numbers.2 _)

theorem setUpperConstraint (timed : Timed tg) (upper : Double) :
    Timed (tg.setUpperConstraint upper).1 := by
  rcases tg.setUpperConstraint_cases upper with same | ⟨set, -, inside⟩
  · rw [same]
    exact timed
  · rw [set]
    exact timed.setConstraints timed.minPositive timed.lowerPositive
      (Double.ne_nan_of_le inside).2

theorem setLowerConstraint (timed : Timed tg) (lower : Double) :
    Timed (tg.setLowerConstraint lower).1 := by
  rcases tg.setLowerConstraint_cases lower with same | ⟨set, -, inside⟩
  · rw [same]
    exact timed
  · rw [set]
    exact timed.setConstraints timed.minPositive
      (Double.lt_of_lt_of_le timed.minPositive inside) timed.upperNumber

theorem request (timed : Timed tg) {request : Request} (counted : Counted marks tg request)
    (result : tg.request marks request = some next) : Timed next := by
  cases request with
  | setPermanentConstraint minDt maxDt => exact timed.setPermanentConstraint counted result
  | setUpperConstraint upper =>
      cases result
      exact timed.setUpperConstraint upper
  | setLowerConstraint lower =>
      cases result
      exact timed.setLowerConstraint lower
  | fixDtUntilMark => exact timed.fixDtUntilMark counted result
  | nextTime =>
      rw [← nextTime_of_nextTimeInt result]
      exact timed.nextTime counted

end Timed

/-! ## The estimated steps of a run -/

theorem create_timed {marks₀ final : TimeMarks} {input : Record}
    {fixedTimeMask : TimeMark.MarkType}
    (created : create marks₀ input fixedTimeMask = .ok (tg, final)) : Timed tg := by
  have proper := create_proper created
  have notFixed := create_free created
  obtain ⟨start, -, -, -, -, same⟩ := create_cases created
  exact
    { unsteady := proper.unsteady
      finiteEnd := proper.finiteEnd
      minPositive := proper.minPositive
      lowerPositive := proper.lowerPositive
      upperNumber := by
        rw [same]
        cases given : input.initDt <;> simp [Record.governor, given, infTime]
      time := ⟨input.startTime, start, by rw [same]; rfl⟩
      fixed := by
        intro _ less
        rw [notFixed] at less
        cases less }

theorem Reached.timed {start : TimeGovernor} (reached : Reached start tg) (timed : Timed start) :
    Timed tg := by
  induction reached with
  | start => exact timed
  | request _ counted result ih => exact ih.request counted result

/-- In every state of a run whose counts fit, the estimated step is the least under the
condition on the constraints. -/
theorem reached_estimatesLeast_iff {start : TimeGovernor} {marks₀ final : TimeMarks}
    {input : Record} {fixedTimeMask : TimeMark.MarkType} (marks : TimeMarks)
    (created : create marks₀ input fixedTimeMask = .ok (start, final))
    (reached : Reached start tg) (running : tg.isEnd = false)
    (free : tg.lt tg.endOfFixedDtInterval = false) :
    EstimatesLeast marks tg ↔ CountsSteps marks tg := by
  have timed := reached.timed (create_timed created)
  exact estimatesLeast_iff running timed.unsteady free timed.lowerPositive timed.upperNumber

/-- A first step of at most one unit, when a mark is ahead at `5 / 2`. -/
theorem reached_estimatesLeast_iff_second_step :
    EstimatesLeast (tenUnitsMarks (5 / 2))
        ((((tenUnits none (some 1)).governor 1).setUpperConstraint (.fin 1)).1.nextTime
          (tenUnitsMarks (5 / 2))) ↔
      CountsSteps (tenUnitsMarks (5 / 2))
        ((((tenUnits none (some 1)).governor 1).setUpperConstraint (.fin 1)).1.nextTime
          (tenUnitsMarks (5 / 2))) :=
  reached_estimatesLeast_iff _
    (create_tenUnits 0 none (some 1) rfl (by decide +kernel) (by decide +kernel)
      (by decide +kernel)).choose_spec
    (@Reached.request _ _ _ (tenUnitsMarks (5 / 2)) .nextTime
      (@Reached.request _ _ _ (tenUnitsMarks (5 / 2)) (.setUpperConstraint (.fin 1)) .start
        trivial rfl)
      (fun _ _ => ⟨0, 5 / 2, by decide +kernel, by decide +kernel, by decide +kernel,
        .inl (by decide +kernel), fun _ _ forLower => forLower.mono (by decide +kernel)⟩)
      (by decide +kernel))
    (by decide +kernel) (by decide +kernel)

/-- A long interval with unit steps. -/
def longRecord : Record := ⟨0, 10 ^ 10, some 1, none, none⟩

def longMarks : TimeMarks := (TimeMarks.create.add (markAt 0 1)).add (markAt (10 ^ 10) 1)

/-- The number of steps does not fit. -/
theorem not_always_estimatesLeast :
    ¬ ∀ (marks marks₀ final : TimeMarks) (start tg : TimeGovernor) (input : Record)
      (fixedTimeMask : TimeMark.MarkType),
      create marks₀ input fixedTimeMask = .ok (start, final) → Reached start tg →
      tg.isEnd = false → tg.lt tg.endOfFixedDtInterval = false → EstimatesLeast marks tg := by
  intro always
  obtain ⟨final, created⟩ := create_of_checks TimeMarks.create longRecord 0
    (by decide +kernel) (by decide +kernel) (by decide +kernel) (by decide +kernel)
    (by decide +kernel)
  obtain ⟨t, m, dt, count, least⟩ := always longMarks _ final _ _ longRecord 0 created .start
    (by decide +kernel) (by decide +kernel)
  obtain ⟨t', m', time, mark, condition⟩ :=
    least.countsSteps (l := 1) (by decide +kernel) zero_lt_one (by decide +kernel)
  have start : t' = 0 := Double.fin.inj (time.symm.trans (by decide +kernel))
  have end_ : m' = 10 ^ 10 := Double.fin.inj (mark.symm.trans (by decide +kernel))
  have fits := condition.fits
  rw [start, end_] at fits
  revert fits
  decide +kernel

end TimeGovernor

end Flow123d
