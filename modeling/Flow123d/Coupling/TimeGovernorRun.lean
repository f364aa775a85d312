import Flow123d.Coupling.TimeGovernorProperties

/-!
# The invariant of an unsteady time governor

Before the end the time is finite and both constraints are positive, and the step of
a fixed interval divides the way to its end. The calls keep this as long as a finite
fixed mark is ahead whenever a step is selected.
-/

set_option autoImplicit false

namespace Flow123d

open Flow123d.Library

namespace TimeGovernor

variable {marks : TimeMarks} {tg : TimeGovernor} {t target m s : ℚ} {step : Double}

/-- The step that `estimate_dt` divides the way to the next fixed mark by. -/
def wantedStep (marks : TimeMarks) (tg : TimeGovernor) : Double :=
  Double.stdMax
    (Double.stdMin ((marks.next tg tg.fixedTimeMarkMask).time - tg.time) tg.upperConstraint)
    tg.lowerConstraint

def MarkAhead (marks : TimeMarks) (tg : TimeGovernor) : Prop :=
  ∃ mark : ℚ, (marks.next tg tg.fixedTimeMarkMask).time = .fin mark

/-- The call selects a new step, for itself or for a fixed interval. -/
def Selects (tg : TimeGovernor) : Call → Prop
  | .setUpperConstraint _ => False
  | .setLowerConstraint _ => False
  | .fixDtUntilMark => tg.isEnd = false
  | .nextTime => tg.isEnd = false ∧ tg.lt tg.endOfFixedDtInterval = false

/-- The next fixed mark is finite, and the wanted step is at most `10 ^ 14` times
as long as the way to it. -/
structure SoundStep (marks : TimeMarks) (tg : TimeGovernor) (t m s : ℚ) : Prop where
  time : tg.time = .fin t
  mark : (marks.next tg tg.fixedTimeMarkMask).time = .fin m
  wanted : wantedStep marks tg = .fin s
  coarse : s ≤ 10 ^ 14 * (m - t)

/-- The step leads to the target in some number of equal steps, or at once to the
infinite time. -/
structure Aims (tg : TimeGovernor) (t target : ℚ) (step : Double) : Prop where
  time : tg.time = .fin t
  nonneg : 0 ≤ t
  before : t < target
  divides : step = .posInf ∨ ∃ count : ℕ, 0 < count ∧ step = .fin ((target - t) / count)

structure Proper (tg : TimeGovernor) : Prop where
  unsteady : tg.steady = false
  finiteEnd : ∃ e : ℚ, tg.endTime = .fin e
  minPositive : .fin 0 < tg.minTimeStep
  min_le_max : tg.minTimeStep ≤ tg.maxTimeStep
  lowerPositive : .fin 0 < tg.lowerConstraint
  upperPositive : tg.isEnd = false → .fin 0 < tg.upperConstraint
  time : tg.time = .posInf ∨ ∃ t : ℚ, 0 ≤ t ∧ tg.time = .fin t
  fixed : tg.isEnd = false → tg.lt tg.endOfFixedDtInterval = true →
    ∃ t target, tg.endOfFixedDtInterval = .fin target ∧ Aims tg t target tg.fixedDt

/-- What `next_time` makes of an unsteady governor that is not at its end. -/
def stepped (tg : TimeGovernor) (step : Double) (dtFixedNow dtChanged : Bool) :
    TimeGovernor :=
  { tg with
    lastTimeStep := tg.timeStep
    timeStep := step
    dtFixedNow := dtFixedNow
    dtChanged := dtChanged }.advance

/-! ## The selected step -/

theorem wantedStep_cases (time : tg.time = .fin t)
    (mark : (marks.next tg tg.fixedTimeMarkMask).time = .fin m) (before : t < m)
    (lowerPositive : .fin 0 < tg.lowerConstraint)
    (upperPositive : .fin 0 < tg.upperConstraint) :
    wantedStep marks tg = .posInf ∨ ∃ s : ℚ, 0 < s ∧ wantedStep marks tg = .fin s := by
  have distance : 0 < m - t := sub_pos.mpr before
  unfold wantedStep
  rw [mark, time, Double.fin_sub_fin]
  have inner : ∃ s : ℚ, 0 < s ∧
      Double.stdMin (.fin (m - t)) tg.upperConstraint = .fin s := by
    cases upper : tg.upperConstraint with
    | nan => rw [upper] at upperPositive; cases upperPositive
    | negInf => rw [upper] at upperPositive; cases upperPositive
    | posInf => exact ⟨m - t, distance, rfl⟩
    | fin u =>
        rw [upper, Double.fin_lt_fin] at upperPositive
        exact ⟨min (m - t) u, lt_min distance upperPositive, Double.stdMin_fin⟩
  obtain ⟨s, positive, smaller⟩ := inner
  rw [smaller]
  cases lower : tg.lowerConstraint with
  | nan => rw [lower] at lowerPositive; cases lowerPositive
  | negInf => rw [lower] at lowerPositive; cases lowerPositive
  | posInf => exact .inl rfl
  | fin l => exact .inr ⟨max s l, lt_max_of_lt_left positive, Double.stdMax_fin⟩

theorem ne_infTime (running : tg.isEnd = false) : tg.time ≠ infTime := by
  intro infinite
  rw [isEnd_of_posInf infinite] at running
  cases running

theorem estimateDt_fixed (running : tg.isEnd = false) (unsteady : tg.steady = false)
    (fixed : tg.lt tg.endOfFixedDtInterval = true) : tg.estimateDt marks = tg.fixedDt := by
  have notInf := ne_infTime running
  unfold estimateDt
  simp [running, unsteady, fixed, notInf]

theorem estimateDt_free (running : tg.isEnd = false) (unsteady : tg.steady = false)
    (free : tg.lt tg.endOfFixedDtInterval = false) :
    tg.estimateDt marks =
      ((marks.next tg tg.fixedTimeMarkMask).time - tg.time) /
        numberOfSteps ((marks.next tg tg.fixedTimeMarkMask).time - tg.time)
          (wantedStep marks tg) := by
  have notInf := ne_infTime running
  unfold estimateDt
  simp [running, unsteady, free, notInf, wantedStep]

theorem nextTime_unsteady (running : tg.isEnd = false) (unsteady : tg.steady = false) :
    tg.nextTime marks = (tg.chooseStep marks).advance := by
  have notInf := ne_infTime running
  unfold nextTime
  simp [running, unsteady, notInf]

theorem numberOfSteps_posInf (d : ℚ) : numberOfSteps (.fin d) .posInf = .fin 0 := by
  unfold numberOfSteps
  simp only [Double.fin_div_posInf, Double.floor_fin, Double.ceil_fin, Int.floor_zero,
    Int.ceil_zero, Int.cast_zero, ite_self]

theorem posInf_div_numberOfSteps (wanted : Double) :
    .posInf / numberOfSteps .posInf wanted = .nan := by
  unfold numberOfSteps
  cases wanted with
  | nan => rfl
  | negInf => rfl
  | posInf => rfl
  | fin w =>
      change .posInf / (if (((if w < 0 then Double.negInf else .posInf) -
        (if w < 0 then Double.negInf else .posInf).floor).abs < .fin roundNStepsPrecision) then
          (if w < 0 then Double.negInf else .posInf).floor
        else (if w < 0 then Double.negInf else .posInf).ceil) = Double.nan
      by_cases negative : w < 0
      · simp only [negative, ↓reduceIte]
        rfl
      · simp only [negative, ↓reduceIte]
        rfl

theorem next_of_not_markAhead {t : ℚ} (time : tg.time = .fin t)
    (none_ : ¬MarkAhead marks tg) :
    (marks.next tg tg.fixedTimeMarkMask).time = .posInf := by
  cases mark : (marks.next tg tg.fixedTimeMarkMask).time with
  | posInf => rfl
  | fin m => exact absurd ⟨m, mark⟩ none_
  | nan => exact absurd mark (marks.next tg tg.fixedTimeMarkMask).isTime
  | negInf =>
      have next := lt_next marks tg.fixedTimeMarkMask time
      rw [mark, not_lt_negInf time] at next
      cases next

/-- Without a finite mark ahead the selected step is not a number. -/
theorem estimateDt_of_not_markAhead {t : ℚ} (running : tg.isEnd = false)
    (unsteady : tg.steady = false) (free : tg.lt tg.endOfFixedDtInterval = false)
    (time : tg.time = .fin t) (none_ : ¬MarkAhead marks tg) :
    tg.estimateDt marks = .nan := by
  rw [estimateDt_free running unsteady free, next_of_not_markAhead time none_, time,
    Double.posInf_sub_fin, posInf_div_numberOfSteps]

theorem markAhead_of_estimateDt {t dt : ℚ} (running : tg.isEnd = false)
    (unsteady : tg.steady = false) (free : tg.lt tg.endOfFixedDtInterval = false)
    (time : tg.time = .fin t) (estimated : tg.estimateDt marks = .fin dt) :
    MarkAhead marks tg := by
  by_contra none_
  rw [estimateDt_of_not_markAhead running unsteady free time none_] at estimated
  cases estimated

theorem estimateDt_sound (running : tg.isEnd = false) (unsteady : tg.steady = false)
    (free : tg.lt tg.endOfFixedDtInterval = false) (time : tg.time = .fin t)
    (mark : (marks.next tg tg.fixedTimeMarkMask).time = .fin m)
    (wanted : wantedStep marks tg = .fin s) (positive : 0 < s)
    (coarse : s ≤ 10 ^ 14 * (m - t)) :
    tg.estimateDt marks = .fin ((m - t) / stepCount (m - t) s) := by
  have counted : (stepCount (m - t) s : ℚ) ≠ 0 := by
    have := stepCount_pos positive coarse
    exact_mod_cast this.ne'
  rw [estimateDt_free running unsteady free, mark, time, wanted, Double.fin_sub_fin,
    numberOfSteps_fin positive, Double.fin_div_fin counted]

theorem estimateDt_divides (running : tg.isEnd = false) (unsteady : tg.steady = false)
    (free : tg.lt tg.endOfFixedDtInterval = false) (time : tg.time = .fin t)
    (mark : (marks.next tg tg.fixedTimeMarkMask).time = .fin m) (before : t < m)
    (lowerPositive : .fin 0 < tg.lowerConstraint)
    (upperPositive : .fin 0 < tg.upperConstraint) :
    tg.estimateDt marks = .posInf ∨
      ∃ count : ℕ, 0 < count ∧ tg.estimateDt marks = .fin ((m - t) / count) := by
  have distance : 0 < m - t := sub_pos.mpr before
  have free_ : tg.estimateDt marks = _ := estimateDt_free running unsteady free
  rw [mark, time, Double.fin_sub_fin] at free_
  obtain infinite | ⟨s, positive, finite⟩ :=
    wantedStep_cases time mark before lowerPositive upperPositive
  · rw [infinite, numberOfSteps_posInf, Double.fin_div_zero distance] at free_
    exact .inl free_
  · by_cases coarse : s ≤ 10 ^ 14 * (m - t)
    · have counted := stepCount_pos positive coarse
      obtain ⟨count, same⟩ := Int.eq_ofNat_of_zero_le counted.le
      refine .inr ⟨count, by omega, ?_⟩
      rw [estimateDt_sound running unsteady free time mark finite positive coarse, same]
      rfl
    · rw [finite, numberOfSteps_fin positive,
        stepCount_eq_zero positive distance (not_le.mp coarse), Int.cast_zero,
        Double.fin_div_zero distance] at free_
      exact .inl free_

theorem SoundStep.markAhead (sound : SoundStep marks tg t m s) : MarkAhead marks tg :=
  ⟨m, sound.mark⟩

theorem SoundStep.before (sound : SoundStep marks tg t m s) : t < m := by
  have next := lt_next marks tg.fixedTimeMarkMask sound.time
  rw [sound.mark] at next
  exact before_of_lt sound.time next

theorem SoundStep.positive (sound : SoundStep marks tg t m s)
    (lowerPositive : .fin 0 < tg.lowerConstraint)
    (upperPositive : .fin 0 < tg.upperConstraint) : 0 < s := by
  obtain infinite | ⟨s', positive, finite⟩ :=
    wantedStep_cases sound.time sound.mark sound.before lowerPositive upperPositive
  · rw [sound.wanted] at infinite
    cases infinite
  · rw [sound.wanted, Double.fin.injEq] at finite
    rwa [finite]

/-- The tiny correction changes nothing in exact arithmetic. -/
theorem Aims.correctedDt (aims : Aims tg t target tg.fixedDt)
    (end_ : tg.endOfFixedDtInterval = .fin target) : tg.correctedDt = tg.fixedDt := by
  have distance : 0 < target - t := sub_pos.mpr aims.before
  unfold TimeGovernor.correctedDt
  rw [end_, aims.time, Double.fin_sub_fin]
  obtain infinite | ⟨count, positive, finite⟩ := aims.divides
  · have rounded : (Double.fin 0).round = .fin 0 := Double.round_natCast 0
    rw [infinite, Double.fin_div_posInf, rounded, Double.fin_div_zero distance]
  · have nonzero : (count : ℚ) ≠ 0 := Nat.cast_ne_zero.mpr positive.ne'
    have ratio : (target - t) / ((target - t) / count) = count := by
      field_simp
    rw [finite, Double.fin_div_fin (div_ne_zero distance.ne' nonzero), ratio,
      Double.round_natCast, Double.fin_div_fin nonzero]

namespace Proper

theorem finiteTime (proper : Proper tg) (running : tg.isEnd = false) :
    ∃ t : ℚ, 0 ≤ t ∧ tg.time = .fin t := by
  obtain infinite | finite := proper.time
  · rw [isEnd_of_posInf infinite] at running
    cases running
  · exact finite

theorem estimateDt_aims (proper : Proper tg) (running : tg.isEnd = false)
    (ahead : tg.lt tg.endOfFixedDtInterval = false → MarkAhead marks tg) :
    ∃ t target, Aims tg t target (tg.estimateDt marks) ∧
      (tg.lt tg.endOfFixedDtInterval = true →
        tg.endOfFixedDtInterval = .fin target ∧ tg.estimateDt marks = tg.fixedDt) ∧
      (tg.lt tg.endOfFixedDtInterval = false →
        (marks.next tg tg.fixedTimeMarkMask).time = .fin target) := by
  cases fixed : tg.lt tg.endOfFixedDtInterval with
  | true =>
      obtain ⟨t, target, end_, aims⟩ := proper.fixed running fixed
      have same : tg.estimateDt marks = tg.fixedDt :=
        estimateDt_fixed running proper.unsteady fixed
      refine ⟨t, target, ?_, fun _ => ⟨end_, same⟩, by simp⟩
      rw [same]
      exact aims
  | false =>
      obtain ⟨t, nonneg, time⟩ := proper.finiteTime running
      obtain ⟨m, mark⟩ := ahead fixed
      have next := lt_next marks tg.fixedTimeMarkMask time
      rw [mark] at next
      have before := before_of_lt time next
      exact ⟨t, m, ⟨time, nonneg, before,
        estimateDt_divides running proper.unsteady fixed time mark before
          proper.lowerPositive (proper.upperPositive running)⟩, by simp, fun _ => mark⟩

/-- The mark of the end, which the constructor adds, is ahead before the end. -/
theorem markAhead_of_endMark (proper : Proper tg) (running : tg.isEnd = false)
    {mark : TimeMark} (member : mark ∈ marks.marks) (end_ : mark.time = tg.endTime)
    (matching : mark.matchMask tg.fixedTimeMarkMask = true) : MarkAhead marks tg := by
  obtain ⟨t, -, time⟩ := proper.finiteTime running
  obtain ⟨e, endTime⟩ := proper.finiteEnd
  have ahead : tg.lt mark.time = true := by
    rw [isEnd_fin time, Bool.not_eq_false'] at running
    rw [end_]
    exact running
  have first := next_first marks tg.fixedTimeMarkMask time member ahead matching
  have next := lt_next marks tg.fixedTimeMarkMask time
  rw [end_, endTime] at first
  cases found : (marks.next tg tg.fixedTimeMarkMask).time with
  | fin m => exact ⟨m, found⟩
  | nan => exact absurd found (marks.next tg tg.fixedTimeMarkMask).isTime
  | posInf =>
      rw [found] at first
      cases first
  | negInf =>
      rw [found, not_lt_negInf time] at next
      cases next

theorem nextTime_eq (proper : Proper tg) (running : tg.isEnd = false) :
    ∃ dtFixedNow dtChanged,
      tg.nextTime marks = tg.stepped (tg.estimateDt marks) dtFixedNow dtChanged := by
  rw [nextTime_unsteady running proper.unsteady]
  unfold chooseStep
  cases fixed : tg.lt tg.endOfFixedDtInterval with
  | true =>
      obtain ⟨t, target, end_, aims⟩ := proper.fixed running fixed
      have same : tg.estimateDt marks = tg.fixedDt :=
        estimateDt_fixed running proper.unsteady fixed
      rw [aims.correctedDt end_, same]
      exact ⟨_, _, rfl⟩
  | false => exact ⟨tg.dtFixedNow, _, rfl⟩

end Proper

theorem nextTime_of_isEnd (ended : tg.isEnd = true) : tg.nextTime marks = tg := by
  unfold nextTime
  simp [ended]

/-- A constraint that is refused, or that compares with nothing, changes nothing. -/
theorem setUpperConstraint_cases (tg : TimeGovernor) (upper : Double) :
    (tg.setUpperConstraint upper).1 = tg ∨
      ((tg.setUpperConstraint upper).1 = { tg with upperConstraint := upper } ∧
        ¬ tg.upperConstraint < upper ∧ tg.lowerConstraint ≤ upper) := by
  unfold setUpperConstraint
  split_ifs with above inside below
  · exact .inl rfl
  · exact .inr ⟨rfl, above, inside⟩
  · exact .inl rfl
  · exact .inl rfl

theorem setLowerConstraint_cases (tg : TimeGovernor) (lower : Double) :
    (tg.setLowerConstraint lower).1 = tg ∨
      ((tg.setLowerConstraint lower).1 = { tg with lowerConstraint := lower } ∧
        ¬ tg.upperConstraint < lower ∧ tg.minTimeStep ≤ lower) := by
  unfold setLowerConstraint
  split_ifs with above inside below
  · exact .inl rfl
  · exact .inr ⟨rfl, above, inside⟩
  · exact .inl rfl
  · exact .inl rfl

theorem fixDtUntilMark_unsteady (unsteady : tg.steady = false) :
    tg.fixDtUntilMark marks =
      ({ tg with
          fixedDt := tg.release.estimateDt marks
          dtFixedNow := true
          endOfFixedDtInterval := (marks.next tg tg.fixedTimeMarkMask).time },
        (marks.next tg tg.fixedTimeMarkMask).time) := by
  unfold fixDtUntilMark
  rw [if_neg (by simp [unsteady])]

/-! ## The calls keep the invariant -/

namespace Proper

theorem maxPositive (proper : Proper tg) : .fin 0 < tg.maxTimeStep :=
  Double.lt_of_lt_of_le proper.minPositive proper.min_le_max

theorem setUpperConstraint (proper : Proper tg) (upper : Double) :
    Proper (tg.setUpperConstraint upper).1 := by
  rcases tg.setUpperConstraint_cases upper with same | ⟨set, -, inside⟩
  · rw [same]
    exact proper
  · rw [set]
    exact { proper with
      upperPositive := fun _ => Double.lt_of_lt_of_le proper.lowerPositive inside
      fixed := by
        intro running fixed
        obtain ⟨t, target, end_, aims⟩ := proper.fixed running fixed
        exact ⟨t, target, end_, { aims with }⟩ }

theorem setLowerConstraint (proper : Proper tg) (lower : Double) :
    Proper (tg.setLowerConstraint lower).1 := by
  rcases tg.setLowerConstraint_cases lower with same | ⟨set, -, inside⟩
  · rw [same]
    exact proper
  · rw [set]
    exact { proper with
      lowerPositive := Double.lt_of_lt_of_le proper.minPositive inside
      fixed := by
        intro running fixed
        obtain ⟨t, target, end_, aims⟩ := proper.fixed running fixed
        exact ⟨t, target, end_, { aims with }⟩ }

theorem release (proper : Proper tg) : Proper tg.release :=
  { proper with
    fixed := by
      intro running fixed
      obtain ⟨t, -, time⟩ := proper.finiteTime running
      have before : tg.lt .negInf = true := fixed
      rw [not_lt_negInf time] at before
      cases before }

theorem fixDtUntilMark (proper : Proper tg)
    (ahead : tg.isEnd = false → MarkAhead marks tg) :
    Proper (tg.fixDtUntilMark marks).1 := by
  rw [fixDtUntilMark_unsteady proper.unsteady]
  exact { proper with
    fixed := by
      intro running _
      obtain ⟨m, mark⟩ := ahead running
      obtain ⟨t, nonneg, time⟩ := proper.finiteTime running
      have next := lt_next marks tg.fixedTimeMarkMask time
      rw [mark] at next
      have released : tg.release.isEnd = false := running
      exact ⟨t, m, mark, time, nonneg, before_of_lt time next,
        estimateDt_divides released proper.unsteady (not_lt_negInf time) time mark
          (before_of_lt time next) proper.lowerPositive (proper.upperPositive running)⟩ }

end Proper

theorem Aims.stepped_time (aims : Aims tg t target step) (dtFixedNow dtChanged : Bool) :
    (tg.stepped step dtFixedNow dtChanged).time = .posInf ∨
      ∃ t', t < t' ∧ t' ≤ target ∧ (tg.stepped step dtFixedNow dtChanged).time = .fin t' := by
  change tg.time + step = _ ∨ ∃ t', t < t' ∧ t' ≤ target ∧ tg.time + step = _
  rw [aims.time]
  obtain infinite | ⟨count, positive, finite⟩ := aims.divides
  · rw [infinite]
    exact .inl rfl
  · have distance : 0 < target - t := sub_pos.mpr aims.before
    have many : (1 : ℚ) ≤ count := by exact_mod_cast positive
    have forward : 0 < (target - t) / count := div_pos distance (by linarith)
    have part := div_le_self distance.le many
    rw [finite]
    exact .inr ⟨_, by linarith, by linarith, rfl⟩

theorem Aims.lt_of_stepped (aims : Aims tg t target step) {dtFixedNow dtChanged : Bool}
    {t' : ℚ} (moved : (tg.stepped step dtFixedNow dtChanged).time = .fin t') : t < t' := by
  obtain infinite | ⟨t'', later, -, finite⟩ := aims.stepped_time dtFixedNow dtChanged
  · rw [moved] at infinite
    cases infinite
  · rw [moved, Double.fin.injEq] at finite
    rwa [finite]

theorem Aims.stepped_fixed (aims : Aims tg t target step)
    (dtFixedNow dtChanged : Bool) {t' : ℚ}
    (moved : (tg.stepped step dtFixedNow dtChanged).time = .fin t')
    (fixed : (tg.stepped step dtFixedNow dtChanged).lt (.fin target) = true) :
    Aims (tg.stepped step dtFixedNow dtChanged) t' target step := by
  have sum : tg.time + step = .fin t' := moved
  obtain infinite | ⟨count, positive, finite⟩ := aims.divides
  · rw [infinite, aims.time] at sum
    cases sum
  · rw [finite, aims.time, Double.fin_add_fin, Double.fin.injEq] at sum
    have distance : 0 < target - t := sub_pos.mpr aims.before
    have countPositive : (0 : ℚ) < count := Nat.cast_pos.mpr positive
    have forward : 0 < (target - t) / count := div_pos distance countPositive
    have before := before_of_lt moved fixed
    obtain ⟨remaining, split⟩ := Nat.exists_eq_succ_of_ne_zero positive.ne'
    rw [split] at sum countPositive finite forward
    push_cast at sum countPositive finite forward
    refine ⟨moved, by linarith [aims.nonneg], before, .inr ⟨remaining, ?_, ?_⟩⟩
    · -- a single remaining step would have reached the target
      obtain zero | positive := Nat.eq_zero_or_pos remaining
      · rw [zero] at sum
        push_cast at sum
        linarith
      · exact positive
    · rw [finite, Double.fin.injEq, ← sum]
      have remainingPositive : (remaining : ℚ) ≠ 0 := by
        intro zero
        rw [zero] at sum
        linarith
      field_simp
      ring

namespace Proper

theorem nextTime (proper : Proper tg)
    (ahead : Selects tg .nextTime → MarkAhead marks tg) : Proper (tg.nextTime marks) := by
  cases running : tg.isEnd with
  | true =>
      rw [nextTime_of_isEnd running]
      exact proper
  | false =>
      obtain ⟨t, target, aims, fixed, -⟩ :=
        proper.estimateDt_aims running fun free => ahead ⟨running, free⟩
      obtain ⟨dtFixedNow, dtChanged, next⟩ := proper.nextTime_eq running
      rw [next]
      have moved : (tg.stepped (tg.estimateDt marks) dtFixedNow dtChanged).time =
          .posInf ∨ ∃ t', 0 ≤ t' ∧
            (tg.stepped (tg.estimateDt marks) dtFixedNow dtChanged).time = .fin t' := by
        obtain infinite | ⟨t', later, -, finite⟩ := aims.stepped_time dtFixedNow dtChanged
        · exact .inl infinite
        · exact .inr ⟨t', aims.nonneg.trans later.le, finite⟩
      have finiteTime : (tg.stepped (tg.estimateDt marks) dtFixedNow dtChanged).isEnd = false →
          ∃ t', (tg.stepped (tg.estimateDt marks) dtFixedNow dtChanged).time = .fin t' := by
        intro goesOn
        obtain infinite | ⟨t', -, finite⟩ := moved
        · rw [isEnd_of_posInf infinite] at goesOn
          cases goesOn
        · exact ⟨t', finite⟩
      exact
        { unsteady := proper.unsteady
          finiteEnd := proper.finiteEnd
          minPositive := proper.minPositive
          min_le_max := proper.min_le_max
          lowerPositive := proper.minPositive
          upperPositive := by
            intro goesOn
            obtain ⟨t', time⟩ := finiteTime goesOn
            obtain ⟨e, end_⟩ := proper.finiteEnd
            have sum : tg.time + tg.estimateDt marks = .fin t' := time
            have before := isEnd_fin time
            rw [goesOn, Bool.false_eq, Bool.not_eq_false'] at before
            have less := before_of_lt time ((congrArg _ end_).symm.trans before)
            change .fin 0 < Double.stdMin (tg.endTime - (tg.time + tg.estimateDt marks)) _
            rw [end_, sum, Double.fin_sub_fin]
            unfold Double.stdMin
            split_ifs with smaller
            · exact proper.maxPositive
            · exact (Double.fin_lt_fin _ _).mpr (sub_pos.mpr less)
          time := moved
          fixed := by
            intro goesOn less
            obtain ⟨t', time⟩ := finiteTime goesOn
            obtain ⟨end_, same⟩ := fixed
              (lt_of_later aims.time time aims.nonneg (aims.lt_of_stepped time).le less)
            have stays : (tg.stepped (tg.estimateDt marks) dtFixedNow dtChanged).lt
                (.fin target) = true := by
              rw [← end_]
              exact less
            have aims' := aims.stepped_fixed dtFixedNow dtChanged time stays
            refine ⟨t', target, end_, ?_⟩
            change Aims _ t' target tg.fixedDt
            rw [← same]
            exact aims' }

theorem call (proper : Proper tg) (request : Call)
    (ahead : Selects tg request → MarkAhead marks tg) :
    Proper (tg.call marks request) := by
  cases request with
  | setUpperConstraint upper => exact proper.setUpperConstraint upper
  | setLowerConstraint lower => exact proper.setLowerConstraint lower
  | fixDtUntilMark => exact proper.fixDtUntilMark ahead
  | nextTime => exact proper.nextTime ahead

end Proper

/-! ## The constructor -/

theorem create_cases {marks final : TimeMarks} {input : Record}
    {fixedTimeMask : TimeMark.MarkType} {tg : TimeGovernor}
    (created : create marks input fixedTimeMask = .ok (tg, final)) :
    0 ≤ input.startTime ∧ input.startTime ≤ input.endTime ∧
      (∀ dt, input.initDt = some dt → 0 < dt) ∧ 0 < input.minTimeStep ∧
      input.minTimeStep ≤ input.maxTimeStep ∧
      tg = input.governor (fixedTimeMask ||| marks.typeFixedTime) := by
  unfold create at created
  simp only at created
  split_ifs at created with start end_ init min max
  cases created
  refine ⟨not_lt.mp start, not_lt.mp end_, ?_, not_le.mp min, not_lt.mp max, rfl⟩
  intro dt given
  simpa [given] using init

theorem create_of_checks (marks : TimeMarks) (input : Record)
    (fixedTimeMask : TimeMark.MarkType) (start : ¬input.startTime < 0)
    (end_ : ¬input.endTime < input.startTime) (init : input.initDt.any (· ≤ 0) = false)
    (min : ¬input.minTimeStep ≤ 0) (max : ¬input.maxTimeStep < input.minTimeStep) :
    ∃ final, create marks input fixedTimeMask =
      .ok (input.governor (fixedTimeMask ||| marks.typeFixedTime), final) := by
  unfold create
  simp only [start, end_, init, min, max, Bool.false_eq_true, ↓reduceIte]
  exact ⟨_, rfl⟩

theorem create_tenUnits (mask : TimeMark.MarkType) (initDt maxDt : Option ℚ)
    (fixed : mask ||| 1 = 1) (init : initDt.any (· ≤ 0) = false)
    (min : ¬(tenUnits initDt maxDt).minTimeStep ≤ 0)
    (max : ¬(tenUnits initDt maxDt).maxTimeStep < (tenUnits initDt maxDt).minTimeStep) :
    ∃ final, create TimeMarks.create (tenUnits initDt maxDt) mask =
      .ok ((tenUnits initDt maxDt).governor 1, final) := by
  obtain ⟨final, created⟩ := create_of_checks TimeMarks.create (tenUnits initDt maxDt) mask
    (lt_irrefl (0 : ℚ)) (by norm_num : ¬(10 : ℚ) < 0) init min max
  have same : mask ||| TimeMarks.create.typeFixedTime = 1 := fixed
  rw [same] at created
  exact ⟨final, created⟩

theorem create_free {marks₀ final : TimeMarks} {input : Record}
    {fixedTimeMask : TimeMark.MarkType}
    (created : create marks₀ input fixedTimeMask = .ok (tg, final)) :
    tg.lt tg.endOfFixedDtInterval = false := by
  obtain ⟨-, -, -, -, -, same⟩ := create_cases created
  have start : tg.time = .fin input.startTime := by rw [same]; rfl
  have end_ : tg.endOfFixedDtInterval = .fin input.startTime := by rw [same]; rfl
  rw [end_, Bool.eq_false_iff]
  intro less
  exact lt_irrefl _ (before_of_lt start less)

theorem create_proper {marks₀ final : TimeMarks} {input : Record}
    {fixedTimeMask : TimeMark.MarkType}
    (created : create marks₀ input fixedTimeMask = .ok (tg, final)) : Proper tg := by
  obtain ⟨start, end_, init, min, max, same⟩ := create_cases created
  have notFixed := create_free created
  have bound := epsilon_pos
  rw [same] at notFixed ⊢
  exact
    { unsteady := rfl
      finiteEnd := ⟨input.endTime, rfl⟩
      minPositive := (Double.fin_lt_fin _ _).mpr min
      min_le_max := (Double.fin_le_fin _ _).mpr max
      lowerPositive := by
        cases given : input.initDt with
        | none => simpa [Record.governor, given, timeStepLowerBound] using bound
        | some dt => simpa [Record.governor, given] using init dt given
      upperPositive := by
        intro _
        cases given : input.initDt with
        | none => simp [Record.governor, given, infTime]
        | some dt => simpa [Record.governor, given] using init dt given
      time := .inr ⟨input.startTime, start, rfl⟩
      fixed := by
        intro _ less
        rw [notFixed] at less
        cases less }

end TimeGovernor

end Flow123d
