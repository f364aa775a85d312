import Flow123d.Coupling.TimeGovernorRun

/-!
# The permanent upper limit of the time step

Every step keeps the permanent upper limit up to the rounding precision of the
number of steps, if the steps selected before the first one is taken do. Later
selections keep it by themselves, since `next_time` resets the constraints to the
limit.
-/

set_option autoImplicit false

namespace Flow123d

open Flow123d.Library

namespace TimeGovernor

variable {marks : TimeMarks} {tg : TimeGovernor} {t m s limit : ℚ}

/-- A step that keeps the limit up to the rounding of the number of steps. -/
def WithinLimit (limit : ℚ) (step : Double) : Prop :=
  step ≤ .fin (limit * (1 + roundNStepsPrecision))

def StepLimited (limit : ℚ) (marks : TimeMarks) (tg : TimeGovernor) : Call → Prop
  | .nextTime => tg.isEnd = false → WithinLimit limit (tg.nextTime marks).timeStep
  | _ => True

/-- The condition on a call in the state before it: a selected step is sound, and
before the first step the wanted one keeps the limit. -/
def LimitSound (limit : ℚ) (marks : TimeMarks) (tg : TimeGovernor) (request : Call) : Prop :=
  Selects tg request → ∃ t m s, SoundStep marks tg t m s ∧ (tg.timeLevel = 0 → s ≤ limit)

theorem LimitSound.markAhead {request : Call} (sound : LimitSound limit marks tg request)
    (selects : Selects tg request) : MarkAhead marks tg := by
  obtain ⟨t, m, s, step, -⟩ := sound selects
  exact step.markAhead

structure Limited (limit : ℚ) (marks : TimeMarks) (tg : TimeGovernor) : Prop where
  proper : Proper tg
  max : tg.maxTimeStep = .fin limit
  constraints : tg.timeLevel ≠ 0 → tg.isEnd = false →
    tg.upperConstraint ≤ tg.maxTimeStep ∧ tg.lowerConstraint ≤ tg.maxTimeStep
  fixed : tg.isEnd = false → tg.lt tg.endOfFixedDtInterval = true →
    WithinLimit limit tg.fixedDt

namespace Limited

/-- After the first step the constraints keep what is wanted below the limit. -/
theorem wanted_le (limited : Limited limit marks tg) (running : tg.isEnd = false)
    (sound : SoundStep marks tg t m s) (first : tg.timeLevel = 0 → s ≤ limit) : s ≤ limit := by
  by_cases level : tg.timeLevel = 0
  · exact first level
  · obtain ⟨upper, lower⟩ := limited.constraints level running
    have number := (Double.ne_nan_of_le upper).1
    have wanted : wantedStep marks tg ≤ tg.maxTimeStep := by
      unfold wantedStep
      apply Double.stdMax_le _ lower
      refine Double.le_trans (Double.stdMin_le_right ?_ number) upper
      rw [sound.mark, sound.time, Double.fin_sub_fin]
      exact Double.noConfusion
    rw [sound.wanted, limited.max] at wanted
    exact (Double.fin_le_fin s limit).mp wanted

theorem estimateDt_within (limited : Limited limit marks tg) (running : tg.isEnd = false)
    (free : tg.lt tg.endOfFixedDtInterval = false) (sound : SoundStep marks tg t m s)
    (first : tg.timeLevel = 0 → s ≤ limit) : WithinLimit limit (tg.estimateDt marks) := by
  have positive :=
    sound.positive limited.proper.lowerPositive (limited.proper.upperPositive running)
  have bounded := limited.wanted_le running sound first
  have precision := roundNStepsPrecision_pos
  have rounded := step_le positive (stepCount_pos positive sound.coarse)
  unfold WithinLimit
  rw [estimateDt_sound running limited.proper.unsteady free sound.time sound.mark sound.wanted
    positive sound.coarse, Double.fin_le_fin]
  calc
    (m - t) / stepCount (m - t) s ≤ s * (1 + roundNStepsPrecision) := rounded
    _ ≤ limit * (1 + roundNStepsPrecision) := by gcongr

theorem setUpperConstraint (limited : Limited limit marks tg) (upper : Double) :
    Limited limit marks (tg.setUpperConstraint upper).1 := by
  have proper := limited.proper.setUpperConstraint upper
  rcases tg.setUpperConstraint_cases upper with same | ⟨set, above, inside⟩
  · rw [same]
    exact limited
  · rw [set] at proper ⊢
    refine { limited with
      proper := proper
      constraints := ?_ }
    intro level running
    obtain ⟨upper_, lower_⟩ := limited.constraints level running
    have numbers := (Double.ne_nan_of_le upper_).1
    exact ⟨Double.le_trans
      (Double.le_of_not_lt numbers (Double.ne_nan_of_le inside).2 above) upper_, lower_⟩

theorem setLowerConstraint (limited : Limited limit marks tg) (lower : Double) :
    Limited limit marks (tg.setLowerConstraint lower).1 := by
  have proper := limited.proper.setLowerConstraint lower
  rcases tg.setLowerConstraint_cases lower with same | ⟨set, above, inside⟩
  · rw [same]
    exact limited
  · rw [set] at proper ⊢
    refine { limited with
      proper := proper
      constraints := ?_ }
    intro level running
    obtain ⟨upper_, lower_⟩ := limited.constraints level running
    have numbers := (Double.ne_nan_of_le upper_).1
    exact ⟨upper_, Double.le_trans
      (Double.le_of_not_lt numbers (Double.ne_nan_of_le inside).2 above) upper_⟩

theorem fixDtUntilMark (limited : Limited limit marks tg)
    (sound : LimitSound limit marks tg .fixDtUntilMark) :
    Limited limit marks (tg.fixDtUntilMark marks).1 := by
  have proper := limited.proper.fixDtUntilMark sound.markAhead
  have released : Limited limit marks tg.release :=
    { limited with
      proper := limited.proper.release
      fixed := by
        intro running fixed
        obtain ⟨t, -, time⟩ := limited.proper.finiteTime running
        have before : tg.lt .negInf = true := fixed
        rw [not_lt_negInf time] at before
        cases before }
  rw [fixDtUntilMark_unsteady limited.proper.unsteady] at proper ⊢
  refine { limited with
    proper := proper
    fixed := ?_ }
  intro running _
  obtain ⟨t, m, s, step, first⟩ := sound running
  exact released.estimateDt_within running (not_lt_negInf step.time)
    ⟨step.time, step.mark, step.wanted, step.coarse⟩ first

theorem step_within (limited : Limited limit marks tg)
    (sound : LimitSound limit marks tg .nextTime) (running : tg.isEnd = false) :
    WithinLimit limit (tg.estimateDt marks) := by
  cases fixed : tg.lt tg.endOfFixedDtInterval with
  | true =>
      rw [estimateDt_fixed running limited.proper.unsteady fixed]
      exact limited.fixed running fixed
  | false =>
      obtain ⟨t, m, s, step, first⟩ := sound ⟨running, fixed⟩
      exact limited.estimateDt_within running fixed step first

theorem nextTime (limited : Limited limit marks tg)
    (sound : LimitSound limit marks tg .nextTime) : Limited limit marks (tg.nextTime marks) := by
  have proper := limited.proper.nextTime sound.markAhead
  cases running : tg.isEnd with
  | true =>
      rw [nextTime_of_isEnd running]
      exact limited
  | false =>
      obtain ⟨t, target, aims, -⟩ :=
        limited.proper.estimateDt_aims running fun free => sound.markAhead ⟨running, free⟩
      obtain ⟨dtFixedNow, dtChanged, next⟩ := limited.proper.nextTime_eq running
      rw [next] at proper ⊢
      refine
        { proper := proper
          max := limited.max
          constraints := ?_
          fixed := ?_ }
      · intro _ goesOn
        obtain ⟨t', -, time⟩ := proper.finiteTime goesOn
        obtain ⟨e, end_⟩ := limited.proper.finiteEnd
        have sum : tg.time + tg.estimateDt marks = .fin t' := time
        refine ⟨?_, limited.proper.min_le_max⟩
        apply Double.stdMin_le_right
        · rw [end_, sum, Double.fin_sub_fin]
          exact Double.noConfusion
        · rw [limited.max]
          exact Double.noConfusion
      · intro goesOn stays
        obtain ⟨t', -, time⟩ := proper.finiteTime goesOn
        have later := (aims.lt_of_stepped time).le
        exact limited.fixed running (lt_of_later aims.time time aims.nonneg later stays)

theorem call (limited : Limited limit marks tg) (request : Call)
    (sound : LimitSound limit marks tg request) :
    Limited limit marks (tg.call marks request) := by
  cases request with
  | setUpperConstraint upper => exact limited.setUpperConstraint upper
  | setLowerConstraint lower => exact limited.setLowerConstraint lower
  | fixDtUntilMark => exact limited.fixDtUntilMark sound
  | nextTime => exact limited.nextTime sound

theorem stepLimited (limited : Limited limit marks tg) (request : Call)
    (sound : LimitSound limit marks tg request) : StepLimited limit marks tg request := by
  cases request with
  | setUpperConstraint upper => trivial
  | setLowerConstraint lower => trivial
  | fixDtUntilMark => trivial
  | nextTime =>
      intro running
      obtain ⟨dtFixedNow, dtChanged, next⟩ := limited.proper.nextTime_eq running
      rw [next]
      exact limited.step_within sound running

end Limited

theorem create_limited {marks₀ final : TimeMarks} {input : Record}
    {fixedTimeMask : TimeMark.MarkType}
    (created : create marks₀ input fixedTimeMask = .ok (tg, final)) :
    Limited input.maxTimeStep marks tg := by
  obtain ⟨-, -, -, -, -, same⟩ := create_cases created
  have level : tg.timeLevel = 0 := by rw [same]; rfl
  exact
    { proper := create_proper created
      max := by rw [same]; rfl
      constraints := fun later => absurd level later
      fixed := by
        intro _ less
        rw [create_free created] at less
        cases less }

/-- All steps of a run keep the permanent upper limit if its calls are sound. -/
theorem run_stepLimited {marks₀ final : TimeMarks} (marks : TimeMarks) (input : Record)
    (fixedTimeMask : TimeMark.MarkType) (calls : List Call)
    (created : create marks₀ input fixedTimeMask = .ok (tg, final))
    (sound : AlongRun (call marks) (LimitSound input.maxTimeStep marks) tg calls) :
    AlongRun (call marks) (StepLimited input.maxTimeStep marks) tg calls :=
  AlongRun.of_invariant (Limited input.maxTimeStep marks)
    (fun _ request limited sound => limited.call request sound)
    (fun _ request limited sound => limited.stepLimited request sound)
    (create_limited created) sound

theorem run_stepLimited_unit_steps :
    AlongRun (call (tenUnitsMarks (5 / 2))) (StepLimited 1 (tenUnitsMarks (5 / 2)))
      ((tenUnits none (some 1)).governor 1)
      [.setUpperConstraint (.fin 1), .fixDtUntilMark, .nextTime, .nextTime, .nextTime,
        .nextTime] :=
  run_stepLimited _ (tenUnits none (some 1)) 0 _
    (create_tenUnits 0 _ _ rfl (by decide +kernel) (by decide +kernel)
      (by decide +kernel)).choose_spec
    ⟨fun impossible => impossible.elim,
      fun _ => ⟨0, 5 / 2, 1, ⟨by decide +kernel, by decide +kernel, by decide +kernel,
        by decide +kernel⟩, fun _ => by decide +kernel⟩,
      fun ⟨_, free⟩ => absurd free (by decide +kernel),
      fun ⟨_, free⟩ => absurd free (by decide +kernel),
      fun ⟨_, free⟩ => absurd free (by decide +kernel),
      fun _ => ⟨5 / 2, 10, 1, ⟨by decide +kernel, by decide +kernel, by decide +kernel,
        by decide +kernel⟩, fun first => absurd first (by decide +kernel)⟩,
      trivial⟩

/-- Without an initial step nothing holds the first step below the limit. -/
theorem not_always_stepLimited :
    ¬∀ (marks marks₀ final : TimeMarks) (tg : TimeGovernor) (input : Record)
      (fixedTimeMask : TimeMark.MarkType) (calls : List Call),
      create marks₀ input fixedTimeMask = .ok (tg, final) →
      AlongRun (call marks) (StepLimited input.maxTimeStep marks) tg calls := by
  intro always
  obtain ⟨final, created⟩ := create_tenUnits 0 none (some 1) rfl
    (by decide +kernel) (by decide +kernel) (by decide +kernel)
  obtain ⟨first, -⟩ := always (tenUnitsMarks 10) TimeMarks.create final _
    (tenUnits none (some 1)) 0 [.nextTime] created
  have within := first (by decide +kernel)
  unfold WithinLimit at within
  revert within
  decide +kernel

end TimeGovernor

end Flow123d
