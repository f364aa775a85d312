import Flow123d.Coupling.TimeGovernorRun

/-!
# The constraints of the time step

Before the end the constraints stay in the order of the permanent minimum, the lower
and the upper one, and between two steps they only become stricter. This takes a
start with the permanent minimum, no lower request below the current one, and steps
that do not leave less than the permanent minimum before the end.
-/

set_option autoImplicit false

namespace Flow123d

open Flow123d.Library

namespace TimeGovernor

variable {marks : TimeMarks} {tg : TimeGovernor}

structure ConstraintsOrdered (tg : TimeGovernor) : Prop where
  min_le_lower : tg.minTimeStep ≤ tg.lowerConstraint
  lower_le_upper : tg.lowerConstraint ≤ tg.upperConstraint

structure Stricter (tg after : TimeGovernor) : Prop where
  upper : after.upperConstraint ≤ tg.upperConstraint
  lower : tg.lowerConstraint ≤ after.lowerConstraint

structure KeepsConstraints (marks : TimeMarks) (tg : TimeGovernor) (request : Call) :
    Prop where
  ordered : (tg.call marks request).isEnd = false →
    (tg.call marks request).ConstraintsOrdered
  stricter : request ≠ .nextTime → tg.Stricter (tg.call marks request)

/-- The estimated time is at the end, or leaves the permanent minimum before it. -/
def LeavesRoom (marks : TimeMarks) (tg : TimeGovernor) : Prop :=
  { tg with time := tg.estimateTime marks }.isEnd = true ∨
    tg.minTimeStep ≤ tg.endTime - tg.estimateTime marks

/-- The condition on a call in the state before it. -/
def ConstraintsSound (marks : TimeMarks) (tg : TimeGovernor) : Call → Prop
  | .setUpperConstraint _ => True
  | .setLowerConstraint lower => tg.minTimeStep ≤ lower → lower ≤ tg.upperConstraint →
      tg.lowerConstraint ≤ lower
  | .fixDtUntilMark => Selects tg .fixDtUntilMark → MarkAhead marks tg
  | .nextTime => (Selects tg .nextTime → MarkAhead marks tg) ∧
      (tg.isEnd = false → LeavesRoom marks tg)

structure Constrained (marks : TimeMarks) (tg : TimeGovernor) : Prop where
  proper : Proper tg
  upperNumber : tg.upperConstraint ≠ .nan
  maxNumber : tg.maxTimeStep ≠ .nan
  ordered : tg.isEnd = false → tg.ConstraintsOrdered

theorem ConstraintsSound.markAhead {request : Call}
    (sound : ConstraintsSound marks tg request) (selects : Selects tg request) :
    MarkAhead marks tg := by
  cases request with
  | setUpperConstraint upper => cases selects
  | setLowerConstraint lower => cases selects
  | fixDtUntilMark => exact sound selects
  | nextTime => exact sound.1 selects

namespace Constrained

theorem lowerNumber (constrained : Constrained marks tg) : tg.lowerConstraint ≠ .nan := by
  have positive := constrained.proper.lowerPositive
  exact (Double.ne_nan_of_le (Double.le_of_lt positive)).2

theorem minNumber (constrained : Constrained marks tg) : tg.minTimeStep ≠ .nan :=
  (Double.ne_nan_of_le constrained.proper.min_le_max).1

theorem unchanged (constrained : Constrained marks tg) : tg.Stricter tg :=
  ⟨Double.le_self constrained.upperNumber, Double.le_self constrained.lowerNumber⟩

theorem setUpperConstraint (constrained : Constrained marks tg) (upper : Double) :
    Constrained marks (tg.setUpperConstraint upper).1 ∧
      tg.Stricter (tg.setUpperConstraint upper).1 := by
  have proper := constrained.proper.setUpperConstraint upper
  rcases tg.setUpperConstraint_cases upper with same | ⟨set, above, inside⟩
  · rw [same]
    exact ⟨constrained, constrained.unchanged⟩
  · rw [set] at proper ⊢
    have number := (Double.ne_nan_of_le inside).2
    refine ⟨{ constrained with
      proper := proper
      upperNumber := number
      ordered := ?_ }, ?_, ?_⟩
    · intro running
      exact ⟨(constrained.ordered running).min_le_lower, inside⟩
    · exact Double.le_of_not_lt constrained.upperNumber number above
    · exact Double.le_self constrained.lowerNumber

theorem setLowerConstraint (constrained : Constrained marks tg) (lower : Double)
    (sound : ConstraintsSound marks tg (.setLowerConstraint lower)) :
    Constrained marks (tg.setLowerConstraint lower).1 ∧
      tg.Stricter (tg.setLowerConstraint lower).1 := by
  have proper := constrained.proper.setLowerConstraint lower
  rcases tg.setLowerConstraint_cases lower with same | ⟨set, above, inside⟩
  · rw [same]
    exact ⟨constrained, constrained.unchanged⟩
  · rw [set] at proper ⊢
    have number := (Double.ne_nan_of_le inside).2
    have within : lower ≤ tg.upperConstraint :=
      Double.le_of_not_lt constrained.upperNumber number above
    refine ⟨{ constrained with
      proper := proper
      ordered := ?_ }, ?_, ?_⟩
    · intro _
      exact ⟨inside, within⟩
    · exact Double.le_self constrained.upperNumber
    · exact sound inside within

theorem fixDtUntilMark (constrained : Constrained marks tg)
    (ahead : tg.isEnd = false → MarkAhead marks tg) :
    Constrained marks (tg.fixDtUntilMark marks).1 ∧
      tg.Stricter (tg.fixDtUntilMark marks).1 := by
  have proper := constrained.proper.fixDtUntilMark ahead
  rw [fixDtUntilMark_unsteady constrained.proper.unsteady] at proper ⊢
  exact ⟨{ constrained with
    proper := proper
    ordered := fun running => ⟨(constrained.ordered running).min_le_lower,
      (constrained.ordered running).lower_le_upper⟩ },
    ⟨constrained.unchanged.upper, constrained.unchanged.lower⟩⟩

theorem nextTime (constrained : Constrained marks tg)
    (ahead : Selects tg .nextTime → MarkAhead marks tg)
    (room : tg.isEnd = false → LeavesRoom marks tg) :
    Constrained marks (tg.nextTime marks) := by
  have proper := constrained.proper.nextTime ahead
  cases running : tg.isEnd with
  | true =>
      rw [nextTime_of_isEnd running]
      exact constrained
  | false =>
      obtain ⟨dtFixedNow, dtChanged, next⟩ := constrained.proper.nextTime_eq running
      rw [next] at proper ⊢
      obtain ⟨e, end_⟩ := constrained.proper.finiteEnd
      have remaining : tg.endTime - (tg.time + tg.estimateDt marks) ≠ .nan := by
        obtain infinite | ⟨t', -, finite⟩ := proper.time
        · have sum : tg.time + tg.estimateDt marks = .posInf := infinite
          rw [sum, end_]
          exact Double.noConfusion
        · have sum : tg.time + tg.estimateDt marks = .fin t' := finite
          rw [sum, end_, Double.fin_sub_fin]
          exact Double.noConfusion
      refine
        { proper := proper
          upperNumber := Double.stdMin_ne_nan remaining constrained.maxNumber
          maxNumber := constrained.maxNumber
          ordered := ?_ }
      intro goesOn
      obtain ended | enough := room running
      · have same : (tg.stepped (tg.estimateDt marks) dtFixedNow dtChanged).isEnd = true :=
          ended
        rw [goesOn] at same
        cases same
      · exact ⟨Double.le_self constrained.minNumber,
          Double.le_stdMin enough constrained.proper.min_le_max⟩

theorem call (constrained : Constrained marks tg) (request : Call)
    (sound : ConstraintsSound marks tg request) :
    Constrained marks (tg.call marks request) ∧
      (request ≠ .nextTime → tg.Stricter (tg.call marks request)) := by
  cases request with
  | setUpperConstraint upper =>
      obtain ⟨kept, stricter⟩ := constrained.setUpperConstraint upper
      exact ⟨kept, fun _ => stricter⟩
  | setLowerConstraint lower =>
      obtain ⟨kept, stricter⟩ := constrained.setLowerConstraint lower sound
      exact ⟨kept, fun _ => stricter⟩
  | fixDtUntilMark =>
      obtain ⟨kept, stricter⟩ := constrained.fixDtUntilMark sound
      exact ⟨kept, fun _ => stricter⟩
  | nextTime => exact ⟨constrained.nextTime sound.1 sound.2, fun step => absurd rfl step⟩

end Constrained

theorem create_constrained {marks₀ final : TimeMarks} {input : Record}
    {fixedTimeMask : TimeMark.MarkType}
    (created : create marks₀ input fixedTimeMask = .ok (tg, final))
    (started : tg.isEnd = false → tg.minTimeStep ≤ tg.lowerConstraint) :
    Constrained marks tg := by
  obtain ⟨-, -, -, -, -, same⟩ := create_cases created
  have upper : tg.lowerConstraint ≤ tg.upperConstraint ∧ tg.maxTimeStep ≠ .nan := by
    rw [same]
    cases given : input.initDt with
    | none => simp [Record.governor, given, infTime]
    | some dt => simp [Record.governor, given]
  exact
    { proper := create_proper created
      upperNumber := (Double.ne_nan_of_le upper.1).2
      maxNumber := upper.2
      ordered := fun running => ⟨started running, upper.1⟩ }

/-- Runs keep the constraints in every state if they start with the permanent
minimum and all their calls are sound. -/
theorem run_keepsConstraints {marks₀ final : TimeMarks} (marks : TimeMarks) (input : Record)
    (fixedTimeMask : TimeMark.MarkType) (calls : List Call)
    (created : create marks₀ input fixedTimeMask = .ok (tg, final))
    (started : tg.isEnd = false → tg.minTimeStep ≤ tg.lowerConstraint)
    (sound : AlongRun (call marks) (ConstraintsSound marks) tg calls) :
    AlongRun (call marks) (KeepsConstraints marks) tg calls :=
  AlongRun.of_invariant (Constrained marks)
    (fun _ request constrained sound => (constrained.call request sound).1)
    (fun _ request constrained sound =>
      ⟨(constrained.call request sound).1.ordered, (constrained.call request sound).2⟩)
    (create_constrained created started) sound

theorem run_keepsConstraints_unit_steps :
    AlongRun (call (tenUnitsMarks (5 / 2))) (KeepsConstraints (tenUnitsMarks (5 / 2)))
      ((tenUnits none (some 5)).governor 1)
      [.setUpperConstraint (.fin 2), .setLowerConstraint (.fin 1), .fixDtUntilMark,
        .nextTime, .setLowerConstraint (.fin 20), .nextTime, .nextTime] :=
  run_keepsConstraints _ (tenUnits none (some 5)) 0 _
    (create_tenUnits 0 _ _ rfl (by decide +kernel) (by decide +kernel)
      (by decide +kernel)).choose_spec
    (by decide +kernel)
    ⟨trivial, fun _ _ => by decide +kernel, fun _ => ⟨5 / 2, by decide +kernel⟩,
      ⟨fun ⟨_, free⟩ => absurd free (by decide +kernel), fun _ => .inr (by decide +kernel)⟩,
      fun _ within => absurd within (by decide +kernel),
      ⟨fun ⟨_, free⟩ => absurd free (by decide +kernel), fun _ => .inr (by decide +kernel)⟩,
      ⟨fun _ => ⟨10, by decide +kernel⟩, fun _ => .inr (by decide +kernel)⟩, trivial⟩

/-- A second lower request below the first one relaxes the constraint. -/
theorem not_always_keepsConstraints :
    ¬∀ (marks marks₀ final : TimeMarks) (tg : TimeGovernor) (input : Record)
      (fixedTimeMask : TimeMark.MarkType) (calls : List Call),
      create marks₀ input fixedTimeMask = .ok (tg, final) →
      AlongRun (call marks) (KeepsConstraints marks) tg calls := by
  intro always
  obtain ⟨final, created⟩ := create_tenUnits 0 none none rfl
    (by decide +kernel) (by decide +kernel) (by decide +kernel)
  obtain ⟨-, second, -⟩ := always (tenUnitsMarks (5 / 2)) TimeMarks.create final _
    (tenUnits none none) 0 [.setLowerConstraint (.fin 3), .setLowerConstraint (.fin 2)]
    created
  have relaxed := (second.stricter (by simp)).lower
  revert relaxed
  decide +kernel

end TimeGovernor

end Flow123d

/-!
## The report of a changed step

In exact arithmetic `dt_changed` says after a step whether it differs from the one before.
Inside a fixed interval the step is compared only once after the interval has been set.
-/

namespace Flow123d

open Flow123d.Library

namespace TimeGovernor

variable {marks : TimeMarks} {tg : TimeGovernor} {dt : ℚ}

/-- The governor is proper, but a fixed interval may have no finite mark at its end: then
its step is not a number. -/
structure Tracked (tg : TimeGovernor) : Prop where
  released : Proper tg.release
  fixed : Proper tg ∨ (tg.fixedDt = .nan ∧ tg.endOfFixedDtInterval = .posInf)
  unchanged : tg.isEnd = false → tg.lt tg.endOfFixedDtInterval = true →
    tg.dtFixedNow = false → tg.timeStep = tg.fixedDt
  step : tg.isEnd = false → ∃ dt : ℚ, 0 < dt ∧ tg.timeStep = .fin dt

/-- The governor after a step of a finite length. -/
structure Stepped (tg after : TimeGovernor) : Prop where
  lastTimeStep : after.lastTimeStep = tg.timeStep
  dtChanged : after.dtChanged = true ↔ after.timeStep ≠ after.lastTimeStep
  positive : ∃ dt : ℚ, 0 < dt ∧ after.timeStep = .fin dt

theorem equal_fin (a b : ℚ) : Double.equal (.fin a) (.fin b) = true ↔ a = b := by
  constructor
  · intro same
    exact Double.fin.inj (Double.eq_of_equal same)
  · intro same
    subst same
    unfold Double.equal
    rw [Bool.and_self]
    exact (Double.fin_le_fin a a).mpr le_rfl

theorem not_equal_fin (a b : ℚ) :
    (!Double.equal (.fin a) (.fin b)) = true ↔ Double.fin b ≠ Double.fin a := by
  rw [Bool.not_eq_true', ← Bool.not_eq_true, equal_fin, ne_comm, ne_eq, Double.fin.injEq]

/-! ## Steps without a mark at their end -/

theorem correctedDt_of_nan (step : tg.fixedDt = .nan) : tg.correctedDt = .nan := by
  unfold correctedDt
  rw [step]
  cases tg.endOfFixedDtInterval - tg.time <;> rfl

/-! ## What the calls keep -/

namespace Tracked

theorem finiteTime (tracked : Tracked tg) (running : tg.isEnd = false) :
    ∃ t : ℚ, 0 ≤ t ∧ tg.time = .fin t :=
  tracked.released.finiteTime running

theorem setUpperConstraint (tracked : Tracked tg) (upper : Double) :
    Tracked (tg.setUpperConstraint upper).1 := by
  have released := tracked.released.setUpperConstraint upper
  have commutes : (tg.release.setUpperConstraint upper).1 =
      (tg.setUpperConstraint upper).1.release := by
    unfold TimeGovernor.setUpperConstraint release
    dsimp only
    split_ifs <;> rfl
  rw [commutes] at released
  have fixed : Proper (tg.setUpperConstraint upper).1 ∨ _ :=
    tracked.fixed.imp_left fun proper => proper.setUpperConstraint upper
  rcases tg.setUpperConstraint_cases upper with same | ⟨set, -, -⟩
  · rw [same]
    exact tracked
  · rw [set] at released fixed ⊢
    exact ⟨released, fixed, tracked.unchanged, tracked.step⟩

theorem setLowerConstraint (tracked : Tracked tg) (lower : Double) :
    Tracked (tg.setLowerConstraint lower).1 := by
  have released := tracked.released.setLowerConstraint lower
  have commutes : (tg.release.setLowerConstraint lower).1 =
      (tg.setLowerConstraint lower).1.release := by
    unfold TimeGovernor.setLowerConstraint release
    dsimp only
    split_ifs <;> rfl
  rw [commutes] at released
  have fixed : Proper (tg.setLowerConstraint lower).1 ∨ _ :=
    tracked.fixed.imp_left fun proper => proper.setLowerConstraint lower
  rcases tg.setLowerConstraint_cases lower with same | ⟨set, -, -⟩
  · rw [same]
    exact tracked
  · rw [set] at released fixed ⊢
    exact ⟨released, fixed, tracked.unchanged, tracked.step⟩

theorem fixDtUntilMark (tracked : Tracked tg) : Tracked (tg.fixDtUntilMark marks).1 := by
  have unsteady : tg.steady = false := tracked.released.unsteady
  by_cases ahead : tg.isEnd = false → MarkAhead marks tg
  · have proper : Proper (tg.release.fixDtUntilMark marks).1 :=
      tracked.released.fixDtUntilMark ahead
    have releasedUnsteady : tg.release.steady = false := unsteady
    rw [fixDtUntilMark_unsteady unsteady]
    rw [fixDtUntilMark_unsteady releasedUnsteady] at proper
    exact ⟨proper.release, .inl proper, nofun, tracked.step⟩
  · rw [Classical.not_imp] at ahead
    obtain ⟨running, none⟩ := ahead
    obtain ⟨t, -, time⟩ := tracked.finiteTime running
    have endless := next_of_not_markAhead time none
    have noStep : tg.release.estimateDt marks = .nan :=
      estimateDt_of_not_markAhead running unsteady (not_lt_negInf time) time none
    rw [fixDtUntilMark_unsteady unsteady]
    refine ⟨{ tracked.released with fixed := ?_ }, .inr ⟨noStep, endless⟩, nofun, tracked.step⟩
    intro _ before
    have notBefore : tg.lt .negInf = false := not_lt_negInf time
    have isBefore : tg.lt .negInf = true := before
    rw [notBefore] at isBefore
    cases isBefore

/-- Inside a fixed interval the step is the fixed one. -/
theorem correctedDt (tracked : Tracked tg) (running : tg.isEnd = false)
    (interval : tg.lt tg.endOfFixedDtInterval = true) (finite : tg.correctedDt = .fin dt) :
    Proper tg ∧ tg.correctedDt = tg.fixedDt := by
  obtain proper | ⟨noStep, -⟩ := tracked.fixed
  · obtain ⟨t, target, end_, aims⟩ := proper.fixed running interval
    exact ⟨proper, aims.correctedDt end_⟩
  · rw [correctedDt_of_nan noStep] at finite
    cases finite

/-- A finite step outside of a fixed interval leads towards a mark. -/
theorem estimateDt (tracked : Tracked tg) (running : tg.isEnd = false)
    (free : tg.lt tg.endOfFixedDtInterval = false) (finite : tg.estimateDt marks = .fin dt) :
    Proper tg ∧ MarkAhead marks tg := by
  obtain ⟨t, -, time⟩ := tracked.finiteTime running
  constructor
  · obtain proper | ⟨-, endless⟩ := tracked.fixed
    · exact proper
    · rw [endless, lt_posInf time] at free
      cases free
  · exact markAhead_of_estimateDt running tracked.released.unsteady free time finite

theorem nextTime (tracked : Tracked tg) (running : tg.isEnd = false)
    (finite : (tg.nextTime marks).timeStep = .fin dt) :
    Tracked (tg.nextTime marks) ∧ Stepped tg (tg.nextTime marks) := by
  obtain ⟨last, lastPositive, lastStep⟩ := tracked.step running
  have next : tg.nextTime marks = (tg.chooseStep marks).advance :=
    nextTime_unsteady running tracked.released.unsteady
  have ahead : tg.lt tg.endOfFixedDtInterval = false → Proper tg ∧ MarkAhead marks tg := by
    intro free
    rw [next, chooseStep, free] at finite
    exact tracked.estimateDt running free finite
  have within : tg.lt tg.endOfFixedDtInterval = true →
      Proper tg ∧ tg.correctedDt = tg.fixedDt ∧ tg.correctedDt = .fin dt := by
    intro interval
    rw [next, chooseStep, interval] at finite
    obtain ⟨proper, same⟩ := tracked.correctedDt running interval finite
    exact ⟨proper, same, finite⟩
  have proper : Proper tg := by
    cases interval : tg.lt tg.endOfFixedDtInterval with
    | true => exact (within interval).1
    | false => exact (ahead interval).1
  have properAfter : Proper (tg.nextTime marks) :=
    proper.nextTime fun ⟨_, free⟩ => (ahead free).2
  obtain ⟨t, target, aims, -, -⟩ :=
    proper.estimateDt_aims running fun free => (ahead free).2
  obtain ⟨dtFixedNow, dtChanged, after⟩ : ∃ dtFixedNow dtChanged,
      tg.nextTime marks = tg.stepped (tg.estimateDt marks) dtFixedNow dtChanged :=
    proper.nextTime_eq running
  have estimated : tg.estimateDt marks = .fin dt := by
    rw [after] at finite
    exact finite
  have positive : 0 < dt := by
    obtain infinite | ⟨count, counted, step⟩ := aims.divides
    · rw [estimated] at infinite
      cases infinite
    · rw [estimated, Double.fin.injEq] at step
      rw [step]
      exact div_pos (sub_pos.mpr aims.before) (Nat.cast_pos.mpr counted)
  refine ⟨⟨properAfter.release, .inl properAfter, ?_, fun _ => ⟨dt, positive, finite⟩⟩, ?_⟩
  · intro goesOn stays _
    obtain ⟨t', -, time⟩ := properAfter.finiteTime goesOn
    have interval : tg.lt tg.endOfFixedDtInterval = true := by
      rw [after] at time stays
      exact lt_of_later aims.time time aims.nonneg (aims.lt_of_stepped time).le stays
    rw [next, chooseStep, interval]
    rfl
  · refine ⟨?_, ?_, ⟨dt, positive, finite⟩⟩
    · rw [after]
      rfl
    · cases interval : tg.lt tg.endOfFixedDtInterval with
      | true =>
          obtain ⟨-, same, corrected⟩ := within interval
          have changed : (tg.nextTime marks).dtChanged =
              (tg.dtFixedNow && !tg.timeStep.equal tg.correctedDt) := by
            rw [next, chooseStep, interval]
            rfl
          have lastTimeStep : (tg.nextTime marks).lastTimeStep = tg.timeStep := by
            rw [after]
            rfl
          rw [changed, finite, lastTimeStep]
          cases fixedNow : tg.dtFixedNow with
          | true =>
              rw [Bool.true_and, lastStep, corrected]
              exact not_equal_fin last dt
          | false =>
              have unchanged := tracked.unchanged running interval fixedNow
              rw [Bool.false_and, unchanged, ← same, corrected]
              simp
      | false =>
          have changed : (tg.nextTime marks).dtChanged =
              !tg.timeStep.equal (tg.estimateDt marks) := by
            rw [next, chooseStep, interval]
            rfl
          have lastTimeStep : (tg.nextTime marks).lastTimeStep = tg.timeStep := by
            rw [after]
            rfl
          rw [changed, finite, lastTimeStep, lastStep, estimated]
          exact not_equal_fin last dt

end Tracked

theorem create_tracked {marks₀ final : TimeMarks} {input : Record}
    {fixedTimeMask : TimeMark.MarkType}
    (created : create marks₀ input fixedTimeMask = .ok (tg, final)) : Tracked tg := by
  have proper := create_proper created
  have free := create_free created
  obtain ⟨start, end_, init, -, -, same⟩ := create_cases created
  refine ⟨proper.release, .inl proper, ?_, ?_⟩
  · intro _ interval
    rw [free] at interval
    cases interval
  · intro running
    subst same
    refine ⟨input.initDt.getD (input.endTime - input.startTime), ?_, rfl⟩
    cases given : input.initDt with
    | some first => exact init first given
    | none =>
        rw [isEnd_fin (t := input.startTime) rfl, Bool.not_eq_false'] at running
        exact sub_pos.mpr (before_of_lt rfl running)

end TimeGovernor

end Flow123d
