import Flow123d.Coupling.TimeGovernorRun

/-!
# Fixed marks are met

`next_time` never steps over a fixed mark while a finite one is ahead. A fixed
interval ends exactly on its mark when the wanted step is not so long that the
rounding leaves no step at all, and not so short that the comparisons take the last
step for the end of the interval.
-/

set_option autoImplicit false

namespace Flow123d

open Flow123d.Library

namespace TimeGovernor

variable {marks : TimeMarks} {tg : TimeGovernor} {t m s step : ℚ}

/-- After `fix_dt_until_mark` some later step ends exactly on the mark, whatever
constraints are requested meanwhile. -/
def EndsOnMark (marks : TimeMarks) (tg : TimeGovernor) : Prop :=
  ∃ steps : ℕ, ∀ later : List Call, Call.fixDtUntilMark ∉ later →
    later.count .nextTime = steps →
    ((tg.fixDtUntilMark marks).1.run marks later).time = (tg.fixDtUntilMark marks).2

def RespectsMarks (marks : TimeMarks) (tg : TimeGovernor) : Call → Prop
  | .nextTime => ∀ mark ∈ marks.marks, mark.matchMask tg.fixedTimeMarkMask = true →
      ¬(tg.lt mark.time = true ∧ (tg.nextTime marks).gt mark.time = true)
  | .fixDtUntilMark => tg.isEnd = false → EndsOnMark marks tg
  | _ => True

/-! ## Sound steps -/

def atTime (tg : TimeGovernor) (time : ℚ) : TimeGovernor := { tg with time := .fin time }

/-- One step before the mark the governor still sees the mark ahead of it, and is
not at its end. -/
def SeesMark (tg : TimeGovernor) (m step : ℚ) : Prop :=
  (tg.atTime (m - step)).lt (.fin m) = true ∧ (tg.atTime (m - step)).isEnd = false

/-- The condition on a call in the state before it. -/
def Sound (marks : TimeMarks) (tg : TimeGovernor) : Call → Prop
  | .nextTime => Selects tg .nextTime → MarkAhead marks tg
  | .fixDtUntilMark => Selects tg .fixDtUntilMark → ∃ t m s, SoundStep marks tg t m s ∧
      SeesMark tg m ((m - t) / stepCount (m - t) s)
  | _ => True

theorem Sound.markAhead {request : Call} (sound : Sound marks tg request)
    (selects : Selects tg request) : MarkAhead marks tg := by
  cases request with
  | setUpperConstraint upper => cases selects
  | setLowerConstraint lower => cases selects
  | fixDtUntilMark =>
      obtain ⟨t, m, s, step, -⟩ := sound selects
      exact step.markAhead
  | nextTime => exact sound selects

/-! ## No mark is stepped over -/

theorem not_lt_and_gt (time : tg.time = .fin t) (mark : TimeMark) :
    ¬(tg.lt mark.time = true ∧ tg.gt mark.time = true) := by
  intro ⟨less, greater⟩
  cases marked : mark.time with
  | nan => exact mark.isTime marked
  | negInf =>
      rw [marked, not_lt_negInf time] at less
      cases less
  | posInf =>
      rw [marked, not_gt_posInf time] at greater
      cases greater
  | fin m =>
      rw [marked] at less greater
      rw [not_gt_of_le time (before_of_lt time less).le] at greater
      cases greater

/-- The time behind a step that leads to the target at most is not behind a mark
that the target does not pass. -/
theorem not_gt_of_target_le {other : TimeGovernor} {target : ℚ} {mark : TimeMark}
    (time : other.time = .posInf ∨ ∃ t', other.time = .fin t' ∧ t' ≤ target)
    (first : .fin target ≤ mark.time) : other.gt mark.time = false := by
  cases marked : mark.time with
  | nan => exact absurd marked mark.isTime
  | negInf =>
      rw [marked] at first
      cases first
  | posInf =>
      obtain infinite | ⟨t', finite, -⟩ := time
      · exact not_gt_of_posInf infinite (by simp) (by simp)
      · exact not_gt_posInf finite
  | fin m =>
      rw [marked, Double.fin_le_fin] at first
      obtain infinite | ⟨t', finite, reached⟩ := time
      · exact not_gt_of_posInf infinite (by simp) (by simp)
      · exact not_gt_of_le finite (reached.trans first)

/-- No fixed mark lies before the end of the fixed interval. -/
structure ClearInterval (marks : TimeMarks) (tg : TimeGovernor) : Prop where
  proper : Proper tg
  first : tg.isEnd = false → tg.lt tg.endOfFixedDtInterval = true →
    ∀ mark ∈ marks.marks, tg.lt mark.time = true →
      mark.matchMask tg.fixedTimeMarkMask = true → tg.endOfFixedDtInterval ≤ mark.time

namespace ClearInterval

theorem target_first (clear : ClearInterval marks tg) (running : tg.isEnd = false)
    (ahead : tg.lt tg.endOfFixedDtInterval = false → MarkAhead marks tg) :
    ∃ t target, Aims tg t target (tg.estimateDt marks) ∧
      ∀ mark ∈ marks.marks, tg.lt mark.time = true →
        mark.matchMask tg.fixedTimeMarkMask = true → .fin target ≤ mark.time := by
  obtain ⟨t, target, aims, fixed, free⟩ := clear.proper.estimateDt_aims running ahead
  refine ⟨t, target, aims, ?_⟩
  intro mark member less matching
  cases interval : tg.lt tg.endOfFixedDtInterval with
  | true =>
      rw [← (fixed interval).1]
      exact clear.first running interval mark member less matching
  | false =>
      rw [← free interval]
      exact next_first marks tg.fixedTimeMarkMask aims.time member less matching

theorem nextTime_respects (clear : ClearInterval marks tg)
    (ahead : Selects tg .nextTime → MarkAhead marks tg) :
    RespectsMarks marks tg .nextTime := by
  intro mark member matching
  cases running : tg.isEnd with
  | true =>
      rw [nextTime_of_isEnd running]
      obtain infinite | ⟨t, -, finite⟩ := clear.proper.time
      · intro ⟨less, greater⟩
        rw [not_gt_of_posInf infinite mark.isTime] at greater
        · cases greater
        · intro marked
          rw [marked, not_lt_negInf_of_posInf infinite] at less
          cases less
      · exact not_lt_and_gt finite mark
  | false =>
      obtain ⟨t, target, aims, first⟩ :=
        clear.target_first running fun free => ahead ⟨running, free⟩
      obtain ⟨dtFixedNow, dtChanged, next⟩ := clear.proper.nextTime_eq running
      intro ⟨less, greater⟩
      have moved : (tg.nextTime marks).time = .posInf ∨ ∃ t',
          (tg.nextTime marks).time = .fin t' ∧ t' ≤ target := by
        rw [next]
        obtain infinite | ⟨t', -, reached, finite⟩ := aims.stepped_time dtFixedNow dtChanged
        · exact .inl infinite
        · exact .inr ⟨t', finite, reached⟩
      rw [not_gt_of_target_le moved (first mark member less matching)] at greater
      cases greater

theorem setUpperConstraint (clear : ClearInterval marks tg) (upper : Double) :
    ClearInterval marks (tg.setUpperConstraint upper).1 := by
  have proper := clear.proper.setUpperConstraint upper
  rcases tg.setUpperConstraint_cases upper with same | ⟨set, -, -⟩
  · rw [same]
    exact clear
  · rw [set] at proper ⊢
    exact ⟨proper, clear.first⟩

theorem setLowerConstraint (clear : ClearInterval marks tg) (lower : Double) :
    ClearInterval marks (tg.setLowerConstraint lower).1 := by
  have proper := clear.proper.setLowerConstraint lower
  rcases tg.setLowerConstraint_cases lower with same | ⟨set, -, -⟩
  · rw [same]
    exact clear
  · rw [set] at proper ⊢
    exact ⟨proper, clear.first⟩

theorem fixDtUntilMark (clear : ClearInterval marks tg)
    (ahead : tg.isEnd = false → MarkAhead marks tg) :
    ClearInterval marks (tg.fixDtUntilMark marks).1 := by
  have proper := clear.proper.fixDtUntilMark ahead
  rw [fixDtUntilMark_unsteady clear.proper.unsteady] at proper ⊢
  refine ⟨proper, ?_⟩
  intro running _ mark member less matching
  obtain ⟨t, -, time⟩ := clear.proper.finiteTime running
  exact next_first marks tg.fixedTimeMarkMask time member less matching

theorem nextTime (clear : ClearInterval marks tg)
    (ahead : Selects tg .nextTime → MarkAhead marks tg) :
    ClearInterval marks (tg.nextTime marks) := by
  refine ⟨clear.proper.nextTime ahead, ?_⟩
  cases running : tg.isEnd with
  | true =>
      rw [nextTime_of_isEnd running]
      exact clear.first
  | false =>
      obtain ⟨t, target, aims, -⟩ :=
        clear.proper.estimateDt_aims running fun free => ahead ⟨running, free⟩
      obtain ⟨dtFixedNow, dtChanged, next⟩ := clear.proper.nextTime_eq running
      have proper := clear.proper.nextTime ahead
      rw [next] at proper ⊢
      intro goesOn stays mark member less matching
      obtain ⟨t', -, time⟩ := proper.finiteTime goesOn
      have later := (aims.lt_of_stepped time).le
      exact clear.first running (lt_of_later aims.time time aims.nonneg later stays) mark
        member (lt_of_later aims.time time aims.nonneg later less) matching

theorem call (clear : ClearInterval marks tg) (request : Call)
    (ahead : Selects tg request → MarkAhead marks tg) :
    ClearInterval marks (tg.call marks request) := by
  cases request with
  | setUpperConstraint upper => exact clear.setUpperConstraint upper
  | setLowerConstraint lower => exact clear.setLowerConstraint lower
  | fixDtUntilMark => exact clear.fixDtUntilMark ahead
  | nextTime => exact clear.nextTime ahead

end ClearInterval

theorem create_clearInterval {marks₀ final : TimeMarks} {input : Record}
    {fixedTimeMask : TimeMark.MarkType}
    (created : create marks₀ input fixedTimeMask = .ok (tg, final)) :
    ClearInterval marks tg := by
  refine ⟨create_proper created, ?_⟩
  intro _ interval
  rw [create_free created] at interval
  cases interval

/-! ## Fixed intervals end on their marks -/

/-- The governor is `remaining` steps before the end of its fixed interval. -/
structure OnGrid (tg : TimeGovernor) (m step : ℚ) (remaining : ℕ) :
    Prop where
  proper : Proper tg
  time : tg.time = .fin (m - remaining * step)
  end_ : tg.endOfFixedDtInterval = .fin m
  fixedDt : tg.fixedDt = .fin step
  positive : 0 < step
  nonneg : 0 ≤ m - remaining * step
  seesMark : SeesMark tg m step

namespace OnGrid

variable {remaining : ℕ}

theorem setUpperConstraint (grid : OnGrid tg m step remaining) (upper : Double) :
    OnGrid (tg.setUpperConstraint upper).1 m step remaining := by
  have proper := grid.proper.setUpperConstraint upper
  rcases tg.setUpperConstraint_cases upper with same | ⟨set, -, -⟩
  · rw [same]
    exact grid
  · rw [set] at proper ⊢
    exact { grid with proper := proper }

theorem setLowerConstraint (grid : OnGrid tg m step remaining) (lower : Double) :
    OnGrid (tg.setLowerConstraint lower).1 m step remaining := by
  have proper := grid.proper.setLowerConstraint lower
  rcases tg.setLowerConstraint_cases lower with same | ⟨set, -, -⟩
  · rw [same]
    exact grid
  · rw [set] at proper ⊢
    exact { grid with proper := proper }

theorem nextTime (grid : OnGrid tg m step (remaining + 1)) :
    OnGrid (tg.nextTime marks) m step remaining := by
  obtain ⟨sees, goesOn⟩ := grid.seesMark
  have lastTime : (tg.atTime (m - step)).time = .fin (m - step) := rfl
  have positive := grid.positive
  have many : (0 : ℚ) ≤ remaining * step := by positivity
  have time := grid.time
  have nonneg := grid.nonneg
  push_cast at time nonneg
  -- what the last step sees, the earlier ones see as well
  have fixed : tg.lt tg.endOfFixedDtInterval = true := by
    rw [grid.end_]
    exact lt_of_later time lastTime nonneg (by linarith) sees
  have running : tg.isEnd = false := by
    rw [isEnd_fin lastTime, Bool.not_eq_false'] at goesOn
    rw [isEnd_fin time, Bool.not_eq_false']
    exact lt_of_later time lastTime nonneg (by linarith) goesOn
  have proper : Proper (tg.nextTime marks) := grid.proper.nextTime fun ⟨_, free⟩ => by
    rw [fixed] at free
    cases free
  obtain ⟨dtFixedNow, dtChanged, next⟩ := grid.proper.nextTime_eq running
  rw [estimateDt_fixed running grid.proper.unsteady fixed, grid.fixedDt] at next
  rw [next] at proper ⊢
  exact
    { proper := proper
      time := by
        change tg.time + .fin step = _
        rw [time, Double.fin_add_fin]
        congr 1
        ring
      end_ := grid.end_
      fixedDt := grid.fixedDt
      positive := grid.positive
      nonneg := by linarith
      seesMark := grid.seesMark }

theorem run (calls : List Call) (kept : Call.fixDtUntilMark ∉ calls)
    (grid : OnGrid tg m step (remaining + calls.count .nextTime)) :
    OnGrid (tg.run marks calls) m step remaining := by
  induction calls generalizing tg with
  | nil => exact grid
  | cons request calls ih =>
      rw [List.mem_cons, not_or] at kept
      refine ih kept.2 ?_
      cases request with
      | setUpperConstraint upper =>
          rw [List.count_cons_of_ne (by simp)] at grid
          exact grid.setUpperConstraint upper
      | setLowerConstraint lower =>
          rw [List.count_cons_of_ne (by simp)] at grid
          exact grid.setLowerConstraint lower
      | fixDtUntilMark => exact absurd rfl kept.1
      | nextTime =>
          rw [List.count_cons_self, ← Nat.add_assoc] at grid
          exact grid.nextTime

end OnGrid

theorem Proper.fixDtUntilMark_onGrid (proper : Proper tg) (running : tg.isEnd = false)
    (sound : SoundStep marks tg t m s)
    (sees : SeesMark tg m ((m - t) / stepCount (m - t) s)) :
    ∃ steps, OnGrid (tg.fixDtUntilMark marks).1 m ((m - t) / stepCount (m - t) s)
      steps := by
  have positive := sound.positive proper.lowerPositive (proper.upperPositive running)
  have counted := stepCount_pos positive sound.coarse
  have distance : 0 < m - t := sub_pos.mpr sound.before
  obtain ⟨steps, same⟩ := Int.eq_ofNat_of_zero_le counted.le
  have countPositive : (0 : ℚ) < stepCount (m - t) s := by exact_mod_cast counted
  have ratio : (steps : ℚ) * ((m - t) / stepCount (m - t) s) = m - t := by
    rw [same] at countPositive ⊢
    push_cast at countPositive ⊢
    field_simp
  have fixed := proper.fixDtUntilMark fun _ => sound.markAhead
  have released : tg.release.isEnd = false := running
  rw [fixDtUntilMark_unsteady proper.unsteady] at fixed ⊢
  refine ⟨steps, ?_⟩
  exact
    { proper := fixed
      time := by
        rw [ratio, sub_sub_cancel]
        exact sound.time
      end_ := sound.mark
      fixedDt := estimateDt_sound released proper.unsteady (not_lt_negInf sound.time)
        sound.time sound.mark sound.wanted positive sound.coarse
      positive := div_pos distance countPositive
      nonneg := by
        obtain ⟨t', nonneg, time⟩ := proper.finiteTime running
        rw [sound.time, Double.fin.injEq] at time
        rw [ratio, sub_sub_cancel, time]
        exact nonneg
      seesMark := sees }

theorem Proper.endsOnMark (proper : Proper tg) (running : tg.isEnd = false)
    (sound : SoundStep marks tg t m s)
    (sees : SeesMark tg m ((m - t) / stepCount (m - t) s)) : EndsOnMark marks tg := by
  obtain ⟨steps, grid⟩ := proper.fixDtUntilMark_onGrid running sound sees
  refine ⟨steps, ?_⟩
  intro later kept counted
  have start : OnGrid (tg.fixDtUntilMark marks).1 m ((m - t) / stepCount (m - t) s)
      (0 + later.count .nextTime) := by
    rwa [Nat.zero_add, counted]
  have grid' : OnGrid ((tg.fixDtUntilMark marks).1.run marks later) m _ 0 :=
    start.run later kept
  have last := grid'.time
  rw [Nat.cast_zero, zero_mul, sub_zero] at last
  rw [last, ← grid.end_]
  rw [fixDtUntilMark_unsteady proper.unsteady]

/-! ## Runs -/

theorem ClearInterval.respectsMarks (clear : ClearInterval marks tg) (request : Call)
    (sound : Sound marks tg request) : RespectsMarks marks tg request := by
  cases request with
  | setUpperConstraint upper => trivial
  | setLowerConstraint lower => trivial
  | fixDtUntilMark =>
      intro running
      obtain ⟨t, m, s, step, sees⟩ := sound running
      exact clear.proper.endsOnMark running step sees
  | nextTime => exact clear.nextTime_respects sound

/-- Runs of a governor over frozen marks respect the fixed marks in every state if
all their calls are sound. -/
theorem run_respectsMarks {marks₀ final : TimeMarks} (marks : TimeMarks) (input : Record)
    (fixedTimeMask : TimeMark.MarkType) (calls : List Call)
    (created : create marks₀ input fixedTimeMask = .ok (tg, final))
    (sound : AlongRun (call marks) (Sound marks) tg calls) :
    AlongRun (call marks) (RespectsMarks marks) tg calls :=
  AlongRun.of_invariant (ClearInterval marks)
    (fun _ request clear sound => clear.call request sound.markAhead)
    (fun _ request clear sound => clear.respectsMarks request sound)
    (create_clearInterval created) sound

theorem run_respectsMarks_half_way :
    AlongRun (call (tenUnitsMarks (5 / 2))) (RespectsMarks (tenUnitsMarks (5 / 2)))
      ((tenUnits (some 1) none).governor 1)
      [.fixDtUntilMark, .nextTime, .setUpperConstraint (.fin (1 / 2)), .nextTime, .nextTime,
        .nextTime] :=
  run_respectsMarks _ (tenUnits (some 1) none) 0 _
    (create_tenUnits 0 _ _ rfl (by decide +kernel) (by decide +kernel)
      (by decide +kernel)).choose_spec
    ⟨fun _ => ⟨0, 5 / 2, 1, ⟨by decide +kernel, by decide +kernel, by decide +kernel,
        by decide +kernel⟩, by decide +kernel, by decide +kernel⟩,
      fun ⟨_, free⟩ => absurd free (by decide +kernel),
      trivial,
      fun ⟨_, free⟩ => absurd free (by decide +kernel),
      fun ⟨_, free⟩ => absurd free (by decide +kernel),
      fun _ => ⟨10, by decide +kernel⟩,
      trivial⟩

theorem run_replicate_nextTime (ended : tg.isEnd = true) (count : ℕ) :
    tg.run marks (List.replicate count .nextTime) = tg := by
  induction count with
  | zero => rfl
  | succ count ih =>
      rw [List.replicate_succ]
      change (tg.nextTime marks).run marks _ = tg
      rw [nextTime_of_isEnd ended]
      exact ih

theorem not_always_respectsMarks :
    ¬∀ (marks marks₀ final : TimeMarks) (tg : TimeGovernor) (input : Record)
      (fixedTimeMask : TimeMark.MarkType) (calls : List Call),
      create marks₀ input fixedTimeMask = .ok (tg, final) →
      AlongRun (call marks) (RespectsMarks marks) tg calls := by
  intro always
  let marks := tenUnitsMarks (1 / 10 ^ 15)
  let tg := (tenUnits (some 1) none).governor 1
  obtain ⟨final, created⟩ := create_tenUnits 0 (some 1) none rfl
    (by decide +kernel) (by decide +kernel) (by decide +kernel)
  obtain ⟨ends, -⟩ := always marks TimeMarks.create final tg (tenUnits (some 1) none) 0
    [.fixDtUntilMark] created
  obtain ⟨steps, reached⟩ := ends (by decide +kernel)
  have last := reached (List.replicate steps .nextTime) (by simp)
    (List.count_replicate_self ..)
  have mark : (tg.fixDtUntilMark marks).2 = .fin (1 / 10 ^ 15) := by decide +kernel
  rw [mark] at last
  cases steps with
  | zero =>
      have start : (tg.fixDtUntilMark marks).1.time = .fin 0 := by decide +kernel
      change (tg.fixDtUntilMark marks).1.time = _ at last
      rw [start, Double.fin.injEq] at last
      norm_num at last
  | succ steps =>
      rw [List.replicate_succ] at last
      change (((tg.fixDtUntilMark marks).1.nextTime marks).run marks _).time = _ at last
      have next : ((tg.fixDtUntilMark marks).1.nextTime marks).time = .posInf := by
        decide +kernel
      rw [run_replicate_nextTime (isEnd_of_posInf next), next] at last
      cases last

end TimeGovernor

end Flow123d
