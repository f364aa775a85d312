import Flow123d.Coupling.TimeGovernorRun

/-!
# Equations as their time governors see them

What the methods of an equation do to its time governor, and the governors that the
equations can have. Every update before the end goes strictly forward in time.
-/

set_option autoImplicit false

namespace Flow123d

open Flow123d.Library

namespace EquationBase

/-- The update of a transport equation starts with it. -/
def updateSolution (marks : TimeMarks) (tg : TimeGovernor) : TimeGovernor :=
  tg.nextTime marks

def chooseNextTime (marks : TimeMarks) (tg : TimeGovernor) : TimeGovernor :=
  (tg.fixDtUntilMark marks).1

def setTimeUpperConstraint (tg : TimeGovernor) (dt : Double) : TimeGovernor :=
  (tg.setUpperConstraint dt).1

def plannedTime (marks : TimeMarks) (tg : TimeGovernor) : Double := tg.estimateTime marks

def solvedTime (tg : TimeGovernor) : Double := tg.time

end EquationBase

/-- Of all the water flow equations. -/
def DarcyFlowMH.updateSolution (marks : TimeMarks) (tg : TimeGovernor) : TimeGovernor :=
  if tg.isEnd then tg else tg.nextTime marks

namespace TimeGovernor

variable {marks : TimeMarks} {tg : TimeGovernor}

def MarksAhead (marks : TimeMarks) (tg : TimeGovernor) (request : Call) : Prop :=
  tg.steady = false → Selects tg request → MarkAhead marks tg

/-- The governors that come from a constructor by calls over any marks. -/
inductive Started : TimeGovernor → Prop where
  | unsteady {marks final : TimeMarks} {input : Record} {mask : TimeMark.MarkType}
      {tg : TimeGovernor} (created : create marks input mask = .ok (tg, final)) : Started tg
  | steady (marks : TimeMarks) (initTime : ℚ) : Started (createSteady marks initTime).1
  | called {marks : TimeMarks} {tg : TimeGovernor} (request : Call) (started : Started tg)
      (ahead : MarksAhead marks tg request) : Started (tg.call marks request)

structure Steady (tg : TimeGovernor) : Prop where
  steady : tg.steady = true
  endTime : tg.endTime = .posInf
  time : tg.time = .posInf ∨ ∃ t, tg.time = .fin t

def Valid (tg : TimeGovernor) : Prop := Proper tg ∨ Steady tg

namespace Steady

theorem finiteTime (steady : Steady tg) (running : tg.isEnd = false) :
    ∃ t, tg.time = .fin t := by
  obtain infinite | finite := steady.time
  · rw [isEnd_of_posInf infinite] at running
    cases running
  · exact finite

theorem nextTime_time (steady : Steady tg) (running : tg.isEnd = false) :
    (tg.nextTime marks).time = .posInf := by
  obtain ⟨t, time⟩ := steady.finiteTime running
  unfold nextTime infTime
  simp [running, steady.steady, steady.endTime, time]

theorem call (steady : Steady tg) (request : Call) : Steady (tg.call marks request) := by
  cases request with
  | setUpperConstraint upper =>
      change Steady (tg.setUpperConstraint upper).1
      rcases tg.setUpperConstraint_cases upper with same | ⟨set, -, -⟩
      · rw [same]
        exact steady
      · rw [set]
        exact ⟨steady.steady, steady.endTime, steady.time⟩
  | setLowerConstraint lower =>
      change Steady (tg.setLowerConstraint lower).1
      rcases tg.setLowerConstraint_cases lower with same | ⟨set, -, -⟩
      · rw [same]
        exact steady
      · rw [set]
        exact ⟨steady.steady, steady.endTime, steady.time⟩
  | fixDtUntilMark =>
      unfold TimeGovernor.call fixDtUntilMark
      simp only [steady.steady, ↓reduceIte]
      exact steady
  | nextTime =>
      unfold TimeGovernor.call nextTime
      simp only [steady.steady, ↓reduceIte]
      split_ifs
      · exact steady
      · exact ⟨rfl, steady.endTime, .inl steady.endTime⟩

end Steady

namespace Valid

theorem call (valid : Valid tg) (request : Call) (ahead : MarksAhead marks tg request) :
    Valid (tg.call marks request) := by
  obtain proper | steady := valid
  · exact .inl (proper.call request (ahead proper.unsteady))
  · exact .inr (steady.call request)

theorem proper (valid : Valid tg) (unsteady : tg.steady = false) : Proper tg := by
  obtain proper | steady := valid
  · exact proper
  · rw [steady.steady] at unsteady
    cases unsteady

theorem time (valid : Valid tg) : tg.time = .posInf ∨ ∃ t, tg.time = .fin t := by
  obtain proper | steady := valid
  · exact proper.time.imp_right fun ⟨t, _, finite⟩ => ⟨t, finite⟩
  · exact steady.time

theorem not_time_lt (valid : Valid tg) : ¬tg.time < tg.time := by
  obtain infinite | ⟨t, finite⟩ := valid.time
  · rw [infinite]
    exact Double.not_posInf_lt _
  · rw [finite, Double.fin_lt_fin]
    exact lt_irrefl t

theorem nextTime_lt (valid : Valid tg) (running : tg.isEnd = false)
    (ahead : MarksAhead marks tg .nextTime) : tg.time < (tg.nextTime marks).time := by
  obtain proper | steady := valid
  · obtain ⟨t, target, aims, -⟩ :=
      proper.estimateDt_aims running fun free => ahead proper.unsteady ⟨running, free⟩
    obtain ⟨dtFixedNow, dtChanged, next⟩ := proper.nextTime_eq running
    rw [next, aims.time]
    obtain infinite | ⟨t', later, -, finite⟩ := aims.stepped_time dtFixedNow dtChanged
    · rw [infinite]
      exact Double.fin_lt_posInf t
    · rw [finite]
      exact (Double.fin_lt_fin t t').mpr later
  · obtain ⟨t, time⟩ := steady.finiteTime running
    rw [steady.nextTime_time running, time]
    exact Double.fin_lt_posInf t

end Valid

theorem Started.valid (started : Started tg) : Valid tg := by
  induction started with
  | unsteady created => exact .inl (create_proper created)
  | steady marks initTime => exact .inr ⟨rfl, rfl, .inr ⟨initTime, rfl⟩⟩
  | called request _ ahead ih => exact ih.call request ahead

/-! ## The number of steps left -/

/-- A bound of the number of updates of a governor whose steps are not shorter
than `h`. -/
def stepsLeft (h : ℚ) (tg : TimeGovernor) : ℕ :=
  if tg.isEnd then 0
  else
    match tg.endTime, tg.time with
    | .fin e, .fin t => ⌊(e - t) / h⌋₊ + 1
    | _, _ => 1

theorem stepsLeft_congr {other : TimeGovernor} (h : ℚ) (time : tg.time = other.time)
    (endTime : tg.endTime = other.endTime) : tg.stepsLeft h = other.stepsLeft h := by
  unfold stepsLeft
  rw [isEnd_congr time endTime, time, endTime]

theorem stepsLeft_pos (h : ℚ) (running : tg.isEnd = false) : 0 < tg.stepsLeft h := by
  unfold stepsLeft
  simp only [running, Bool.false_eq_true, ↓reduceIte]
  split
  · exact Nat.succ_pos _
  · exact Nat.one_pos

theorem stepsLeft_of_isEnd (h : ℚ) (ended : tg.isEnd = true) : tg.stepsLeft h = 0 := by
  unfold stepsLeft
  rw [if_pos ended]

theorem stepsLeft_fin {h e t : ℚ} (running : tg.isEnd = false) (end_ : tg.endTime = .fin e)
    (time : tg.time = .fin t) : tg.stepsLeft h = ⌊(e - t) / h⌋₊ + 1 := by
  unfold stepsLeft
  rw [running, end_, time]
  rfl

theorem Valid.stepsLeft_nextTime (valid : Valid tg) {h : ℚ} (positive : 0 < h)
    (running : tg.isEnd = false) (ahead : MarksAhead marks tg .nextTime)
    (long : tg.steady = false → .fin h ≤ (tg.nextTime marks).timeStep) :
    (tg.nextTime marks).stepsLeft h < tg.stepsLeft h := by
  cases goesOn : (tg.nextTime marks).isEnd with
  | true =>
      rw [stepsLeft_of_isEnd h goesOn]
      exact stepsLeft_pos h running
  | false =>
      obtain proper | steady := valid
      · have next' : Proper (tg.nextTime marks) := proper.nextTime (ahead proper.unsteady)
        obtain ⟨t', -, time'⟩ := next'.finiteTime goesOn
        obtain ⟨t, -, time⟩ := proper.finiteTime running
        obtain ⟨e, end_⟩ := proper.finiteEnd
        obtain ⟨dtFixedNow, dtChanged, next⟩ := proper.nextTime_eq running
        have longStep := long proper.unsteady
        have end' : (tg.nextTime marks).endTime = .fin e := by
          rw [next]
          exact end_
        have before : t' < e := by
          rw [isEnd_fin time', end', Bool.not_eq_false'] at goesOn
          exact before_of_lt time' goesOn
        have forward : t + h ≤ t' := by
          have step : (tg.nextTime marks).time = tg.time + (tg.nextTime marks).timeStep := by
            rw [next]
            rfl
          rw [time', time] at step
          cases taken : (tg.nextTime marks).timeStep with
          | nan => rw [taken] at step; cases step
          | negInf => rw [taken] at step; cases step
          | posInf => rw [taken] at step; cases step
          | fin dt =>
              rw [taken, Double.fin_add_fin, Double.fin.injEq] at step
              rw [taken, Double.fin_le_fin] at longStep
              linarith
        rw [stepsLeft_fin goesOn end' time', stepsLeft_fin running end_ time]
        have remaining : 0 ≤ (e - t') / h := div_nonneg (by linarith) positive.le
        have shorter : (e - t') / h + 1 ≤ (e - t) / h := by
          rw [div_add_one positive.ne']
          gcongr
          linarith
        have floors := Nat.floor_mono shorter
        rw [Nat.floor_add_one remaining] at floors
        omega
      · rw [isEnd_of_posInf (steady.nextTime_time running)] at goesOn
        cases goesOn

end TimeGovernor

end Flow123d
