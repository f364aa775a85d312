import Flow123d.Coupling.Equation

/-!
# Sequential coupling of flow and transport

The loop of `run_simulation` on the time governors of the two equations. An update of
the transport may add marks to the common database, so every iteration sees its own
marks.
-/

set_option autoImplicit false

namespace Flow123d

open Flow123d.Library

structure HcExplicitSequential where
  water : TimeGovernor
  transportReaction : TimeGovernor

namespace HcExplicitSequential

/-- The velocity is taken from the center of the transport interval. -/
def theta : ℚ := 1 / 2

def finished (state : HcExplicitSequential) : Bool :=
  state.water.isEnd && state.transportReaction.isEnd

def constrain (state : HcExplicitSequential) : HcExplicitSequential :=
  { state with
    transportReaction :=
      EquationBase.setTimeUpperConstraint state.transportReaction state.water.timeStep }

def velocityInterpolationTime (marks : TimeMarks) (state : HcExplicitSequential) : Double :=
  .fin theta * EquationBase.plannedTime marks state.transportReaction +
    .fin (1 - theta) * EquationBase.solvedTime state.transportReaction

/-- The water is behind the time for which the transport needs the velocity. -/
def waterLags (marks : TimeMarks) (state : HcExplicitSequential) : Bool :=
  EquationBase.solvedTime state.water < state.velocityInterpolationTime marks

def turn (marks : TimeMarks) (state : HcExplicitSequential) : HcExplicitSequential :=
  if state.waterLags marks then
    { state with
      water := EquationBase.chooseNextTime marks
        (DarcyFlowMH.updateSolution marks state.water) }
  else
    { state with
      transportReaction := EquationBase.updateSolution marks state.transportReaction }

def iteration (marks : TimeMarks) (state : HcExplicitSequential) : HcExplicitSequential :=
  state.constrain.turn marks

/-- The state before iteration `k`, or at the end of the loop. -/
def runSimulation (marks : ℕ → TimeMarks) (start : HcExplicitSequential) :
    ℕ → HcExplicitSequential
  | 0 => start
  | k + 1 =>
      if (runSimulation marks start k).finished then runSimulation marks start k
      else (runSimulation marks start k).iteration (marks k)

variable {state after : HcExplicitSequential}

/-! ## Progress -/

def Advances (state after : HcExplicitSequential) : Prop :=
  state.water.time < after.water.time ∨
    state.transportReaction.time < after.transportReaction.time

/-- An unsteady equation that has gone forward has made a step of at least `h`. -/
def StepAtLeast (h : ℚ) (before after : TimeGovernor) : Prop :=
  before.time < after.time → before.steady = false → .fin h ≤ after.timeStep

def StepsAtLeast (h : ℚ) (state after : HcExplicitSequential) : Prop :=
  StepAtLeast h state.water after.water ∧
    StepAtLeast h state.transportReaction after.transportReaction

/-- Every iteration goes forward, and with steps bounded from below the loop ends. -/
structure MakesProgress (marks : ℕ → TimeMarks) (start : HcExplicitSequential) : Prop where
  advances : ∀ k, (runSimulation marks start k).finished = false →
    Advances (runSimulation marks start k) (runSimulation marks start (k + 1))
  ends : ∀ h : ℚ, 0 < h →
    (∀ k, (runSimulation marks start k).finished = false →
      StepsAtLeast h (runSimulation marks start k) (runSimulation marks start (k + 1))) →
    ∃ k, (runSimulation marks start k).finished = true

/-- The condition on a turn in the state before it: the equation that gets it is not
at its end, and a finite fixed mark is ahead whenever it selects a step. -/
def TurnSound (marks : TimeMarks) (state : HcExplicitSequential) : Prop :=
  if state.waterLags marks then
    state.water.isEnd = false ∧ state.water.MarksAhead marks .nextTime ∧
      (state.water.nextTime marks).MarksAhead marks .fixDtUntilMark
  else
    state.transportReaction.isEnd = false ∧
      state.transportReaction.MarksAhead marks .nextTime

structure Valid (state : HcExplicitSequential) : Prop where
  water : state.water.Valid
  transportReaction : state.transportReaction.Valid

theorem constrain_time (state : HcExplicitSequential) :
    state.constrain.transportReaction.time = state.transportReaction.time ∧
      state.constrain.transportReaction.endTime = state.transportReaction.endTime ∧
      state.constrain.transportReaction.steady = state.transportReaction.steady := by
  unfold constrain EquationBase.setTimeUpperConstraint TimeGovernor.setUpperConstraint
  simp only
  split_ifs <;> exact ⟨rfl, rfl, rfl⟩

theorem Valid.constrain (valid : Valid state) : Valid state.constrain := by
  have transportReaction : TimeGovernor.Valid (state.transportReaction.call TimeMarks.create
      (.setUpperConstraint state.water.timeStep)) :=
    valid.transportReaction.call _ fun _ selects => selects.elim
  exact ⟨valid.water, transportReaction⟩

theorem chooseNextTime_time (marks : TimeMarks) (tg : TimeGovernor) :
    (EquationBase.chooseNextTime marks tg).time = tg.time ∧
      (EquationBase.chooseNextTime marks tg).endTime = tg.endTime ∧
      (EquationBase.chooseNextTime marks tg).timeStep = tg.timeStep := by
  unfold EquationBase.chooseNextTime TimeGovernor.fixDtUntilMark
  split_ifs <;> exact ⟨rfl, rfl, rfl⟩

section Turn

variable {marks : TimeMarks}

theorem turn_water (lags : state.waterLags marks = true) (running : state.water.isEnd = false) :
    state.turn marks = { state with
      water := EquationBase.chooseNextTime marks (state.water.nextTime marks) } := by
  unfold turn DarcyFlowMH.updateSolution
  simp only [lags, running, Bool.false_eq_true, ↓reduceIte]

theorem turn_transport (ahead : state.waterLags marks = false) :
    state.turn marks = { state with
      transportReaction := state.transportReaction.nextTime marks } := by
  unfold turn EquationBase.updateSolution
  simp only [ahead, Bool.false_eq_true, ↓reduceIte]

theorem Valid.turn (valid : Valid state) (sound : TurnSound marks state) :
    Valid (state.turn marks) := by
  unfold TurnSound at sound
  cases lags : state.waterLags marks with
  | true =>
      rw [if_pos lags] at sound
      obtain ⟨running, ahead, fixedAhead⟩ := sound
      rw [turn_water lags running]
      have next : TimeGovernor.Valid (state.water.nextTime marks) :=
        valid.water.call .nextTime ahead
      exact ⟨next.call .fixDtUntilMark fixedAhead, valid.transportReaction⟩
  | false =>
      rw [if_neg (by simp [lags])] at sound
      rw [turn_transport lags]
      exact ⟨valid.water, valid.transportReaction.call .nextTime sound.2⟩

theorem Valid.turn_advances (valid : Valid state) (sound : TurnSound marks state) :
    Advances state (state.turn marks) := by
  unfold TurnSound at sound
  cases lags : state.waterLags marks with
  | true =>
      rw [if_pos lags] at sound
      obtain ⟨running, ahead, -⟩ := sound
      rw [turn_water lags running]
      refine .inl ?_
      change state.water.time < (EquationBase.chooseNextTime marks _).time
      rw [(chooseNextTime_time marks _).1]
      exact valid.water.nextTime_lt running ahead
  | false =>
      rw [if_neg (by simp [lags])] at sound
      rw [turn_transport lags]
      exact .inr (valid.transportReaction.nextTime_lt sound.1 sound.2)

/-- The turn of an equation at its end changes no time. -/
theorem not_advances_of_isEnd (valid : Valid state)
    (ended : (if state.waterLags marks then state.water else state.transportReaction).isEnd =
      true) : ¬Advances state (state.turn marks) := by
  have water := valid.water.not_time_lt
  have transportReaction := valid.transportReaction.not_time_lt
  cases lags : state.waterLags marks with
  | true =>
      rw [if_pos lags] at ended
      unfold turn DarcyFlowMH.updateSolution
      simp only [lags, ended, ↓reduceIte]
      intro forward
      obtain forward | forward := forward
      · rw [(chooseNextTime_time marks state.water).1] at forward
        exact water forward
      · exact transportReaction forward
  | false =>
      rw [if_neg (by simp [lags])] at ended
      rw [turn_transport lags, TimeGovernor.nextTime_of_isEnd ended]
      intro forward
      obtain forward | forward := forward
      · exact water forward
      · exact transportReaction forward

def stepsLeft (h : ℚ) (state : HcExplicitSequential) : ℕ :=
  state.water.stepsLeft h + state.transportReaction.stepsLeft h

theorem Valid.turn_stepsLeft {h : ℚ} (positive : 0 < h) (valid : Valid state)
    (sound : TurnSound marks state) (long : StepsAtLeast h state (state.turn marks)) :
    (state.turn marks).stepsLeft h < state.stepsLeft h := by
  unfold TurnSound at sound
  obtain ⟨waterLong, transportLong⟩ := long
  unfold stepsLeft
  cases lags : state.waterLags marks with
  | true =>
      rw [if_pos lags] at sound
      obtain ⟨running, ahead, -⟩ := sound
      rw [turn_water lags running] at waterLong ⊢
      obtain ⟨time, endTime, timeStep⟩ :=
        chooseNextTime_time marks (state.water.nextTime marks)
      have forward := valid.water.nextTime_lt running ahead
      have less := valid.water.stepsLeft_nextTime positive running ahead fun unsteady => by
        rw [← timeStep]
        exact waterLong (by rw [time]; exact forward) unsteady
      rw [← TimeGovernor.stepsLeft_congr h time endTime] at less
      exact Nat.add_lt_add_right less _
  | false =>
      rw [if_neg (by simp [lags])] at sound
      rw [turn_transport lags] at transportLong ⊢
      have forward := valid.transportReaction.nextTime_lt sound.1 sound.2
      exact Nat.add_lt_add_left (valid.transportReaction.stepsLeft_nextTime positive sound.1
        sound.2 (transportLong forward)) _

end Turn

theorem stepsLeft_constrain (h : ℚ) (state : HcExplicitSequential) :
    state.constrain.stepsLeft h = state.stepsLeft h := by
  obtain ⟨time, endTime, -⟩ := constrain_time state
  unfold stepsLeft
  rw [TimeGovernor.stepsLeft_congr h time endTime]
  rfl

theorem advances_constrain (state after : HcExplicitSequential) :
    Advances state.constrain after ↔ Advances state after := by
  unfold Advances
  rw [(constrain_time state).1]
  rfl

theorem stepsAtLeast_constrain (h : ℚ) (state after : HcExplicitSequential) :
    StepsAtLeast h state.constrain after ↔ StepsAtLeast h state after := by
  obtain ⟨time, -, steady⟩ := constrain_time state
  unfold StepsAtLeast StepAtLeast
  rw [time, steady]
  rfl

/-! ## Runs -/

section Run

variable {marks : ℕ → TimeMarks} {start : HcExplicitSequential}

theorem runSimulation_succ {k : ℕ} (goesOn : (runSimulation marks start k).finished = false) :
    runSimulation marks start (k + 1) = (runSimulation marks start k).iteration (marks k) := by
  rw [runSimulation, if_neg (by simp [goesOn])]

theorem runSimulation_of_finished {k : ℕ}
    (ended : (runSimulation marks start k).finished = true) :
    runSimulation marks start (k + 1) = runSimulation marks start k := by
  rw [runSimulation, if_pos ended]

theorem runSimulation_valid (valid : Valid start)
    (sound : ∀ k, (runSimulation marks start k).finished = false →
      TurnSound (marks k) (runSimulation marks start k).constrain) (k : ℕ) :
    Valid (runSimulation marks start k) := by
  induction k with
  | zero => exact valid
  | succ k ih =>
      cases goesOn : (runSimulation marks start k).finished with
      | true =>
          rw [runSimulation_of_finished goesOn]
          exact ih
      | false =>
          rw [runSimulation_succ goesOn]
          exact ih.constrain.turn (sound k goesOn)

/-- The loop makes progress when every turn goes to an equation that is not at its
end. -/
theorem run_makesProgress (marks : ℕ → TimeMarks) (start : HcExplicitSequential)
    (water : start.water.Started) (transportReaction : start.transportReaction.Started)
    (sound : ∀ k, (runSimulation marks start k).finished = false →
      TurnSound (marks k) (runSimulation marks start k).constrain) :
    MakesProgress marks start := by
  have valid := runSimulation_valid ⟨water.valid, transportReaction.valid⟩ sound
  constructor
  · intro k goesOn
    rw [runSimulation_succ goesOn, ← advances_constrain]
    exact (valid k).constrain.turn_advances (sound k goesOn)
  · intro h positive long
    refine exists_finished_of_rank (runSimulation marks start)
      (fun state => state.finished = true) (stepsLeft h) ?_
    intro k unfinished
    rw [Bool.not_eq_true] at unfinished
    have step := long k unfinished
    rw [runSimulation_succ unfinished, ← stepsAtLeast_constrain] at step
    rw [runSimulation_succ unfinished, ← stepsLeft_constrain h (runSimulation marks start k)]
    exact (valid k).constrain.turn_stepsLeft positive (sound k unfinished) step

theorem runSimulation_of_finished_add {k : ℕ}
    (ended : (runSimulation marks start k).finished = true) (j : ℕ) :
    runSimulation marks start (k + j) = runSimulation marks start k := by
  induction j with
  | zero => rfl
  | succ j ih =>
      rw [← Nat.add_assoc, runSimulation_of_finished (by rwa [ih]), ih]

end Run

/-! ## Examples -/

def unitSteps (endTime : ℚ) : TimeGovernor.Record := ⟨0, endTime, some 1, none, none⟩

def unitStart (waterEnd transportEnd : ℚ) : HcExplicitSequential where
  water := (unitSteps waterEnd).governor 1
  transportReaction := (unitSteps transportEnd).governor 1

def unitMarks (waterEnd transportEnd : ℚ) : TimeMarks :=
  ((TimeMarks.create.add (TimeGovernor.markAt 0 1)).add
    (TimeGovernor.markAt waterEnd 1)).add (TimeGovernor.markAt transportEnd 1)

theorem unitSteps_started {endTime : ℚ} (positive : 0 < endTime) :
    ((unitSteps endTime).governor 1).Started := by
  obtain ⟨final, created⟩ := TimeGovernor.create_of_checks TimeMarks.create
    (unitSteps endTime) 0 (lt_irrefl (0 : ℚ)) (not_lt.mpr positive.le)
    (by decide +kernel : (some (1 : ℚ)).any (· ≤ 0) = false) (by norm_num : ¬(1 : ℚ) ≤ 0)
    (lt_irrefl (1 : ℚ))
  exact .unsteady created

theorem run_makesProgress_common_end :
    MakesProgress (fun _ => unitMarks 1 1) (unitStart 1 1) := by
  refine run_makesProgress _ _ (unitSteps_started one_pos) (unitSteps_started one_pos) ?_
  intro k goesOn
  match k with
  | 0 =>
      unfold TurnSound
      rw [if_pos (by decide +kernel)]
      exact ⟨by decide +kernel, fun _ _ => ⟨1, by decide +kernel⟩,
        fun _ (running : TimeGovernor.isEnd _ = false) =>
          absurd running (by decide +kernel)⟩
  | 1 =>
      unfold TurnSound
      rw [if_neg (by decide +kernel)]
      exact ⟨by decide +kernel, fun _ _ => ⟨1, by decide +kernel⟩⟩
  | k + 2 =>
      have ended : (runSimulation (fun _ => unitMarks 1 1) (unitStart 1 1) 2).finished =
          true := by decide +kernel
      rw [Nat.add_comm, runSimulation_of_finished_add ended, ended] at goesOn
      cases goesOn

/-- The water at its end gets the turn of the transport that goes on. -/
theorem not_always_makesProgress :
    ¬∀ (marks : ℕ → TimeMarks) (start : HcExplicitSequential), start.water.Started →
      start.transportReaction.Started → MakesProgress marks start := by
  intro always
  have progress := always (fun _ => unitMarks 1 2) (unitStart 1 2)
    (unitSteps_started one_pos) (unitSteps_started two_pos)
  have forward := progress.advances 2 (by decide +kernel)
  unfold Advances at forward
  revert forward
  decide +kernel

end HcExplicitSequential

end Flow123d
