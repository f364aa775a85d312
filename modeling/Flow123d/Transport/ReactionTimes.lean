import Flow123d.Transport.TransportOperatorSplitting

/-!
# The times of the reactions

The reactions act over the same times as the convection exactly when one step divides
the way to the next time of the operator splitting and the convection keeps it.
-/

set_option autoImplicit false

namespace Flow123d

open Flow123d.Library

namespace TransportOperatorSplitting

variable {n nSubst : ℕ} (mesh : TransportMesh n) (marks : TimeMarks)

/-! ## One internal step -/

/-- The governor of the convection `k` steps `dt` behind the time `c`. -/
structure InLoop (endTime : Double) (c dt : ℚ) (k : ℕ) (tg : TimeGovernor) : Prop where
  proper : tg.Proper
  time : tg.time = .fin (c + k * dt)
  endTime : tg.endTime = endTime
  fixed : tg.lt tg.endOfFixedDtInterval = true → tg.fixedDt = .fin dt

section Step

variable {convection : ConvectionTransport n nSubst} {endTime : Double} {c dt : ℚ} {k : ℕ}
  {input : ConvectionTransport.StepInput n nSubst} {mesh} {marks}

theorem InLoop.estimateDt (loop : InLoop endTime c dt k convection.time)
    (running : convection.time.isEnd = false) (keeps : KeepsStep mesh marks dt input convection) :
    (convection.reinitData mesh marks input).time.estimateDt marks = .fin dt := by
  cases rebuilt : convection.rebuilds input with
  | true => exact keeps (.inl rebuilt)
  | false =>
      cases fixed : convection.time.lt convection.time.endOfFixedDtInterval with
      | false => exact keeps (.inr fixed)
      | true =>
          rw [ConvectionTransport.reinitData_time mesh marks rebuilt,
            TimeGovernor.estimateDt_fixed running loop.proper.unsteady fixed]
          exact loop.fixed fixed

theorem InLoop.stepReady (loop : InLoop endTime c dt k convection.time)
    (running : convection.time.isEnd = false)
    (keeps : KeepsStep mesh marks dt input convection) :
    ConvectionTransport.StepReady mesh marks input convection := by
  have estimated := loop.estimateDt running keeps
  cases rebuilt : convection.rebuilds input with
  | true =>
      have ahead : convection.time.MarkAhead marks := by
        rw [ConvectionTransport.rebuilt_time mesh marks rebuilt] at estimated
        exact loop.proper.markAhead_of_refixed running estimated
      refine ⟨?_, ?_, ?_⟩
      · exact ConvectionTransport.reinitData_proper mesh marks loop.proper fun _ _ => ahead
      · rw [ConvectionTransport.reinitData_isEnd]
        exact running
      · intro _
        rw [ConvectionTransport.rebuilt_time mesh marks rebuilt,
          TimeGovernor.markAhead_refixed]
        exact ahead
  | false =>
      rw [ConvectionTransport.reinitData_time mesh marks rebuilt] at estimated
      refine ⟨?_, ?_, ?_⟩
      · rw [ConvectionTransport.reinitData_time mesh marks rebuilt]
        exact loop.proper
      · rw [ConvectionTransport.reinitData_isEnd]
        exact running
      · rw [ConvectionTransport.reinitData_time mesh marks rebuilt]
        intro free
        exact TimeGovernor.markAhead_of_estimateDt running loop.proper.unsteady free loop.time
          estimated

theorem InLoop.internalStep (loop : InLoop endTime c dt k convection.time)
    (running : convection.time.isEnd = false) (nonneg : 0 ≤ c) (positive : 0 < dt)
    (keeps : KeepsStep mesh marks dt input convection) :
    InLoop endTime c dt (k + 1) (convection.computeOneStep mesh marks input).time ∧
      (convection.computeOneStep mesh marks input).time.timeStep = .fin dt := by
  have estimated := loop.estimateDt running keeps
  have ready := loop.stepReady running keeps
  have stepped := ConvectionTransport.computeOneStep_time mesh marks input convection
  obtain ⟨time, end_, -⟩ := ConvectionTransport.reinitData_keeps mesh marks input convection
  obtain ⟨dtFixedNow, dtChanged, next⟩ := ready.proper.nextTime_eq ready.running
  have proper := ready.proper.nextTime fun ⟨_, free⟩ => ready.ahead free
  rw [estimated] at next
  rw [next] at proper
  rw [stepped, next]
  have after : ((convection.reinitData mesh marks input).time.stepped (.fin dt) dtFixedNow
      dtChanged).time = .fin (c + ↑(k + 1) * dt) := by
    change (convection.reinitData mesh marks input).time.time + .fin dt = _
    rw [time, loop.time, Double.fin_add_fin]
    push_cast
    congr 1
    ring
  refine ⟨⟨proper, after, end_.trans loop.endTime, ?_⟩, rfl⟩
  intro fixed
  have earlier : 0 ≤ c + k * dt := by positivity
  have less := TimeGovernor.lt_of_later (time.trans loop.time) after earlier
    (by push_cast; linarith) fixed
  change (convection.reinitData mesh marks input).time.fixedDt = .fin dt
  rw [← TimeGovernor.estimateDt_fixed ready.running ready.proper.unsteady less]
  exact estimated

theorem InLoop.keepsStep (loop : InLoop endTime c dt k convection.time)
    (running : convection.time.isEnd = false)
    (taken : (convection.computeOneStep mesh marks input).time.timeStep = .fin dt) :
    KeepsStep mesh marks dt input convection := by
  intro _
  rw [ConvectionTransport.computeOneStep_time] at taken
  have goesOn := ConvectionTransport.reinitData_isEnd mesh marks input convection
  rw [running] at goesOn
  have proper : (convection.reinitData mesh marks input).time.Proper := by
    apply ConvectionTransport.reinitData_proper mesh marks loop.proper
    intro _ rebuilt
    rw [ConvectionTransport.rebuilt_time mesh marks rebuilt] at taken
    by_contra none_
    obtain ⟨-, undefined⟩ := TimeGovernor.refixed_of_not_markAhead
      (mesh.cflMaxStep input.data) running loop.proper.unsteady loop.time none_
    rw [undefined] at taken
    cases taken
  rw [← ConvectionTransport.nextTime_timeStep proper goesOn]
  exact taken

end Step

/-! ## The whole loop -/

section Loop

variable {splitting start : TransportOperatorSplitting n nSubst} {tg : TimeGovernor}
  {endTime : Double} {c dt : ℚ} {steps k : ℕ}
  {inputs : ℕ → ConvectionTransport.StepInput n nSubst} {mesh} {marks}

theorem updateLoop_succ (goesOn : (updateLoop mesh marks inputs start k).goesOn = true) :
    updateLoop mesh marks inputs start (k + 1) =
      (updateLoop mesh marks inputs start k).internalStep mesh marks (inputs k) := by
  rw [updateLoop, if_pos goesOn]

theorem updateLoop_of_not_goesOn
    (ended : (updateLoop mesh marks inputs start k).goesOn = false) (j : ℕ) :
    updateLoop mesh marks inputs start (k + j) = updateLoop mesh marks inputs start k := by
  induction j with
  | zero => rfl
  | succ j ih =>
      rw [← Nat.add_assoc, updateLoop, ih, if_neg (by simp [ended])]

theorem updateLoop_keeps (mesh : TransportMesh n) (marks : TimeMarks)
    (inputs : ℕ → ConvectionTransport.StepInput n nSubst)
    (start : TransportOperatorSplitting n nSubst) (k : ℕ) :
    (updateLoop mesh marks inputs start k).time = start.time ∧
      ∀ reaction, (updateLoop mesh marks inputs start k).timeStepOf reaction =
        start.timeStepOf reaction := by
  induction k with
  | zero => exact ⟨rfl, fun _ => rfl⟩
  | succ k ih =>
      rw [updateLoop]
      split_ifs
      · exact ih
      · exact ih

theorem InLoop.zero (proper : tg.Proper) (running : tg.isEnd = false)
    (time : tg.time = .fin c) (selected : tg.estimateDt marks = .fin dt) :
    InLoop tg.endTime c dt 0 tg := by
  refine ⟨proper, ?_, rfl, ?_⟩
  · rw [Nat.cast_zero, zero_mul, add_zero]
    exact time
  · intro fixed
    rw [← selected, TimeGovernor.estimateDt_fixed running proper.unsteady fixed]

theorem InLoop.later (loop : InLoop endTime c dt k tg) {first : TimeGovernor}
    (time : first.time = .fin c) (sameEnd : first.endTime = endTime) (target : Double) :
    tg.lt target = (first.later (k * dt)).lt target ∧
      tg.isEnd = (first.later (k * dt)).isEnd := by
  have moved : tg.time = (first.later (k * dt)).time := by
    change tg.time = first.time + .fin (k * dt)
    rw [loop.time, time, Double.fin_add_fin]
  exact ⟨TimeGovernor.lt_congr moved target,
    TimeGovernor.isEnd_congr moved (loop.endTime.trans sameEnd.symm)⟩

/-- The run of the loop with the step `dt`. -/
theorem updateLoop_inLoop (nonneg : 0 ≤ c) (positive : 0 < dt)
    (first : InLoop endTime c dt 0 start.convection.time)
    (step : ∀ k < steps,
      InLoop endTime c dt k (updateLoop mesh marks inputs start k).convection.time →
        (updateLoop mesh marks inputs start k).goesOn = true ∧
          (updateLoop mesh marks inputs start k).convection.time.isEnd = false ∧
          KeepsStep mesh marks dt (inputs k)
            (updateLoop mesh marks inputs start k).convection) :
    ∀ k ≤ steps, InLoop endTime c dt k (updateLoop mesh marks inputs start k).convection.time := by
  intro k
  induction k with
  | zero =>
      intro _
      exact first
  | succ k ih =>
      intro within
      have loop := ih (Nat.le_of_succ_le within)
      obtain ⟨goesOn, running, keeps⟩ := step k within loop
      rw [updateLoop_succ goesOn]
      exact (loop.internalStep running nonneg positive keeps).1

theorem reactionTime_of_timeStep {states : ℕ → TransportOperatorSplitting n nSubst}
    {reaction : ReactionOperator}
    (same : ∀ k, (states (k + 1)).timeStepOf reaction = some (.fin dt)) (steps : ℕ) :
    reactionTime states reaction steps = .fin (steps * dt) := by
  induction steps with
  | zero =>
      rw [Nat.cast_zero, zero_mul]
      rfl
  | succ steps ih =>
      unfold reactionTime at ih ⊢
      rw [List.range_succ, List.foldl_append, ih, List.foldl_cons, List.foldl_nil, same,
        Option.getD_some, Double.fin_add_fin]
      push_cast
      congr 1
      ring

theorem updateSolution_succ
    (goesOn : (splitting.updateSolution mesh marks inputs k).goesOn = true) :
    (splitting.updateSolution mesh marks inputs (k + 1)).convection =
      (splitting.updateSolution mesh marks inputs k).convection.computeOneStep mesh
        (splitting.startUpdate marks).2 (inputs k) := by
  unfold updateSolution at goesOn ⊢
  rw [updateLoop_succ goesOn]
  rfl

theorem updateSolution_timeStepOf {reaction : ReactionOperator}
    (present : (splitting.timeStepOf reaction).isSome) (k : ℕ) :
    (splitting.updateSolution mesh marks inputs k).timeStepOf reaction =
      some ((splitting.startUpdate marks).1.convection.time.estimateDt
        (splitting.startUpdate marks).2) := by
  obtain ⟨step, some_⟩ := Option.isSome_iff_exists.mp present
  unfold updateSolution
  rw [(updateLoop_keeps mesh _ inputs _ k).2, startUpdate_timeStepOf, some_]
  rfl

end Loop

/-! ## Sufficiency -/

section Sufficiency

variable {splitting : TransportOperatorSplitting n nSubst} {dt : ℚ} {steps : ℕ}
  {inputs : ℕ → ConvectionTransport.StepInput n nSubst} {mesh} {marks}

theorem Divides.number (divides : splitting.Divides marks dt steps) :
    (splitting.startUpdate marks).1.time.time ≠ .nan := by
  obtain ⟨t, -, target⟩ := divides.target
  rw [target]
  exact Double.noConfusion

/-- With a finite mark ahead the loop starts with a proper governor. -/
theorem startUpdate_proper (number : (splitting.startUpdate marks).1.time.time ≠ .nan)
    (proper : splitting.convection.time.Proper)
    (running : splitting.convection.time.isEnd = false)
    (ahead : splitting.convection.time.MarkAhead (splitting.startUpdate marks).2) :
    (splitting.startUpdate marks).1.convection.time.Proper ∧
      (splitting.startUpdate marks).1.convection.time.isEnd = false ∧
      TransportMatrix.Rescalable
        ((splitting.startUpdate marks).1.convection.time.estimateDt
          (splitting.startUpdate marks).2) := by
  obtain ⟨time, endTime⟩ := startUpdate_keeps number
  have goesOn := (TimeGovernor.isEnd_congr time endTime).trans running
  have startProper : (splitting.startUpdate marks).1.convection.time.Proper := by
    rw [startUpdate_time number]
    exact proper.refixed _ fun _ => ahead
  refine ⟨startProper, goesOn, ?_⟩
  apply ConvectionTransport.estimateDt_rescalable startProper goesOn
  intro _
  rw [startUpdate_time number, TimeGovernor.markAhead_refixed]
  exact ahead

/-- With a finite step the loop starts with a proper governor and a positive step. -/
theorem startUpdate_inLoop (number : (splitting.startUpdate marks).1.time.time ≠ .nan)
    (proper : splitting.convection.time.Proper)
    (running : splitting.convection.time.isEnd = false)
    (selected : (splitting.startUpdate marks).1.convection.time.estimateDt
      (splitting.startUpdate marks).2 = .fin dt) :
    ∃ c, 0 ≤ c ∧ 0 < dt ∧ splitting.convection.time.time = .fin c ∧
      InLoop splitting.convection.time.endTime c dt 0
        (splitting.startUpdate marks).1.convection.time := by
  obtain ⟨c, nonneg, time⟩ := proper.finiteTime running
  obtain ⟨startTime, startEnd⟩ := startUpdate_keeps number
  have ahead : splitting.convection.time.MarkAhead (splitting.startUpdate marks).2 := by
    rw [startUpdate_time number] at selected
    exact proper.markAhead_of_refixed running selected
  obtain ⟨startProper, goesOn, rescalable⟩ := startUpdate_proper number proper running ahead
  have positive : 0 < dt := by
    obtain infinite | ⟨e, positive, finite⟩ := rescalable
    · rw [selected] at infinite
      cases infinite
    · rw [selected, Double.fin.injEq] at finite
      rwa [finite]
  refine ⟨c, nonneg, positive, time, ?_⟩
  rw [← startEnd]
  exact .zero startProper goesOn (startTime.trans time) selected

theorem Divides.run (divides : splitting.Divides marks dt steps)
    (proper : splitting.convection.time.Proper)
    (keeps : ∀ k < steps, KeepsStep mesh (splitting.startUpdate marks).2 dt (inputs k)
      (splitting.updateSolution mesh marks inputs k).convection) :
    (∀ k < steps, (splitting.updateSolution mesh marks inputs k).goesOn = true ∧
      (splitting.updateSolution mesh marks inputs (k + 1)).convection.time.timeStep =
        .fin dt) ∧
      (splitting.updateSolution mesh marks inputs steps).goesOn = false := by
  have target := fun k => (updateLoop_keeps mesh (splitting.startUpdate marks).2 inputs
    (splitting.startUpdate marks).1 k).1
  obtain none_ | some_ := Nat.eq_zero_or_pos steps
  · subst none_
    refine ⟨fun k within => absurd within (Nat.not_lt_zero k), ?_⟩
    have reached := divides.reached
    have same : (splitting.startUpdate marks).1.convection.time.time =
        (splitting.convection.time.later ((0 : ℕ) * dt)).time := by
      rw [Nat.cast_zero, zero_mul, (startUpdate_keeps divides.number).1]
      exact (Double.add_zero _).symm
    exact (TimeGovernor.lt_congr same _).trans reached
  · have running := (divides.ahead 0 some_).2
    rw [Nat.cast_zero, zero_mul] at running
    have later : splitting.convection.time.later 0 = splitting.convection.time := by
      unfold TimeGovernor.later
      rw [Double.add_zero]
    rw [later] at running
    obtain ⟨c, nonneg, positive, time, first⟩ :=
      startUpdate_inLoop divides.number proper running (divides.selected some_)
    have step : ∀ k < steps, InLoop splitting.convection.time.endTime c dt k
        (splitting.updateSolution mesh marks inputs k).convection.time →
        (splitting.updateSolution mesh marks inputs k).goesOn = true ∧
          (splitting.updateSolution mesh marks inputs k).convection.time.isEnd = false ∧
          KeepsStep mesh (splitting.startUpdate marks).2 dt (inputs k)
            (splitting.updateSolution mesh marks inputs k).convection := by
      intro k within loop
      obtain ⟨less, ended⟩ := loop.later time rfl (splitting.startUpdate marks).1.time.time
      obtain ⟨ahead, goesOn⟩ := divides.ahead k within
      refine ⟨?_, ended.trans goesOn, keeps k within⟩
      unfold TransportOperatorSplitting.goesOn updateSolution
      rw [target]
      exact less.trans ahead
    have loops := updateLoop_inLoop nonneg positive first step
    constructor
    · intro k within
      obtain ⟨goesOn, running, keep⟩ := step k within (loops k within.le)
      refine ⟨goesOn, ?_⟩
      rw [updateSolution_succ goesOn]
      exact ((loops k within.le).internalStep running nonneg positive keep).2
    · obtain ⟨less, -⟩ := (loops steps le_rfl).later time rfl
        (splitting.startUpdate marks).1.time.time
      unfold TransportOperatorSplitting.goesOn updateSolution
      rw [target]
      exact less.trans divides.reached

theorem actsOverSameTime_of_none
    (none_ : ∀ reaction, splitting.timeStepOf reaction = none) :
    ActsOverSameTime splitting (splitting.updateSolution mesh marks inputs) := by
  constructor
  · intro k _ reaction step present
    unfold updateSolution at present
    rw [(updateLoop_keeps mesh _ inputs _ _).2, startUpdate_timeStepOf, none_] at present
    cases present
  · intro reaction reacts
    rw [none_] at reacts
    cases reacts

theorem Divides.actsOverSameTime (divides : splitting.Divides marks dt steps)
    (proper : splitting.convection.time.Proper)
    (keeps : ∀ k < steps, KeepsStep mesh (splitting.startUpdate marks).2 dt (inputs k)
      (splitting.updateSolution mesh marks inputs k).convection) :
    ActsOverSameTime splitting (splitting.updateSolution mesh marks inputs) := by
  obtain ⟨taken, ended⟩ := divides.run proper keeps
  obtain ⟨t, time, target⟩ := divides.target
  constructor
  · intro k goesOn reaction step present
    have within : k < steps := by
      by_contra beyond
      obtain ⟨j, split⟩ := Nat.exists_eq_add_of_le (not_lt.mp beyond)
      unfold updateSolution at goesOn ended
      rw [split, updateLoop_of_not_goesOn ended, ended] at goesOn
      cases goesOn
    have reacts : (splitting.timeStepOf reaction).isSome := by
      unfold updateSolution at present
      rw [(updateLoop_keeps mesh _ inputs _ _).2, startUpdate_timeStepOf] at present
      cases known : splitting.timeStepOf reaction with
      | none =>
          rw [known] at present
          cases present
      | some step => rfl
    rw [updateSolution_timeStepOf reacts, divides.selected (Nat.zero_lt_of_lt within),
      Option.some.injEq] at present
    rw [(taken k within).2, present]
  · intro reaction reacts
    refine ⟨steps, fun k within => (taken k within).1, ended, ?_⟩
    have final : (splitting.updateSolution mesh marks inputs steps).time.time =
        .fin (t + steps * dt) := by
      unfold updateSolution
      rw [(updateLoop_keeps mesh _ inputs _ _).1]
      exact target
    rw [final, time, Double.fin_sub_fin, add_sub_cancel_left]
    obtain none_ | some_ := Nat.eq_zero_or_pos steps
    · subst none_
      rw [Nat.cast_zero, zero_mul]
      rfl
    · apply reactionTime_of_timeStep
      intro k
      rw [updateSolution_timeStepOf reacts, divides.selected some_]

end Sufficiency

/-! ## Necessity -/

section Necessity

variable {splitting start state : TransportOperatorSplitting n nSubst} {dt : ℚ} {steps k : ℕ}
  {inputs : ℕ → ConvectionTransport.StepInput n nSubst} {mesh} {marks}

/-- The loop can go on from such a state only without moving the time. -/
structure Stuck (state : TransportOperatorSplitting n nSubst) : Prop where
  goesOn : state.goesOn = true
  unsteady : state.convection.time.steady = false
  time : state.convection.time.isEnd = true ∨ state.convection.time.time = .nan

theorem Stuck.internalStep (stuck : Stuck state)
    (input : ConvectionTransport.StepInput n nSubst) :
    Stuck (state.internalStep mesh marks input) := by
  obtain ⟨time, endTime, steady⟩ :=
    ConvectionTransport.reinitData_keeps mesh marks input state.convection
  have next := ConvectionTransport.computeOneStep_time mesh marks input state.convection
  have unsteady := steady.trans stuck.unsteady
  cases ended : (state.convection.reinitData mesh marks input).time.isEnd with
  | true =>
      rw [TimeGovernor.nextTime_of_isEnd ended] at next
      refine ⟨?_, ?_, .inl ?_⟩
      · rw [← stuck.goesOn]
        exact TimeGovernor.lt_congr ((congrArg _ next).trans time) _
      · exact (congrArg _ next).trans unsteady
      · exact (congrArg _ next).trans ended
  | false =>
      have undefined : (state.convection.reinitData mesh marks input).time.time = .nan := by
        obtain end_ | undefined := stuck.time
        · rw [TimeGovernor.isEnd_congr time endTime, end_] at ended
          cases ended
        · exact time.trans undefined
      obtain ⟨moved, steady'⟩ := TimeGovernor.nextTime_time marks ended unsteady
      rw [undefined, Double.nan_add, ← next] at moved
      rw [← next] at steady'
      exact ⟨TimeGovernor.lt_of_nan moved _, steady', .inr moved⟩

theorem Stuck.goesOn_later (stuck : Stuck (updateLoop mesh marks inputs start k)) (j : ℕ) :
    (updateLoop mesh marks inputs start (k + j)).goesOn = true := by
  have later : Stuck (updateLoop mesh marks inputs start (k + j)) := by
    induction j with
    | zero => exact stuck
    | succ j ih =>
        rw [← Nat.add_assoc, updateLoop_succ ih.goesOn]
        exact ih.internalStep _
  exact later.goesOn

theorem not_stuck (ended : (updateLoop mesh marks inputs start steps).goesOn = false)
    (within : k ≤ steps) : ¬Stuck (updateLoop mesh marks inputs start k) := by
  intro stuck
  obtain ⟨j, split⟩ := Nat.exists_eq_add_of_le within
  rw [split, stuck.goesOn_later j] at ended
  cases ended

theorem running_of_goesOn (ended : (updateLoop mesh marks inputs start steps).goesOn = false)
    (within : k ≤ steps) (goesOn : (updateLoop mesh marks inputs start k).goesOn = true)
    (unsteady : (updateLoop mesh marks inputs start k).convection.time.steady = false) :
    (updateLoop mesh marks inputs start k).convection.time.isEnd = false := by
  rw [Bool.eq_false_iff]
  intro end_
  exact not_stuck ended within ⟨goesOn, unsteady, .inl end_⟩

theorem computeOneStep_moves {convection : ConvectionTransport n nSubst}
    (input : ConvectionTransport.StepInput n nSubst)
    (running : convection.time.isEnd = false) (unsteady : convection.time.steady = false) :
    (convection.computeOneStep mesh marks input).time.time =
        convection.time.time + (convection.computeOneStep mesh marks input).time.timeStep ∧
      (convection.computeOneStep mesh marks input).time.steady = false := by
  obtain ⟨time, endTime, steady⟩ :=
    ConvectionTransport.reinitData_keeps mesh marks input convection
  rw [ConvectionTransport.computeOneStep_time, ← time]
  apply TimeGovernor.nextTime_time
  · exact (TimeGovernor.isEnd_congr time endTime).trans running
  · exact steady.trans unsteady

theorem updateSolution_one (number : (splitting.startUpdate marks).1.time.time ≠ .nan)
    (unsteady : splitting.convection.time.steady = false)
    (goesOn : (splitting.updateSolution mesh marks inputs 0).goesOn = true)
    (running : splitting.convection.time.isEnd = false) :
    (splitting.updateSolution mesh marks inputs 1).convection.time.time =
        splitting.convection.time.time +
          (splitting.updateSolution mesh marks inputs 1).convection.time.timeStep ∧
      (splitting.updateSolution mesh marks inputs 1).convection.time.steady = false := by
  obtain ⟨time, endTime⟩ := startUpdate_keeps number
  have steady : (splitting.startUpdate marks).1.convection.time.steady = false := by
    rw [startUpdate_time number, TimeGovernor.refixed_steady]
    exact unsteady
  rw [updateSolution_succ goesOn, ← time]
  exact computeOneStep_moves (inputs 0)
    ((TimeGovernor.isEnd_congr time endTime).trans running) steady

/-- The reactions cannot act over an infinite step: no update over one ends with a time
difference that is infinite. -/
theorem not_total_of_posInf {reaction : ReactionOperator}
    (valid : splitting.time.Valid) (reacts : (splitting.timeStepOf reaction).isSome)
    (infinite : (splitting.startUpdate marks).1.convection.time.estimateDt
      (splitting.startUpdate marks).2 = .posInf)
    (reached : (splitting.updateSolution mesh marks inputs 1).convection.time.time = .posInf)
    (ended : (splitting.updateSolution mesh marks inputs 1).goesOn = false) :
    reactionTime (splitting.updateSolution mesh marks inputs) reaction 1 ≠
      (splitting.updateSolution mesh marks inputs 1).time.time - splitting.time.time := by
  have acted : reactionTime (splitting.updateSolution mesh marks inputs) reaction 1 =
      .posInf := by
    unfold reactionTime
    rw [List.range_one, List.foldl_cons, List.foldl_nil, updateSolution_timeStepOf reacts,
      infinite]
    rfl
  rw [acted]
  unfold TransportOperatorSplitting.goesOn at ended
  cases target : (splitting.updateSolution mesh marks inputs 1).time.time with
  | nan =>
      rw [target, TimeGovernor.lt_nan] at ended
      cases ended
  | posInf =>
      rw [target, TimeGovernor.lt_posInf_of_posInf reached] at ended
      cases ended
  | negInf =>
      obtain infinite | ⟨t, finite⟩ := valid.time
      · rw [infinite]
        exact Double.noConfusion
      · rw [finite]
        exact Double.noConfusion
  | fin m =>
      obtain infinite | ⟨t, finite⟩ := valid.time
      · rw [infinite]
        exact Double.noConfusion
      · rw [finite]
        exact Double.noConfusion

/-- Without a finite mark ahead the loop does not end. -/
theorem markAhead_of_ended (number : (splitting.startUpdate marks).1.time.time ≠ .nan)
    (proper : splitting.convection.time.Proper)
    (running : splitting.convection.time.isEnd = false)
    (goesOn : (splitting.updateSolution mesh marks inputs 0).goesOn = true)
    (taken : (splitting.updateSolution mesh marks inputs 1).convection.time.timeStep =
      (splitting.startUpdate marks).1.convection.time.estimateDt
        (splitting.startUpdate marks).2)
    (ended : (splitting.updateSolution mesh marks inputs (steps + 1)).goesOn = false) :
    splitting.convection.time.MarkAhead (splitting.startUpdate marks).2 := by
  obtain ⟨c, -, time⟩ := proper.finiteTime running
  obtain ⟨moved, unsteady⟩ := updateSolution_one number proper.unsteady goesOn running
  by_contra none_
  have undefined := (TimeGovernor.refixed_of_not_markAhead splitting.convection.cflMaxStep
    running proper.unsteady time none_).1
  rw [← startUpdate_time number, ← taken] at undefined
  rw [undefined, time] at moved
  exact not_stuck ended (Nat.succ_le_succ (Nat.zero_le steps))
    ⟨TimeGovernor.lt_of_nan moved _, unsteady, .inr moved⟩

/-- In a loop that ends after some steps the reactions act over a finite step. -/
theorem ActsOverSameTime.estimateDt_finite {reaction : ReactionOperator}
    (acts : ActsOverSameTime splitting (splitting.updateSolution mesh marks inputs))
    (valid : splitting.time.Valid) (proper : splitting.convection.time.Proper)
    (reacts : (splitting.timeStepOf reaction).isSome)
    (number : (splitting.startUpdate marks).1.time.time ≠ .nan)
    (running : splitting.convection.time.isEnd = false)
    (goesOn : ∀ k < steps + 1, (splitting.updateSolution mesh marks inputs k).goesOn = true)
    (ended : (splitting.updateSolution mesh marks inputs (steps + 1)).goesOn = false)
    (total : reactionTime (splitting.updateSolution mesh marks inputs) reaction (steps + 1) =
      (splitting.updateSolution mesh marks inputs (steps + 1)).time.time -
        splitting.time.time) :
    ∃ dt, (splitting.startUpdate marks).1.convection.time.estimateDt
      (splitting.startUpdate marks).2 = .fin dt := by
  have first := goesOn 0 (Nat.succ_pos steps)
  have taken := acts.each 0 first reaction _ (updateSolution_timeStepOf reacts 1)
  have ahead := markAhead_of_ended number proper running first taken.symm ended
  obtain ⟨moved, unsteady⟩ := updateSolution_one number proper.unsteady first running
  obtain ⟨c, -, time⟩ := proper.finiteTime running
  obtain ⟨-, -, rescalable⟩ := startUpdate_proper number proper running ahead
  obtain infinite | ⟨dt, -, finite⟩ := rescalable
  · rw [← taken, infinite, time] at moved
    have last : (splitting.updateSolution mesh marks inputs 1).goesOn = false := by
      rw [Bool.eq_false_iff]
      intro further
      exact not_stuck ended (Nat.succ_le_succ (Nat.zero_le steps))
        ⟨further, unsteady, .inl (TimeGovernor.isEnd_of_posInf moved)⟩
    cases steps with
    | zero => exact absurd total (not_total_of_posInf valid reacts infinite moved last)
    | succ steps =>
        rw [goesOn 1 (Nat.succ_lt_succ (Nat.succ_pos steps))] at last
        cases last
  · exact ⟨dt, finite⟩

theorem ActsOverSameTime.keepsStep {reaction : ReactionOperator} {endTime : Double} {c : ℚ}
    (acts : ActsOverSameTime splitting (splitting.updateSolution mesh marks inputs))
    (reacts : (splitting.timeStepOf reaction).isSome)
    (finite : (splitting.startUpdate marks).1.convection.time.estimateDt
      (splitting.startUpdate marks).2 = .fin dt)
    (goesOn : ∀ k < steps, (splitting.updateSolution mesh marks inputs k).goesOn = true)
    (ended : (splitting.updateSolution mesh marks inputs steps).goesOn = false)
    (within : k < steps)
    (loop : InLoop endTime c dt k
      (splitting.updateSolution mesh marks inputs k).convection.time) :
    (splitting.updateSolution mesh marks inputs k).goesOn = true ∧
      (splitting.updateSolution mesh marks inputs k).convection.time.isEnd = false ∧
      KeepsStep mesh (splitting.startUpdate marks).2 dt (inputs k)
        (splitting.updateSolution mesh marks inputs k).convection := by
  have further := goesOn k within
  have running := running_of_goesOn ended within.le further loop.proper.unsteady
  have taken := acts.each k further reaction _ (updateSolution_timeStepOf reacts (k + 1))
  rw [finite, updateSolution_succ further] at taken
  exact ⟨further, running, loop.keepsStep running taken.symm⟩

theorem divides_zero {reaction : ReactionOperator}
    (number : (splitting.startUpdate marks).1.time.time ≠ .nan)
    (ended : (splitting.updateSolution mesh marks inputs 0).goesOn = false)
    (total : reactionTime (splitting.updateSolution mesh marks inputs) reaction 0 =
      (splitting.updateSolution mesh marks inputs 0).time.time - splitting.time.time) :
    splitting.Divides marks 0 0 := by
  obtain ⟨m, t, reached, time, difference⟩ := Double.sub_eq_fin total.symm
  refine ⟨⟨t, time, ?_⟩, ?_, ?_, ?_⟩
  · rw [mul_zero, add_zero, ← sub_eq_zero.mp difference]
    exact reached
  · intro impossible
    cases impossible
  · intro k within
    cases within
  · rw [← ended, mul_zero]
    apply TimeGovernor.lt_congr
    exact (Double.add_zero _).trans (startUpdate_keeps number).1.symm

/-- The steps of a loop that ends are whole steps to the next time. -/
theorem divides_of_inLoop {reaction : ReactionOperator} {c : ℚ}
    (reacts : (splitting.timeStepOf reaction).isSome)
    (finite : (splitting.startUpdate marks).1.convection.time.estimateDt
      (splitting.startUpdate marks).2 = .fin dt)
    (time : splitting.convection.time.time = .fin c)
    (running : ∀ k < steps, (splitting.updateSolution mesh marks inputs k).goesOn = true ∧
      (splitting.updateSolution mesh marks inputs k).convection.time.isEnd = false)
    (ended : (splitting.updateSolution mesh marks inputs steps).goesOn = false)
    (total : reactionTime (splitting.updateSolution mesh marks inputs) reaction steps =
      (splitting.updateSolution mesh marks inputs steps).time.time - splitting.time.time)
    (loops : ∀ k ≤ steps, InLoop splitting.convection.time.endTime c dt k
      (splitting.updateSolution mesh marks inputs k).convection.time) :
    splitting.Divides marks dt steps := by
  have target := fun k => (updateLoop_keeps mesh (splitting.startUpdate marks).2 inputs
    (splitting.startUpdate marks).1 k).1
  have acted : reactionTime (splitting.updateSolution mesh marks inputs) reaction steps =
      .fin (steps * dt) :=
    reactionTime_of_timeStep (fun k => by rw [updateSolution_timeStepOf reacts, finite]) _
  rw [acted] at total
  obtain ⟨m, t, reached, started, difference⟩ := Double.sub_eq_fin total.symm
  have nextTime : (splitting.startUpdate marks).1.time.time = .fin m :=
    (congrArg _ (target steps)).symm.trans reached
  refine ⟨⟨t, started, ?_⟩, fun _ => finite, ?_, ?_⟩
  · rw [nextTime, ← difference]
    congr 1
    ring
  · intro k within
    obtain ⟨less, end_⟩ := (loops k within.le).later time rfl
      (splitting.startUpdate marks).1.time.time
    obtain ⟨further, goesOn⟩ := running k within
    refine ⟨?_, end_.symm.trans goesOn⟩
    rw [← less, ← target k]
    exact further
  · obtain ⟨less, -⟩ := (loops steps le_rfl).later time rfl
      (splitting.startUpdate marks).1.time.time
    rw [← less, ← target steps]
    exact ended

theorem ActsOverSameTime.keepsOneStep {reaction : ReactionOperator}
    (acts : ActsOverSameTime splitting (splitting.updateSolution mesh marks inputs))
    (valid : splitting.time.Valid) (proper : splitting.convection.time.Proper)
    (reacts : (splitting.timeStepOf reaction).isSome) :
    KeepsOneStep mesh marks inputs splitting := by
  obtain ⟨steps, goesOn, ended, total⟩ := acts.total reaction reacts
  have number : (splitting.startUpdate marks).1.time.time ≠ .nan := by
    intro undefined
    unfold TransportOperatorSplitting.goesOn updateSolution at ended
    rw [(updateLoop_keeps mesh _ inputs _ _).1, undefined, TimeGovernor.lt_nan] at ended
    cases ended
  cases steps with
  | zero => exact .inr ⟨0, 0, divides_zero number ended total, by simp⟩
  | succ last =>
      obtain ⟨startTime, startEnd⟩ := startUpdate_keeps number
      have unsteady : (splitting.startUpdate marks).1.convection.time.steady = false := by
        rw [startUpdate_time number, TimeGovernor.refixed_steady]
        exact proper.unsteady
      have running : splitting.convection.time.isEnd = false := by
        have running := running_of_goesOn ended (Nat.zero_le (last + 1))
          (goesOn 0 last.succ_pos) unsteady
        exact (TimeGovernor.isEnd_congr startTime startEnd).symm.trans running
      obtain ⟨dt, finite⟩ :=
        acts.estimateDt_finite valid proper reacts number running goesOn ended total
      obtain ⟨c, nonneg, positive, time, first⟩ :=
        startUpdate_inLoop number proper running finite
      have loops := updateLoop_inLoop nonneg positive first fun k within =>
        acts.keepsStep reacts finite goesOn ended within
      have step := fun k within =>
        acts.keepsStep reacts finite goesOn ended within (loops k (Nat.le_of_lt within))
      refine .inr ⟨dt, last + 1, ?_, fun k within => (step k within).2.2⟩
      exact divides_of_inLoop reacts finite time
        (fun k within => ⟨goesOn k within, (step k within).2.1⟩) ended total loops

end Necessity

/-- The reactions act over the same times as the convection exactly when it keeps one
step that divides the update. -/
theorem updateSolution_actsOverSameTime_iff (mesh : TransportMesh n) (marks : TimeMarks)
    (inputs : ℕ → ConvectionTransport.StepInput n nSubst)
    (splitting : TransportOperatorSplitting n nSubst) (time : splitting.time.Started)
    (convection : splitting.convection.time.Started)
    (unsteady : splitting.convection.time.steady = false) :
    ActsOverSameTime splitting (splitting.updateSolution mesh marks inputs) ↔
      KeepsOneStep mesh marks inputs splitting := by
  have proper := convection.valid.proper unsteady
  constructor
  · intro acts
    by_cases present : ∃ reaction, (splitting.timeStepOf reaction).isSome
    · obtain ⟨reaction, reacts⟩ := present
      exact acts.keepsOneStep time.valid proper reacts
    · refine .inl fun reaction => ?_
      rw [← Option.not_isSome_iff_eq_none]
      exact fun reacts => present ⟨reaction, reacts⟩
  · intro keeps
    obtain none_ | ⟨dt, steps, divides, kept⟩ := keeps
    · exact actsOverSameTime_of_none none_
    · exact divides.actsOverSameTime proper kept

/-! ## Examples -/

def decaying (convection : ConvectionTransport 1 1) : TransportOperatorSplitting 1 1 where
  time := (TimeGovernor.tenUnits (some 2) none).governor 1
  convection := convection
  decayRad := some (.fin 0)
  semchemReactions := none

/-- The convection with the matrix of the unit flow, whose steps are at most 1. -/
def assembledConvection : ConvectionTransport 1 1 :=
  ConvectionTransport.createTransportMatrixMpi ConvectionTransport.oneElement
    ConvectionTransport.unitFlow ConvectionTransport.unitConvection

def decayRun (convection : ConvectionTransport 1 1) : ℕ → TransportOperatorSplitting 1 1 :=
  (decaying convection).updateSolution ConvectionTransport.oneElement
    (TimeGovernor.tenUnitsMarks 10) fun _ => ConvectionTransport.unitInput false

theorem tenUnits_started (initDt : Option ℚ) (init : initDt.any (· ≤ 0) = false)
    (min : ¬(TimeGovernor.tenUnits initDt none).minTimeStep ≤ 0)
    (max : ¬(TimeGovernor.tenUnits initDt none).maxTimeStep <
      (TimeGovernor.tenUnits initDt none).minTimeStep) :
    ((TimeGovernor.tenUnits initDt none).governor 1).Started :=
  .unsteady (TimeGovernor.create_tenUnits 1 initDt none rfl init min max).choose_spec

/-- An assembled matrix gives two steps of 1, which the decay makes as well. -/
theorem updateSolution_actsOverSameTime_two_steps :
    ActsOverSameTime (decaying assembledConvection) (decayRun assembledConvection) := by
  refine (updateSolution_actsOverSameTime_iff _ _ _ _
    (tenUnits_started (some 2) (by decide +kernel) (by decide +kernel) (by decide +kernel))
    (tenUnits_started none (by decide +kernel) (by decide +kernel) (by decide +kernel))
    rfl).mpr (.inr ⟨1, 2, ?_, ?_⟩)
  · exact ⟨⟨0, rfl, by decide +kernel⟩, fun _ => by decide +kernel, by decide +kernel,
      by decide +kernel⟩
  · intro k within
    have kept : ∀ k < 2,
        (decayRun assembledConvection k).convection.rebuilds
            (ConvectionTransport.unitInput false) = false ∧
          (decayRun assembledConvection k).convection.time.lt
            (decayRun assembledConvection k).convection.time.endOfFixedDtInterval = true := by
      decide +kernel
    obtain ⟨assembled, fixed⟩ := kept k within
    intro selects
    obtain rebuilt | free := selects
    · exact absurd (assembled.symm.trans rebuilt) Bool.false_ne_true
    · exact absurd (free.symm.trans fixed) Bool.false_ne_true

/-- The first assembly shortens the step of the convection behind the decay. -/
theorem not_always_actsOverSameTime :
    ¬∀ (n nSubst : ℕ) (mesh : TransportMesh n) (marks : TimeMarks)
      (inputs : ℕ → ConvectionTransport.StepInput n nSubst)
      (splitting : TransportOperatorSplitting n nSubst), splitting.time.Started →
      splitting.convection.time.Started → splitting.convection.time.steady = false →
      ActsOverSameTime splitting (splitting.updateSolution mesh marks inputs) := by
  intro always
  have acts := always 1 1 ConvectionTransport.oneElement (TimeGovernor.tenUnitsMarks 10)
    (fun _ => ConvectionTransport.unitInput false)
    (decaying ConvectionTransport.unitConvection)
    (tenUnits_started (some 2) (by decide +kernel) (by decide +kernel) (by decide +kernel))
    (tenUnits_started none (by decide +kernel) (by decide +kernel) (by decide +kernel)) rfl
  have same := acts.each 0 (by decide +kernel) .decayRad (.fin 2) (by decide +kernel)
  revert same
  decide +kernel

end TransportOperatorSplitting

end Flow123d
