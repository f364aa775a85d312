import Flow123d.Transport.ConvectionScaling

/-!
# The step limit of the transport matrix

The limit is passed on to the time governor as an upper constraint, which the governor
refuses if it is less than the lower one, and forgets with every step. A step that is
selected keeps the limit if there are enough steps on the way to the next fixed mark.
-/

set_option autoImplicit false

namespace Flow123d

open Flow123d.Library

namespace TimeGovernor

variable {marks : TimeMarks} {tg : TimeGovernor} {limit upper : Double}

/-- The steps selected on the way `d` with the wanted length `s` are within the limit. -/
def Suffices (limit : Double) (d s : ℚ) : Prop :=
  limit = .posInf ∨ ∃ c : ℚ, limit = .fin c ∧ d ≤ stepCount d s * c

def EnoughSteps (limit : Double) (marks : TimeMarks) (tg : TimeGovernor) : Prop :=
  ∃ t m s, SoundStep marks tg t m s ∧ Suffices limit (m - t) s

/-- The step of a fixed interval is within the limit. -/
def FixedWithin (limit : Double) (tg : TimeGovernor) : Prop :=
  tg.isEnd = false → tg.lt tg.endOfFixedDtInterval = true → tg.fixedDt ≤ limit

theorem EnoughSteps.markAhead (enough : EnoughSteps limit marks tg) : MarkAhead marks tg := by
  obtain ⟨t, m, s, sound, -⟩ := enough
  exact sound.markAhead

theorem EnoughSteps.estimateDt_le (enough : EnoughSteps limit marks tg) (proper : Proper tg)
    (running : tg.isEnd = false) (free : tg.lt tg.endOfFixedDtInterval = false) :
    tg.estimateDt marks ≤ limit := by
  obtain ⟨t, m, s, sound, suffices_⟩ := enough
  have positive := sound.positive proper.lowerPositive (proper.upperPositive running)
  rw [estimateDt_sound running proper.unsteady free sound.time sound.mark sound.wanted positive
    sound.coarse]
  obtain infinite | ⟨c, finite, many⟩ := suffices_
  · rw [infinite]
    exact Double.fin_le_posInf _
  · have counted : (0 : ℚ) < stepCount (m - t) s := by
      exact_mod_cast stepCount_pos positive sound.coarse
    rw [finite, Double.fin_le_fin, div_le_iff₀ counted, mul_comm]
    exact many

theorem EnoughSteps.release (enough : EnoughSteps limit marks tg) :
    EnoughSteps limit marks tg.release := by
  obtain ⟨t, m, s, sound, suffices_⟩ := enough
  exact ⟨t, m, s, ⟨sound.time, sound.mark, sound.wanted, sound.coarse⟩, suffices_⟩

theorem refixed_fixedDt (unsteady : tg.steady = false) :
    (tg.refixed marks upper).fixedDt =
      (tg.setUpperConstraint upper).1.release.estimateDt marks := by
  have steady : (tg.setUpperConstraint upper).1.steady = false := by
    unfold setUpperConstraint
    split_ifs <;> exact unsteady
  unfold refixed fixDtUntilMark
  rw [if_neg (by simp [steady])]

theorem refixed_fixed {t : ℚ} (unsteady : tg.steady = false) (time : tg.time = .fin t) :
    (tg.refixed marks upper).lt (tg.refixed marks upper).endOfFixedDtInterval = true := by
  obtain ⟨time', -, -⟩ := setUpperConstraint_time tg upper
  have steady : (tg.setUpperConstraint upper).1.steady = false := by
    unfold setUpperConstraint
    split_ifs <;> exact unsteady
  have next := lt_next marks (tg.setUpperConstraint upper).1.fixedTimeMarkMask
    (time'.trans time)
  unfold refixed fixDtUntilMark
  rw [if_neg (by simp [steady])]
  exact next

/-- A fixation under the limit fixes a step within it. -/
theorem refixed_fixedWithin (proper : Proper tg)
    (enough : tg.isEnd = false → EnoughSteps limit marks (tg.setUpperConstraint upper).1) :
    FixedWithin limit (tg.refixed marks upper) := by
  intro running _
  rw [refixed_isEnd] at running
  have constrained := proper.setUpperConstraint upper
  obtain ⟨t, -, time⟩ := proper.finiteTime running
  obtain ⟨time', endTime, -⟩ := setUpperConstraint_time tg upper
  rw [refixed_fixedDt proper.unsteady]
  exact (enough running).release.estimateDt_le constrained.release
    ((isEnd_congr time' endTime).trans running) (not_lt_negInf (time'.trans time))

theorem FixedWithin.nextTime (within : FixedWithin limit tg) (proper : Proper tg)
    (ahead : tg.isEnd = false → tg.lt tg.endOfFixedDtInterval = false → MarkAhead marks tg) :
    FixedWithin limit (tg.nextTime marks) := by
  cases running : tg.isEnd with
  | true =>
      rw [nextTime_of_isEnd running]
      exact within
  | false =>
      have stepped := proper.nextTime fun ⟨_, free⟩ => ahead running free
      obtain ⟨t, target, aims, -⟩ := proper.estimateDt_aims running (ahead running)
      obtain ⟨dtFixedNow, dtChanged, next⟩ := proper.nextTime_eq running
      rw [next] at stepped ⊢
      intro goesOn stays
      obtain ⟨t', -, time⟩ := stepped.finiteTime goesOn
      have later := (aims.lt_of_stepped time).le
      exact within running (lt_of_later aims.time time aims.nonneg later stays)

end TimeGovernor

namespace ConvectionTransport

variable {n nSubst : ℕ} {mesh : TransportMesh n}

/-- The convection and the data of the last assembly of its matrix. -/
structure Assembled (n nSubst : ℕ) where
  convection : ConvectionTransport n nSubst
  data : Option (TransportData n nSubst)

def Assembled.request (mesh : TransportMesh n) (state : Assembled n nSubst) :
    Request n nSubst → Assembled n nSubst
  | .setTargetTime marks targetTime isTime =>
      { state with convection := (state.convection.setTargetTime marks targetTime isTime).1 }
  | .computeOneStep marks input =>
      { convection := state.convection.computeOneStep mesh marks input
        data := if state.convection.rebuilds input then some input.data else state.data }

/-- Before the end a step is taken that is within the limit of the matrix in use. -/
def StepWithinCfl (mesh : TransportMesh n) (state : Assembled n nSubst) :
    Request n nSubst → Prop
  | .setTargetTime _ _ _ => True
  | .computeOneStep marks input => state.convection.time.isEnd = false →
      ∀ data, (state.request mesh (.computeOneStep marks input)).data = some data →
        (state.convection.computeOneStep mesh marks input).time.timeStep ≤
          mesh.cflMaxStep data

/-- A step selected for the data in use. Before the first assembly there is no limit. -/
def Selectable (mesh : TransportMesh n) (data : Option (TransportData n nSubst))
    (marks : TimeMarks) (tg : TimeGovernor) : Prop :=
  tg.MarkAhead marks ∧ ∀ data_, data = some data_ →
    TimeGovernor.EnoughSteps (mesh.cflMaxStep data_) marks tg

/-- The condition on a call in the state before it: wherever a step is selected, by a
fixation or without one, there are enough steps on the way to the next fixed mark. -/
def CflSound (mesh : TransportMesh n) (state : Assembled n nSubst) :
    Request n nSubst → Prop
  | .setTargetTime marks targetTime isTime => state.convection.time.isEnd = false →
      Selectable mesh state.data
        (marks.add ⟨targetTime, state.convection.targetMarkType, isTime⟩)
        (state.convection.time.setUpperConstraint state.convection.cflMaxStep).1
  | .computeOneStep marks input => state.convection.time.isEnd = false →
      if state.convection.rebuilds input then
        Selectable mesh (some input.data) marks
          (state.convection.time.setUpperConstraint (mesh.cflMaxStep input.data)).1
      else state.convection.time.lt state.convection.time.endOfFixedDtInterval = false →
        Selectable mesh state.data marks state.convection.time

structure CflKept (mesh : TransportMesh n) (state : Assembled n nSubst) : Prop where
  proper : state.convection.time.Proper
  limit : ∀ data, state.data = some data →
    state.convection.cflMaxStep = mesh.cflMaxStep data
  fixed : ∀ data, state.data = some data →
    TimeGovernor.FixedWithin (mesh.cflMaxStep data) state.convection.time

theorem markAhead_constrained {marks : TimeMarks} {tg : TimeGovernor} {upper : Double}
    (ahead : (tg.setUpperConstraint upper).1.MarkAhead marks) : tg.MarkAhead marks := by
  obtain ⟨time, -, mask⟩ := TimeGovernor.setUpperConstraint_time tg upper
  exact (TimeGovernor.markAhead_congr time mask).mp ahead

namespace CflKept

variable {state : Assembled n nSubst} {marks : TimeMarks} {input : StepInput n nSubst}

theorem setTargetTime (kept : CflKept mesh state) {targetTime : Double}
    (isTime : targetTime ≠ .nan)
    (sound : CflSound mesh state (.setTargetTime marks targetTime isTime)) :
    CflKept mesh (state.request mesh (.setTargetTime marks targetTime isTime)) where
  proper := kept.proper.refixed _ fun running => markAhead_constrained (sound running).1
  limit := kept.limit
  fixed := fun data assembled =>
    TimeGovernor.refixed_fixedWithin kept.proper fun running =>
      (sound running).2 data assembled

/-- What holds of the governor between the update of the data and the advance. -/
theorem reinitData (kept : CflKept mesh state)
    (sound : CflSound mesh state (.computeOneStep marks input)) :
    (state.convection.reinitData mesh marks input).time.Proper ∧
      ∀ data, (state.request mesh (.computeOneStep marks input)).data = some data →
        (state.convection.reinitData mesh marks input).cflMaxStep = mesh.cflMaxStep data ∧
        TimeGovernor.FixedWithin (mesh.cflMaxStep data)
          (state.convection.reinitData mesh marks input).time := by
  cases rebuilt : state.convection.rebuilds input with
  | true =>
      have sound_ := fun running => (if_pos rebuilt).mp (sound running)
      constructor
      · exact reinitData_proper mesh marks kept.proper fun running _ =>
          markAhead_constrained (sound_ running).1
      · intro data assembled
        have same : some input.data = some data := (if_pos rebuilt).symm.trans assembled
        cases same
        rw [rebuilt_time mesh marks rebuilt, reinitData_rebuilds mesh marks rebuilt]
        exact ⟨rfl, TimeGovernor.refixed_fixedWithin kept.proper fun running =>
          (sound_ running).2 _ rfl⟩
  | false =>
      have time := reinitData_time mesh marks rebuilt
      rw [time]
      refine ⟨kept.proper, fun data assembled => ?_⟩
      have same : state.data = some data :=
        (if_neg (by simp [rebuilt])).symm.trans assembled
      refine ⟨?_, kept.fixed data same⟩
      rw [← kept.limit data same]
      unfold ConvectionTransport.reinitData
      rw [if_neg (by simp [rebuilt])]
      split_ifs <;> rfl

/-- A step that is not fixed is selected for the matrix in use. -/
theorem selectable (kept : CflKept mesh state)
    (sound : CflSound mesh state (.computeOneStep marks input))
    (running : state.convection.time.isEnd = false)
    (free : (state.convection.reinitData mesh marks input).time.lt
      (state.convection.reinitData mesh marks input).time.endOfFixedDtInterval = false) :
    Selectable mesh (state.request mesh (.computeOneStep marks input)).data marks
      (state.convection.reinitData mesh marks input).time := by
  cases rebuilt : state.convection.rebuilds input with
  | true =>
      obtain ⟨t, -, time⟩ := kept.proper.finiteTime running
      rw [rebuilt_time mesh marks rebuilt,
        TimeGovernor.refixed_fixed kept.proper.unsteady time] at free
      cases free
  | false =>
      have sound_ := (if_neg (by simp [rebuilt])).mp (sound running)
      have same : (state.request mesh (.computeOneStep marks input)).data = state.data :=
        if_neg (by simp [rebuilt])
      rw [reinitData_time mesh marks rebuilt] at free ⊢
      rw [same]
      exact sound_ free

theorem computeOneStep (kept : CflKept mesh state)
    (sound : CflSound mesh state (.computeOneStep marks input)) :
    CflKept mesh (state.request mesh (.computeOneStep marks input)) := by
  obtain ⟨proper, within⟩ := kept.reinitData sound
  have time := computeOneStep_time mesh marks input state.convection
  have ahead : (state.convection.reinitData mesh marks input).time.isEnd = false →
      (state.convection.reinitData mesh marks input).time.lt
        (state.convection.reinitData mesh marks input).time.endOfFixedDtInterval = false →
      (state.convection.reinitData mesh marks input).time.MarkAhead marks := by
    intro running free
    rw [reinitData_isEnd] at running
    exact (kept.selectable sound running free).1
  refine ⟨?_, ?_, ?_⟩
  · change (state.convection.computeOneStep mesh marks input).time.Proper
    rw [time]
    exact proper.nextTime fun ⟨running, free⟩ => ahead running free
  · intro data assembled
    obtain ⟨limit, -⟩ := within data assembled
    rw [← limit]
    change ((state.convection.reinitData mesh marks input).rescale marks).cflMaxStep = _
    unfold rescale
    split_ifs <;> rfl
  · intro data assembled
    obtain ⟨-, fixed⟩ := within data assembled
    change TimeGovernor.FixedWithin _
      (state.convection.computeOneStep mesh marks input).time
    rw [time]
    exact fixed.nextTime proper ahead

theorem stepWithinCfl (kept : CflKept mesh state) (request : Request n nSubst)
    (sound : CflSound mesh state request) : StepWithinCfl mesh state request := by
  cases request with
  | setTargetTime marks targetTime isTime => trivial
  | computeOneStep marks input =>
      intro running data assembled
      obtain ⟨proper, within⟩ := kept.reinitData sound
      obtain ⟨-, fixed⟩ := within data assembled
      have running_ := (reinitData_isEnd mesh marks input state.convection).trans running
      rw [computeOneStep_time, nextTime_timeStep proper running_]
      cases free : (state.convection.reinitData mesh marks input).time.lt
          (state.convection.reinitData mesh marks input).time.endOfFixedDtInterval with
      | true =>
          rw [TimeGovernor.estimateDt_fixed running_ proper.unsteady free]
          exact fixed running_ free
      | false =>
          exact ((kept.selectable sound running free).2 data assembled).estimateDt_le proper
            running_ free

theorem request (kept : CflKept mesh state) (request : Request n nSubst)
    (sound : CflSound mesh state request) : CflKept mesh (state.request mesh request) := by
  cases request with
  | setTargetTime marks targetTime isTime => exact kept.setTargetTime isTime sound
  | computeOneStep marks input => exact kept.computeOneStep sound

end CflKept

end ConvectionTransport

end Flow123d
