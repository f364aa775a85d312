import Flow123d.Transport.ConvectionScaling

/-!
# Operator splitting

The update of transport with reactions: the reactions receive their time step once, and
the convection then takes as many of its own steps as the target time needs. Sorptions
keep no time step.
-/

set_option autoImplicit false

namespace Flow123d

open Flow123d.Library

def TimeGovernor.later (tg : TimeGovernor) (elapsed : ℚ) : TimeGovernor :=
  { tg with time := tg.time + .fin elapsed }

structure TransportOperatorSplitting (n nSubst : ℕ) where
  time : TimeGovernor
  convection : ConvectionTransport n nSubst
  decayRad : Option Double
  semchemReactions : Option Double

namespace TransportOperatorSplitting

variable {n nSubst : ℕ} (mesh : TransportMesh n) (marks : TimeMarks)

/-- `set_time_step` of every reaction operator. -/
def setTimeStep (newTimestep : Double) (splitting : TransportOperatorSplitting n nSubst) :
    TransportOperatorSplitting n nSubst :=
  { splitting with
    decayRad := splitting.decayRad.map fun _ => newTimestep
    semchemReactions := splitting.semchemReactions.map fun _ => newTimestep }

/-- The next time is the target of the convection. A target that is not a number
cannot be marked. -/
def setTargetTime (splitting : TransportOperatorSplitting n nSubst) :
    TransportOperatorSplitting n nSubst × TimeMarks :=
  let time := splitting.time.nextTime marks
  if isTime : time.time ≠ .nan then
    let target := splitting.convection.setTargetTime marks time.time isTime
    ({ splitting with time := time, convection := target.1 }, target.2)
  else ({ splitting with time := time }, marks)

def startUpdate (splitting : TransportOperatorSplitting n nSubst) :
    TransportOperatorSplitting n nSubst × TimeMarks :=
  let (target, marks) := splitting.setTargetTime marks
  (target.setTimeStep (target.convection.time.estimateDt marks), marks)

def goesOn (splitting : TransportOperatorSplitting n nSubst) : Bool :=
  splitting.convection.time.lt splitting.time.time

/-- One internal step; the reactions then act over their own time steps. -/
def internalStep (input : ConvectionTransport.StepInput n nSubst)
    (splitting : TransportOperatorSplitting n nSubst) : TransportOperatorSplitting n nSubst :=
  { splitting with convection := splitting.convection.computeOneStep mesh marks input }

/-- The state before internal step `k`, or at the end of the loop. -/
def updateLoop (inputs : ℕ → ConvectionTransport.StepInput n nSubst)
    (start : TransportOperatorSplitting n nSubst) : ℕ → TransportOperatorSplitting n nSubst
  | 0 => start
  | k + 1 =>
      if (updateLoop inputs start k).goesOn then
        (updateLoop inputs start k).internalStep mesh marks (inputs k)
      else updateLoop inputs start k

def updateSolution (inputs : ℕ → ConvectionTransport.StepInput n nSubst)
    (splitting : TransportOperatorSplitting n nSubst) : ℕ → TransportOperatorSplitting n nSubst :=
  updateLoop mesh (splitting.startUpdate marks).2 inputs (splitting.startUpdate marks).1

/-! ## The times of the operators -/

inductive ReactionOperator where
  | decayRad
  | semchemReactions

def timeStepOf (splitting : TransportOperatorSplitting n nSubst) :
    ReactionOperator → Option Double
  | .decayRad => splitting.decayRad
  | .semchemReactions => splitting.semchemReactions

def reactionTime (states : ℕ → TransportOperatorSplitting n nSubst)
    (reaction : ReactionOperator) (steps : ℕ) : Double :=
  (List.range steps).foldl
    (fun total k => total + ((states (k + 1)).timeStepOf reaction).getD (.fin 0)) (.fin 0)

/-- The reactions act over the same times as the convection: in every internal step
over the step of the convection, and in all internal steps of the update, which ends,
over the step of the operator splitting. -/
structure ActsOverSameTime (before : TransportOperatorSplitting n nSubst)
    (states : ℕ → TransportOperatorSplitting n nSubst) : Prop where
  each : ∀ k, (states k).goesOn = true → ∀ reaction step,
    (states (k + 1)).timeStepOf reaction = some step →
      step = (states (k + 1)).convection.time.timeStep
  total : ∀ reaction, (before.timeStepOf reaction).isSome →
    ∃ steps, (∀ k < steps, (states k).goesOn = true) ∧ (states steps).goesOn = false ∧
      reactionTime states reaction steps = (states steps).time.time - before.time.time

/-- Whole steps `dt` lead to the next time of the operator splitting, and in the
comparisons of the convection the last of them is the first to reach it. -/
structure Divides (splitting : TransportOperatorSplitting n nSubst) (dt : ℚ) (steps : ℕ) :
    Prop where
  target : ∃ t, splitting.time.time = .fin t ∧
    (splitting.startUpdate marks).1.time.time = .fin (t + steps * dt)
  selected : 0 < steps →
    (splitting.startUpdate marks).1.convection.time.estimateDt
      (splitting.startUpdate marks).2 = .fin dt
  ahead : ∀ k < steps,
    (splitting.convection.time.later (k * dt)).lt
        (splitting.startUpdate marks).1.time.time = true ∧
      (splitting.convection.time.later (k * dt)).isEnd = false
  reached : (splitting.convection.time.later (steps * dt)).lt
    (splitting.startUpdate marks).1.time.time = false

/-- The convection does not select a step anew, or selects `dt` again. -/
def KeepsStep (dt : ℚ) (input : ConvectionTransport.StepInput n nSubst)
    (convection : ConvectionTransport n nSubst) : Prop :=
  convection.rebuilds input = true ∨
      convection.time.lt convection.time.endOfFixedDtInterval = false →
    (convection.reinitData mesh marks input).time.estimateDt marks = .fin dt

/-- Either nothing reacts, or one step of the convection divides the update and is
kept before every internal step. -/
def KeepsOneStep (inputs : ℕ → ConvectionTransport.StepInput n nSubst)
    (splitting : TransportOperatorSplitting n nSubst) : Prop :=
  (∀ reaction, splitting.timeStepOf reaction = none) ∨
    ∃ dt steps, splitting.Divides marks dt steps ∧ ∀ k < steps,
      KeepsStep mesh (splitting.startUpdate marks).2 dt (inputs k)
        (splitting.updateSolution mesh marks inputs k).convection

/-! ## The start of the loop -/

section Start

variable {splitting : TransportOperatorSplitting n nSubst} {marks : TimeMarks}

theorem startUpdate_target (marks : TimeMarks)
    (splitting : TransportOperatorSplitting n nSubst) :
    (splitting.startUpdate marks).1.time = splitting.time.nextTime marks := by
  unfold startUpdate setTargetTime
  simp only
  split_ifs <;> rfl

theorem startUpdate_time (number : (splitting.startUpdate marks).1.time.time ≠ .nan) :
    (splitting.startUpdate marks).1.convection.time =
      splitting.convection.time.refixed (splitting.startUpdate marks).2
        splitting.convection.cflMaxStep := by
  rw [startUpdate_target] at number
  unfold startUpdate setTargetTime
  simp only [number, ne_eq, not_false_eq_true, ↓reduceDIte]
  rfl

theorem startUpdate_keeps (number : (splitting.startUpdate marks).1.time.time ≠ .nan) :
    (splitting.startUpdate marks).1.convection.time.time = splitting.convection.time.time ∧
      (splitting.startUpdate marks).1.convection.time.endTime =
        splitting.convection.time.endTime := by
  rw [startUpdate_time number]
  obtain ⟨time, endTime, -⟩ := TimeGovernor.refixed_time (splitting.startUpdate marks).2
    splitting.convection.time splitting.convection.cflMaxStep
  exact ⟨time, endTime⟩

theorem startUpdate_timeStepOf (marks : TimeMarks)
    (splitting : TransportOperatorSplitting n nSubst) (reaction : ReactionOperator) :
    (splitting.startUpdate marks).1.timeStepOf reaction =
      (splitting.timeStepOf reaction).map fun _ =>
        (splitting.startUpdate marks).1.convection.time.estimateDt
          (splitting.startUpdate marks).2 := by
  unfold startUpdate setTargetTime
  cases reaction <;> simp only <;> split_ifs <;> rfl

end Start

end TransportOperatorSplitting

end Flow123d
