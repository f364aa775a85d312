import Flow123d.Transport.ConvectionScaling
import Flow123d.Transport.MassBalanceTotals

/-!
# Runs with the mass balance

The balance is calculated at the start and after every step, the fluxes and the sources
with the concentrations before the step. It closes if the operands of the step are scaled
by it, no rate is overwritten, the pore volumes stay, and the sources of the step are those
of the balance.
-/

set_option autoImplicit false

namespace Flow123d

open Flow123d.Library

namespace ConvectionTransport

variable {n nSubst nBcd nBulk : ℕ}

/-- The step computes its sources with the concentrations before it and its own length. -/
def withSources (mesh : TransportMesh n) (marks : TimeMarks) (input : StepInput n nSubst)
    (sources : Sources n nSubst) (convection : ConvectionTransport n nSubst) :
    StepInput n nSubst :=
  { input with
    sourcesCorr := sources.computeConcentrationSources
      (convection.computeOneStep mesh marks input).time.timeStep convection.vconc }

inductive BalanceRequest (n nSubst : ℕ) where
  | setTargetTime (marks : TimeMarks) (targetTime : Double) (isTime : targetTime ≠ .nan)
  | computeOneStep (marks : TimeMarks) (input : StepInput n nSubst)
      (sources : Sources n nSubst)

/-- The convection and its balance, with the data of the last step and of the last
calculation. -/
structure Balanced (n nSubst nBcd nBulk : ℕ) where
  convection : ConvectionTransport n nSubst
  lastData : Option (TransportData n nSubst)
  reported : TransportData n nSubst
  balance : MassBalance nSubst nBcd nBulk

namespace Balanced

/-- The first calculation, before any step and with cleared `vpconc`. -/
def create (mesh : BalanceMesh n nBcd nBulk) (data : TransportData n nSubst)
    (sources : Sources n nSubst) (convection : ConvectionTransport n nSubst) :
    Balanced n nSubst nBcd nBulk where
  convection := convection
  lastData := none
  reported := data
  balance := MassBalance.create.calculate (mesh.calcFluxes data fun _ _ => .fin 0)
    (mesh.calcElemSources data sources convection.vconc fun _ _ => .fin 0)
    convection.time.time

def request (mesh : BalanceMesh n nBcd nBulk) (state : Balanced n nSubst nBcd nBulk) :
    BalanceRequest n nSubst → Balanced n nSubst nBcd nBulk
  | .setTargetTime marks targetTime isTime =>
      { state with convection := (state.convection.setTargetTime marks targetTime isTime).1 }
  | .computeOneStep marks input sources =>
      let convection := state.convection.computeOneStep mesh.mesh marks
        (withSources mesh.mesh marks input sources state.convection)
      { convection := convection
        lastData := some input.data
        reported := input.data
        balance := state.balance.calculate (mesh.calcFluxes input.data state.convection.vconc)
          (mesh.calcElemSources input.data sources convection.vconc state.convection.vconc)
          convection.time.time }

/-- The same run for the scaling of the operands. -/
def observed (state : Balanced n nSubst nBcd nBulk) : Observed n nSubst :=
  ⟨state.convection, state.lastData⟩

end Balanced

def BalanceRequest.observed (mesh : TransportMesh n)
    (convection : ConvectionTransport n nSubst) : BalanceRequest n nSubst → Request n nSubst
  | .setTargetTime marks targetTime isTime => .setTargetTime marks targetTime isTime
  | .computeOneStep marks input sources =>
      .computeOneStep marks (withSources mesh marks input sources convection)

/-- What the balance is to say about a step before the end. -/
def BalanceCloses (mesh : BalanceMesh n nBcd nBulk) (state : Balanced n nSubst nBcd nBulk) :
    BalanceRequest n nSubst → Prop
  | .setTargetTime _ _ _ => True
  | .computeOneStep marks input sources => state.convection.time.isEnd = false →
      let after := state.request mesh (.computeOneStep marks input sources)
      ∀ sbi, after.balance.massTotal sbi - state.balance.massTotal sbi =
          after.convection.time.timeStep *
            (after.balance.srcTotalBalance sbi - after.balance.bcdTotalBalance sbi) ∧
        after.balance.initialMass sbi + after.balance.integratedSources sbi -
          after.balance.integratedFluxes sbi = after.balance.massTotal sbi

/-- The condition on a step, with the concentrations `c` before it. -/
structure StepBalanced (mesh : BalanceMesh n nBcd nBulk) (marks : TimeMarks)
    (input : StepInput n nSubst) (sources : Sources n nSubst)
    (state : Balanced n nSubst nBcd nBulk) (c : Fin nSubst → Fin n → ℚ) : Prop where
  fluxes : mesh.FluxesBalanced input.data
  nonzero : ∀ elm, mesh.mesh.poreVolume input.data elm ≠ 0
  finiteStep : ∃ dt : ℚ, (state.convection.reinitData mesh.mesh marks
    (withSources mesh.mesh marks input sources state.convection)).time.estimateDt marks =
      .fin dt
  kept : mesh.mesh.NothingOverwritten input.data
  volumes : ∀ sbi, mesh.totalMass input.data c sbi = mesh.totalMass state.reported c sbi
  sources : ∀ sbi, mesh.sourceGap input.data c sources sbi = 0

def BalanceSound (mesh : BalanceMesh n nBcd nBulk) (state : Balanced n nSubst nBcd nBulk)
    (request : BalanceRequest n nSubst) : Prop :=
  ScalingSound mesh.mesh state.observed (request.observed mesh.mesh state.convection) ∧
    match request with
    | .setTargetTime _ _ _ => True
    | .computeOneStep marks input sources => state.convection.time.isEnd = false →
        ∀ c, (∀ sbi elm, state.convection.vconc sbi elm = .fin (c sbi elm)) →
          StepBalanced mesh marks input sources state c

/-! ## The concentrations of a step -/

variable {mesh : BalanceMesh n nBcd nBulk} {marks : TimeMarks}

theorem scaled_entry {data : TransportData n nSubst}
    (nonzero : ∀ elm, mesh.mesh.poreVolume data elm ≠ 0)
    (kept : mesh.mesh.NothingOverwritten data) (dt : ℚ) (i j : Fin n) :
    ((mesh.mesh.assembleMatrix data).scale (.fin dt)).shift (.fin 1) i j =
      .fin (mesh.matrixEntry data i j * dt + if i = j then 1 else 0) := by
  have entry := TransportMesh.assembleMatrix_eq nonzero
    (fun elm side member => mesh.side_element member) kept i j
  unfold TransportMatrix.shift TransportMatrix.scale
  rw [entry]
  split_ifs with same
  · rfl
  · rw [add_zero]
    rfl

theorem vconc_stepped {input : StepInput n nSubst} {sources : Sources n nSubst}
    {convection : ConvectionTransport n nSubst} {c : Fin nSubst → Fin n → ℚ} {dt : ℚ}
    (nonzero : ∀ elm, mesh.mesh.poreVolume input.data elm ≠ 0)
    (kept : mesh.mesh.NothingOverwritten input.data)
    (finite : ∀ sbi elm, convection.vconc sbi elm = .fin (c sbi elm))
    (step : (convection.computeOneStep mesh.mesh marks input).time.timeStep = .fin dt)
    (scaled : ScaledBy mesh.mesh input.data (.fin dt)
      (convection.computeOneStep mesh.mesh marks
        (withSources mesh.mesh marks input sources convection)))
    (sbi : Fin nSubst) (elm : Fin n) :
    (convection.computeOneStep mesh.mesh marks
      (withSources mesh.mesh marks input sources convection)).vconc sbi elm =
        .fin (mesh.stepped input.data c sources dt sbi elm) := by
  have corr : (withSources mesh.mesh marks input sources convection).sourcesCorr sbi elm =
      .fin (sources.rate c sbi elm * dt) := by
    change sources.computeConcentrationSources _ convection.vconc sbi elm = _
    rw [Sources.computeConcentrationSources_eq, Sources.rate_eq finite, step]
    rfl
  have boundary : (mesh.mesh.assembleBoundary input.data).scale (.fin dt) sbi elm =
      .fin (mesh.boundaryEntry input.data sbi elm * dt) := by
    unfold TransportVectors.scale
    rw [mesh.assembleBoundary_eq (nonzero elm)]
    rfl
  rw [computeOneStep_vconc, scaled.tm, scaled.bcvcorr]
  unfold TransportMatrix.multAdd
  beta_reduce
  rw [boundary, corr, Double.fin_mul_fin, Double.fin_add_fin,
    Double.foldl_add_fin (List.finRange n) _
      (fun j => (mesh.matrixEntry input.data elm j * dt + if elm = j then 1 else 0) * c sbi j)
      (fun j _ => by rw [scaled_entry nonzero kept, finite, Double.fin_mul_fin]),
    sum_finRange]
  unfold BalanceMesh.stepped
  simp only [add_mul, Finset.sum_add_distrib, ite_mul, one_mul, zero_mul,
    Finset.sum_ite_eq, Finset.mem_univ, ↓reduceIte]
  have factor : ∑ j, mesh.matrixEntry input.data elm j * dt * c sbi j =
      dt * ∑ j, mesh.matrixEntry input.data elm j * c sbi j := by
    rw [Finset.mul_sum]
    exact Finset.sum_congr rfl fun j _ => by ring
  rw [factor]
  congr 1
  ring

/-! ## The balance along a run -/

structure Live (mesh : BalanceMesh n nBcd nBulk) (state : Balanced n nSubst nBcd nBulk)
    (c : Fin nSubst → Fin n → ℚ) : Prop where
  finite : ∀ sbi elm, state.convection.vconc sbi elm = .fin (c sbi elm)
  massTotal : ∀ sbi, state.balance.massTotal sbi =
    .fin (mesh.totalMass state.reported c sbi)
  lastTime : state.balance.lastTime = state.convection.time.time
  begun : state.balance.initial = false
  closed : ∀ sbi, ∃ a b d : ℚ, state.balance.initialMass sbi = .fin a ∧
    state.balance.integratedSources sbi = .fin b ∧
    state.balance.integratedFluxes sbi = .fin d ∧
    a + b - d = mesh.totalMass state.reported c sbi

structure BalanceKept (mesh : BalanceMesh n nBcd nBulk)
    (state : Balanced n nSubst nBcd nBulk) : Prop where
  consistent : Consistent mesh.mesh state.observed
  live : state.convection.time.isEnd = false → ∃ c, Live mesh state c

theorem later_not_equal {t dt : ℚ} (forward : 0 < dt) :
    (Double.fin t).equal (.fin (t + dt)) = false := by
  have after : ¬Double.fin (t + dt) ≤ .fin t := by
    rw [Double.fin_le_fin]
    linarith
  unfold Double.equal
  rw [Bool.and_eq_false_iff]
  exact .inr (Bool.eq_false_iff.mpr after)

theorem calculate_of_later (fluxes : BoundaryFluxes nSubst nBcd)
    (elemSources : ElemSources nSubst nBulk) {time : Double}
    {balance : MassBalance nSubst nBcd nBulk} (later : balance.lastTime.equal time = false)
    (begun : balance.initial = false) :
    (balance.calculate fluxes elemSources time).massTotal = elemSources.mass.total ∧
      (balance.calculate fluxes elemSources time).srcTotalBalance =
        elemSources.srcBalance.total ∧
      (balance.calculate fluxes elemSources time).bcdTotalBalance = fluxes.balance.total ∧
      (balance.calculate fluxes elemSources time).lastTime = time ∧
      (balance.calculate fluxes elemSources time).initial = false ∧
      (balance.calculate fluxes elemSources time).initialMass = balance.initialMass ∧
      (balance.calculate fluxes elemSources time).integratedSources = (fun sbi =>
        balance.integratedSources sbi +
          elemSources.srcBalance.total sbi * (time - balance.lastTime)) ∧
      (balance.calculate fluxes elemSources time).integratedFluxes = fun sbi =>
        balance.integratedFluxes sbi +
          fluxes.balance.total sbi * (time - balance.lastTime) := by
  unfold MassBalance.calculate MassBalance.integrate MassBalance.gather
  simp [later, begun]

/-- A step from the time `t` of the length `dt` with operands scaled by it. -/
structure StepTaken (mesh : TransportMesh n) (marks : TimeMarks) (input : StepInput n nSubst)
    (convection : ConvectionTransport n nSubst) (t dt : ℚ) : Prop where
  forward : 0 < dt
  step : (convection.computeOneStep mesh marks input).time.timeStep = .fin dt
  before : convection.time.time = .fin t
  after : (convection.computeOneStep mesh marks input).time.time = .fin (t + dt)
  scaled : ScaledBy mesh input.data (.fin dt) (convection.computeOneStep mesh marks input)

theorem stepTaken {mesh : TransportMesh n} {state : Observed n nSubst}
    {input : StepInput n nSubst} (consistent : Consistent mesh state)
    (running : state.convection.time.isEnd = false)
    (scaling : ScalingSound mesh state (.computeOneStep marks input))
    (finiteStep : ∃ dt : ℚ,
      (state.convection.reinitData mesh marks input).time.estimateDt marks = .fin dt) :
    ∃ t dt, StepTaken mesh marks input state.convection t dt := by
  obtain ⟨dt, finite⟩ := finiteStep
  have ready := consistent.stepReady running scaling
  have step : (state.convection.computeOneStep mesh marks input).time.timeStep = .fin dt := by
    rw [computeOneStep_time, nextTime_timeStep ready.proper ready.running]
    exact finite
  obtain ⟨t, -, time⟩ := consistent.proper.finiteTime running
  refine ⟨t, dt, ?_, step, time, ?_, ?_⟩
  · obtain infinite | ⟨e, positive, positive_⟩ :=
      estimateDt_rescalable ready.proper ready.running ready.ahead
    · exact absurd (infinite.symm.trans finite) (by simp)
    · have same := positive_.symm.trans finite
      rw [Double.fin.injEq] at same
      rwa [← same]
  · obtain ⟨same, -⟩ := reinitData_keeps mesh marks input state.convection
    obtain ⟨advanced, -⟩ := TimeGovernor.nextTime_time marks ready.running ready.proper.unsteady
    rw [← computeOneStep_time] at advanced
    rw [advanced, same, time, step]
    rfl
  · rw [← step]
    exact (consistent.computeOneStep_scaledBy running scaling).1

section Step

variable {state : Balanced n nSubst nBcd nBulk} {input : StepInput n nSubst}
  {sources : Sources n nSubst} {c : Fin nSubst → Fin n → ℚ} {t dt : ℚ}

/-- The balance after a step in rationals. -/
structure Calculated (mesh : BalanceMesh n nBcd nBulk) (data : TransportData n nSubst)
    (sources : Sources n nSubst) (c : Fin nSubst → Fin n → ℚ) (t dt : ℚ)
    (balance after : MassBalance nSubst nBcd nBulk) : Prop where
  mass : ∀ sbi, after.massTotal sbi =
    .fin (mesh.totalMass data (mesh.stepped data c sources dt) sbi)
  source : ∀ sbi, after.srcTotalBalance sbi = .fin (mesh.totalSource c sources sbi)
  flux : ∀ sbi, after.bcdTotalBalance sbi = .fin (mesh.totalFlux data c sbi)
  lastTime : after.lastTime = .fin (t + dt)
  begun : after.initial = false
  initialMass : after.initialMass = balance.initialMass
  integratedSources : ∀ sbi, after.integratedSources sbi =
    balance.integratedSources sbi + .fin (mesh.totalSource c sources sbi * dt)
  integratedFluxes : ∀ sbi, after.integratedFluxes sbi =
    balance.integratedFluxes sbi + .fin (mesh.totalFlux data c sbi * dt)

theorem request_calculated
    (taken : StepTaken mesh.mesh marks
      (withSources mesh.mesh marks input sources state.convection) state.convection t dt)
    (live : Live mesh state c) (nonzero : ∀ elm, mesh.mesh.poreVolume input.data elm ≠ 0)
    (kept : mesh.mesh.NothingOverwritten input.data) :
    (∀ sbi elm, (state.convection.computeOneStep mesh.mesh marks
      (withSources mesh.mesh marks input sources state.convection)).vconc sbi elm =
        .fin (mesh.stepped input.data c sources dt sbi elm)) ∧
    Calculated mesh input.data sources c t dt state.balance
      (state.request mesh (.computeOneStep marks input sources)).balance := by
  have finite : ∀ sbi elm, (state.convection.computeOneStep mesh.mesh marks
      (withSources mesh.mesh marks input sources state.convection)).vconc sbi elm =
        .fin (mesh.stepped input.data c sources dt sbi elm) :=
    vconc_stepped nonzero kept live.finite taken.step taken.scaled
  refine ⟨finite, ?_⟩
  have lastTime : state.balance.lastTime = .fin t := live.lastTime.trans taken.before
  have later : state.balance.lastTime.equal (.fin (t + dt)) = false := by
    rw [lastTime]
    exact later_not_equal taken.forward
  obtain ⟨mass, src, bcd, last, begun, initial, integratedSrc, integratedFlux⟩ :=
    calculate_of_later (mesh.calcFluxes input.data state.convection.vconc)
      (mesh.calcElemSources input.data sources
        (state.convection.computeOneStep mesh.mesh marks
          (withSources mesh.mesh marks input sources state.convection)).vconc
        state.convection.vconc) later live.begun
  have elapsed : Double.fin (t + dt) - state.balance.lastTime = .fin dt := by
    rw [lastTime, Double.fin_sub_fin, add_sub_cancel_left]
  have source : ∀ sbi, (mesh.calcElemSources input.data sources
      (state.convection.computeOneStep mesh.mesh marks
        (withSources mesh.mesh marks input sources state.convection)).vconc
      state.convection.vconc).srcBalance.total sbi = .fin (mesh.totalSource c sources sbi) :=
    mesh.calcElemSources_srcBalance input.data sources live.finite
  have flux : ∀ sbi, (mesh.calcFluxes input.data
      state.convection.vconc).balance.total sbi = .fin (mesh.totalFlux input.data c sbi) :=
    mesh.calcFluxes_total live.finite
  simp only [Balanced.request, taken.after]
  refine ⟨?_, ?_, ?_, last, begun, initial, ?_, ?_⟩
  · intro sbi
    rw [mass]
    exact mesh.calcElemSources_mass input.data sources finite sbi
  · intro sbi
    rw [src]
    exact source sbi
  · intro sbi
    rw [bcd]
    exact flux sbi
  · intro sbi
    simp only [integratedSrc, source, elapsed, Double.fin_mul_fin]
  · intro sbi
    simp only [integratedFlux, flux, elapsed, Double.fin_mul_fin]

/-- Before the end a sound step closes the balance and leaves it ready for the next. -/
theorem BalanceKept.step (kept : BalanceKept mesh state)
    (running : state.convection.time.isEnd = false)
    (sound : BalanceSound mesh state (.computeOneStep marks input sources)) :
    BalanceCloses mesh state (.computeOneStep marks input sources) ∧
      ∃ c, Live mesh (state.request mesh (.computeOneStep marks input sources)) c := by
  obtain ⟨scaling, balanced⟩ := sound
  obtain ⟨c, live⟩ := kept.live running
  obtain ⟨fluxes, nonzero, finiteStep, written, volumes, gap⟩ := balanced running c live.finite
  obtain ⟨t, dt, taken⟩ := stepTaken kept.consistent running scaling finiteStep
  obtain ⟨finite, calculated⟩ := request_calculated taken live nonzero written
  have change_ : ∀ sbi, mesh.totalMass input.data
      (mesh.stepped input.data c sources dt) sbi - mesh.totalMass state.reported c sbi =
        dt * (mesh.totalSource c sources sbi - mesh.totalFlux input.data c sbi) := by
    intro sbi
    rw [← volumes sbi, mesh.totalMass_stepped nonzero fluxes sources dt sbi, gap sbi, mul_zero,
      add_zero]
  have closed : ∀ sbi, ∃ a b d : ℚ,
      (state.request mesh (.computeOneStep marks input sources)).balance.initialMass sbi =
        .fin a ∧
      (state.request mesh
        (.computeOneStep marks input sources)).balance.integratedSources sbi = .fin b ∧
      (state.request mesh
        (.computeOneStep marks input sources)).balance.integratedFluxes sbi = .fin d ∧
      a + b - d = mesh.totalMass input.data (mesh.stepped input.data c sources dt) sbi := by
    intro sbi
    obtain ⟨a, b, d, initial, sources_, fluxes_, sum⟩ := live.closed sbi
    refine ⟨a, b + mesh.totalSource c sources sbi * dt,
      d + mesh.totalFlux input.data c sbi * dt, ?_, ?_, ?_, ?_⟩
    · rw [calculated.initialMass, initial]
    · rw [calculated.integratedSources, sources_, Double.fin_add_fin]
    · rw [calculated.integratedFluxes, fluxes_, Double.fin_add_fin]
    · linarith [change_ sbi]
  constructor
  · intro _ after sbi
    obtain ⟨a, b, d, initial, sources_, fluxes_, sum⟩ := closed sbi
    have step : after.convection.time.timeStep = .fin dt := taken.step
    constructor
    · rw [calculated.mass, live.massTotal, step, calculated.source, calculated.flux,
        Double.fin_sub_fin, Double.fin_sub_fin, Double.fin_mul_fin, change_ sbi]
    · rw [initial, sources_, fluxes_, calculated.mass, Double.fin_add_fin,
        Double.fin_sub_fin, sum]
  · exact ⟨mesh.stepped input.data c sources dt, finite, calculated.mass,
      calculated.lastTime.trans taken.after.symm, calculated.begun, closed⟩

end Step

namespace BalanceKept

variable {state : Balanced n nSubst nBcd nBulk}

theorem balanceCloses (kept : BalanceKept mesh state) (request : BalanceRequest n nSubst)
    (sound : BalanceSound mesh state request) : BalanceCloses mesh state request := by
  cases request with
  | setTargetTime marks targetTime isTime => trivial
  | computeOneStep marks input sources =>
      intro running
      exact (kept.step running sound).1 running

theorem request (kept : BalanceKept mesh state) (request : BalanceRequest n nSubst)
    (sound : BalanceSound mesh state request) :
    BalanceKept mesh (state.request mesh request) := by
  cases request with
  | setTargetTime marks targetTime isTime =>
      refine ⟨kept.consistent.setTargetTime isTime sound.1, ?_⟩
      intro running
      have before : state.convection.time.isEnd = false := by
        rw [← TimeGovernor.refixed_isEnd
          (marks.add ⟨targetTime, state.convection.targetMarkType, isTime⟩)
          state.convection.time state.convection.cflMaxStep]
        exact running
      obtain ⟨c, live⟩ := kept.live before
      refine ⟨c, live.finite, live.massTotal, live.lastTime.trans ?_, live.begun, live.closed⟩
      exact (TimeGovernor.refixed_time _ _ _).1.symm
  | computeOneStep marks input sources =>
      refine ⟨kept.consistent.computeOneStep sound.1, ?_⟩
      intro running
      cases before : state.convection.time.isEnd with
      | false => exact (kept.step before sound).2
      | true =>
          have ended : (state.convection.reinitData mesh.mesh marks
              (withSources mesh.mesh marks input sources state.convection)).time.isEnd =
                true := (reinitData_isEnd mesh.mesh marks _ _).trans before
          have stays := computeOneStep_time mesh.mesh marks
            (withSources mesh.mesh marks input sources state.convection) state.convection
          rw [TimeGovernor.nextTime_of_isEnd ended] at stays
          have goesOn : (state.convection.computeOneStep mesh.mesh marks
            (withSources mesh.mesh marks input sources state.convection)).time.isEnd =
              false := running
          rw [stays, ended] at goesOn
          cases goesOn

end BalanceKept

/-- The first calculation only sets the beginning of the balance. -/
theorem create_live (mesh : BalanceMesh n nBcd nBulk) (data : TransportData n nSubst)
    (sources : Sources n nSubst) {convection : ConvectionTransport n nSubst}
    {c : Fin nSubst → Fin n → ℚ} {t : ℚ} (nonneg : 0 ≤ t)
    (time : convection.time.time = .fin t)
    (finite : ∀ sbi elm, convection.vconc sbi elm = .fin (c sbi elm)) :
    Live mesh (Balanced.create mesh data sources convection) c := by
  have cleared : ∀ (sbi : Fin nSubst) (elm : Fin n), Double.fin 0 = .fin ((fun _ _ => 0 :
      Fin nSubst → Fin n → ℚ) sbi elm) := fun _ _ => rfl
  have mass : ∀ sbi, (mesh.calcElemSources data sources convection.vconc
      fun _ _ => .fin 0).mass.total sbi = .fin (mesh.totalMass data c sbi) :=
    mesh.calcElemSources_mass data sources finite
  have source : ∀ sbi, (mesh.calcElemSources data sources convection.vconc
      fun _ _ => .fin 0).srcBalance.total sbi = .fin (mesh.totalSource _ sources sbi) :=
    mesh.calcElemSources_srcBalance data sources cleared
  have flux : ∀ sbi, (mesh.calcFluxes data fun _ _ => .fin 0).balance.total sbi =
      .fin (mesh.totalFlux data _ sbi) := mesh.calcFluxes_total cleared
  have begins : (MassBalance.create : MassBalance nSubst nBcd nBulk).lastTime.equal
      (.fin t) = false := by
    have later : (Double.fin (-1)).equal (.fin (-1 + (t + 1))) = false :=
      later_not_equal (by linarith)
    rwa [show -1 + (t + 1) = t by ring] at later
  have first : (Balanced.create mesh data sources convection).balance =
      (MassBalance.create.gather (mesh.calcFluxes data fun _ _ => .fin 0)
        (mesh.calcElemSources data sources convection.vconc fun _ _ => .fin 0)
        (.fin t)).integrate (.fin t) := by
    unfold Balanced.create
    rw [time]
    exact if_neg (by simp [begins])
  have zero : ∀ a : ℚ, Double.fin 0 + Double.fin a * (Double.fin t - Double.fin t) =
      .fin 0 := by
    intro a
    rw [Double.fin_sub_fin, Double.fin_mul_fin, Double.fin_add_fin]
    simp
  refine ⟨finite, ?_, ?_, ?_, ?_⟩
  · intro sbi
    rw [first]
    exact mass sbi
  · rw [first]
    exact time.symm
  · rw [first]
    rfl
  · intro sbi
    rw [first]
    refine ⟨mesh.totalMass data c sbi, 0, 0, mass sbi, ?_, ?_, by simp [Balanced.create]⟩
    · exact (congrArg (fun a => Double.fin 0 + a * (Double.fin t - Double.fin t))
        (source sbi)).trans (zero _)
    · exact (congrArg (fun a => Double.fin 0 + a * (Double.fin t - Double.fin t))
        (flux sbi)).trans (zero _)

/-- The balance closes at every step of a run whose calls are sound. -/
theorem run_balanceCloses {marks final : TimeMarks} {record : TimeGovernor.Record}
    {mask : TimeMark.MarkType} {tg : TimeGovernor} (mesh : BalanceMesh n nBcd nBulk)
    (created : TimeGovernor.create marks record mask = .ok (tg, final))
    (tm : TransportMatrix n) (bcvcorr : TransportVectors n nSubst)
    (conc : Fin nSubst → Fin n → ℚ) (data : TransportData n nSubst)
    (sources : Sources n nSubst) (requests : List (BalanceRequest n nSubst))
    (sound : AlongRun (Balanced.request mesh) (BalanceSound mesh)
      (Balanced.create mesh data sources
        (create tg mask tm bcvcorr fun sbi elm => .fin (conc sbi elm))) requests) :
    AlongRun (Balanced.request mesh) (BalanceCloses mesh)
      (Balanced.create mesh data sources
        (create tg mask tm bcvcorr fun sbi elm => .fin (conc sbi elm))) requests := by
  have proper := TimeGovernor.create_proper created
  apply AlongRun.of_invariant (BalanceKept mesh)
    (fun _ request kept sound => kept.request request sound)
    (fun _ request kept sound => kept.balanceCloses request sound) _ sound
  refine ⟨⟨proper, fun _ _ unknown => (by cases unknown)⟩, fun running => ⟨conc, ?_⟩⟩
  obtain ⟨t, nonneg, time⟩ := proper.finiteTime running
  exact create_live mesh data sources nonneg time fun _ _ => rfl

/-- What is assumed of the velocity field. -/
def FluxesGiven (mesh : BalanceMesh n nBcd nBulk) (_ : Balanced n nSubst nBcd nBulk) :
    BalanceRequest n nSubst → Prop
  | .setTargetTime _ _ _ => True
  | .computeOneStep _ input _ => mesh.FluxesBalanced input.data

def oneElementBalance : BalanceMesh 1 2 1 where
  mesh := oneElement
  edges := [.boundary 0 ⟨0, 0⟩, .boundary 1 ⟨0, 1⟩]
  boundaryRegion := fun bcd => if bcd = 0 then 0 else 1
  bulkRegion := fun _ => 0
  sides_perm := fun elm => by
    obtain rfl : elm = 0 := Subsingleton.elim _ _
    exact .refl _
  neighVb_perm := fun _ => .refl _

def unitSources (density : ℚ) : Sources 1 1 :=
  ⟨fun _ _ => density, fun _ _ => 0, fun _ _ => 0⟩

/-- A step of the unit flow without sources. -/
theorem run_balanceCloses_unit_flow :
    AlongRun (Balanced.request oneElementBalance) (BalanceCloses oneElementBalance)
      (Balanced.create oneElementBalance unitFlow (unitSources 0) unitConvection)
      [.setTargetTime (TimeGovernor.tenUnitsMarks 10) (.fin 1) (by decide),
        .computeOneStep (TimeGovernor.tenUnitsMarks 1) (unitInput false) (unitSources 0)] := by
  refine run_balanceCloses oneElementBalance
    (TimeGovernor.create_tenUnits 1 none none rfl (by decide +kernel) (by decide +kernel)
      (by decide +kernel)).choose_spec TransportMatrix.zero (fun _ _ => .fin 0)
    (fun _ _ => 0) unitFlow (unitSources 0) _ ⟨⟨?_, trivial⟩, ⟨?_, ?_⟩, trivial⟩
  · exact fun _ => ⟨1, by decide +kernel⟩
  · intro _
    rw [if_pos (by decide +kernel)]
    exact ⟨1, by decide +kernel⟩
  · intro _ c finite
    have start : c = fun _ _ => 0 := by
      funext sbi elm
      have same : Double.fin 0 = .fin (c sbi elm) := finite sbi elm
      exact (Double.fin.inj same).symm
    cases start
    exact
      { fluxes := by
          intro sides member
          simp [oneElementBalance] at member
        nonzero := by decide +kernel
        finiteStep := ⟨1, by decide +kernel⟩
        kept := by
          unfold TransportMesh.NothingOverwritten
          decide +kernel
        volumes := by decide +kernel
        sources := by decide +kernel }

def halfPorous : TransportData 1 1 where
  sideFlux := fun _ => 0
  crossSection := fun _ => 1
  porM := fun _ => 1 / 2
  bcConc := fun _ _ => 0

/-- Half of what the balance counts as the source gets into the pores. -/
theorem not_always_balanceCloses :
    ¬∀ (n nSubst nBcd nBulk : ℕ) (mesh : BalanceMesh n nBcd nBulk) (marks final : TimeMarks)
      (record : TimeGovernor.Record) (mask : TimeMark.MarkType) (tg : TimeGovernor)
      (tm : TransportMatrix n) (bcvcorr : TransportVectors n nSubst)
      (conc : Fin nSubst → Fin n → ℚ) (data : TransportData n nSubst)
      (sources : Sources n nSubst) (requests : List (BalanceRequest n nSubst)),
      TimeGovernor.create marks record mask = .ok (tg, final) →
      AlongRun (Balanced.request mesh) (FluxesGiven mesh)
        (Balanced.create mesh data sources
          (create tg mask tm bcvcorr fun sbi elm => .fin (conc sbi elm))) requests →
      AlongRun (Balanced.request mesh) (BalanceCloses mesh)
        (Balanced.create mesh data sources
          (create tg mask tm bcvcorr fun sbi elm => .fin (conc sbi elm))) requests := by
  intro always
  obtain ⟨final, created⟩ := TimeGovernor.create_tenUnits 1 none none rfl
    (by decide +kernel) (by decide +kernel) (by decide +kernel)
  obtain ⟨-, closes, -⟩ := always 1 1 2 1 oneElementBalance _ final _ 1 _
    TransportMatrix.zero (fun _ _ => .fin 0) (fun _ _ => 0) halfPorous (unitSources 1)
    [.setTargetTime (TimeGovernor.tenUnitsMarks 10) (.fin 1) (by decide),
      .computeOneStep (TimeGovernor.tenUnitsMarks 1)
        { unitInput false with data := halfPorous } (unitSources 1)]
    created ⟨trivial, fun sides member => by simp [oneElementBalance] at member, trivial⟩
  have mass := (closes (by decide +kernel) 0).1
  revert mass
  decide +kernel

end ConvectionTransport

end Flow123d
