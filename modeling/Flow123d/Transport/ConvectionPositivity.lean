import Flow123d.Transport.ConvectionTransport
import Flow123d.Transport.ConvectionScaling
import Flow123d.Transport.TransportMatrix

/-!
# Nonnegative concentrations

Off the diagonal the transport matrix is not negative, and a step up to the limit does
not take more from an element than it has. So explicit steps with boundary
concentrations and sources that are not negative keep the concentrations so.
-/

set_option autoImplicit false

namespace Flow123d

open Flow123d.Library

namespace TransportMesh

variable {n nSubst : ℕ} {mesh : TransportMesh n} {data : TransportData n nSubst}

/-! ## Entries of the matrix -/

theorem relativeFlux_nonneg (positive : Positive mesh data) (elm : Fin n) {flux : ℚ}
    (nonneg : 0 ≤ flux) : (mesh.relativeFlux data elm (.fin flux)).FiniteNonneg := by
  have volume := positive.poreVolume elm
  rw [relativeFlux_fin volume.ne']
  exact .of_fin (by positivity)

theorem sideEntries_nonneg (positive : Positive mesh data) {elm : Fin n}
    {entry : Fin n × Fin n × Double} (member : entry ∈ mesh.sideEntries data elm) :
    entry.2.2.FiniteNonneg := by
  obtain ⟨side, -, -, other, inEdge, -, rfl⟩ := mem_sideEntries member
  change (mesh.inflow data side other).FiniteNonneg
  rw [inflow_eq (positive.poreVolume side.side.element).ne' inEdge]
  exact .of_fin (inflowRate_nonneg positive side other)

theorem neighEntries_nonneg (positive : Positive mesh data) {elm : Fin n}
    {entry : Fin n × Fin n × Double} (member : entry ∈ mesh.neighEntries data elm) :
    entry.2.2.FiniteNonneg := by
  obtain ⟨side, -, rfl | rfl⟩ := mem_neighEntries member
  · change (if 0 < data.sideFlux side then _ else _ : Double).FiniteNonneg
    split_ifs with out
    · exact relativeFlux_nonneg positive elm out.le
    · exact .zero
  · change (if data.sideFlux side < 0 then _ else _ : Double).FiniteNonneg
    split_ifs with into
    · exact relativeFlux_nonneg positive side.element (by linarith)
    · exact .zero

theorem assembleMatrix_offDiagonal (positive : Positive mesh data) {i j : Fin n}
    (off : i ≠ j) : (mesh.assembleMatrix data i j).FiniteNonneg := by
  apply assembleMatrix_preserves Double.FiniteNonneg .zero
  intro elm entry member here
  rw [elementEntries, List.mem_append, List.mem_append, List.mem_singleton] at member
  obtain (inSides | inNeighs) | rfl := member
  · exact sideEntries_nonneg positive inSides
  · exact neighEntries_nonneg positive inNeighs
  · obtain ⟨rfl, same⟩ := Prod.mk.inj here
    exact absurd same off

/-! ## The step limit -/

/-- The accumulated maximum is at least every relative outflow. -/
theorem maxSum_bounds (positive : Positive mesh data) :
    ∃ maxSum : ℚ, mesh.cflMaxStep data = .fin 1 / .fin maxSum ∧ 0 ≤ maxSum ∧
      ∀ elm, mesh.outflow data elm / mesh.poreVolume data elm ≤ maxSum := by
  have bounds := foldl_preserves (List.finRange n)
    (fun maxSum elm =>
      if maxSum < (mesh.diagonal data elm).abs then (mesh.diagonal data elm).abs else maxSum)
    (Double.fin 0)
    (fun seen maxSum => ∃ q : ℚ, maxSum = .fin q ∧ 0 ≤ q ∧
      ∀ elm ∈ seen, mesh.outflow data elm / mesh.poreVolume data elm ≤ q)
    ⟨0, rfl, le_rfl, fun elm member => by cases member⟩
    (by
      rintro seen elm remaining _ - ⟨q, rfl, nonneg, below⟩
      have relative : 0 ≤ mesh.outflow data elm / mesh.poreVolume data elm :=
        div_nonneg (outflow_nonneg elm) (positive.poreVolume elm).le
      rw [diagonal_eq (positive.poreVolume elm).ne', Double.abs_fin, abs_neg,
        abs_of_nonneg relative]
      by_cases larger : q < mesh.outflow data elm / mesh.poreVolume data elm
      · rw [if_pos ((Double.fin_lt_fin _ _).mpr larger)]
        refine ⟨_, rfl, relative, ?_⟩
        intro other member
        rw [List.mem_append, List.mem_singleton] at member
        obtain earlier | rfl := member
        · exact (below other earlier).trans larger.le
        · exact le_rfl
      · rw [if_neg (mt (Double.fin_lt_fin _ _).mp larger)]
        refine ⟨q, rfl, nonneg, ?_⟩
        intro other member
        rw [List.mem_append, List.mem_singleton] at member
        obtain earlier | rfl := member
        · exact below other earlier
        · exact not_lt.mp larger)
  obtain ⟨q, same, nonneg, below⟩ := bounds
  refine ⟨q, ?_, nonneg, fun elm => below elm (List.mem_finRange elm)⟩
  unfold cflMaxStep
  rw [same]

/-- In a step within the limit at most the content of an element flows out. -/
theorem outflow_le_one (positive : Positive mesh data) {dt : ℚ} (forward : 0 < dt)
    (within : .fin dt ≤ mesh.cflMaxStep data) (elm : Fin n) :
    mesh.outflow data elm / mesh.poreVolume data elm * dt ≤ 1 := by
  obtain ⟨maxSum, limit, nonneg, below⟩ := maxSum_bounds positive
  have outflow := below elm
  obtain still | flows := nonneg.eq_or_lt
  · have none_ : mesh.outflow data elm / mesh.poreVolume data elm ≤ 0 := by rwa [still]
    nlinarith
  · rw [limit, Double.fin_div_fin flows.ne', Double.fin_le_fin, le_div_iff₀ flows] at within
    calc
      mesh.outflow data elm / mesh.poreVolume data elm * dt ≤ maxSum * dt := by gcongr
      _ = dt * maxSum := mul_comm _ _
      _ ≤ 1 := within

theorem step_entries_nonneg (positive : Positive mesh data) {dt : ℚ} (forward : 0 < dt)
    (within : .fin dt ≤ mesh.cflMaxStep data) (i j : Fin n) :
    (((mesh.assembleMatrix data).scale (.fin dt)).shift (.fin 1) i j).FiniteNonneg := by
  by_cases same : i = j
  · cases same
    rw [TransportMatrix.shift_diagonal]
    unfold TransportMatrix.scale
    rw [assembleMatrix_diagonal, diagonal_eq (positive.poreVolume i).ne', Double.fin_mul_fin,
      Double.fin_add_fin]
    have content := outflow_le_one positive forward within i
    exact .of_fin (by linarith)
  · rw [TransportMatrix.shift_offDiagonal _ _ same]
    exact (assembleMatrix_offDiagonal positive same).mul (.of_fin forward.le)

theorem assembleBoundary_nonneg (positive : Positive mesh data)
    (bcConc : ∀ boundary sbi, 0 ≤ data.bcConc boundary sbi) (sbi : Fin nSubst)
    (elm : Fin n) : (mesh.assembleBoundary data sbi elm).FiniteNonneg := by
  unfold assembleBoundary
  apply foldl_preserves (mesh.sides elm) _ _ (fun _ value => Double.FiniteNonneg value) .zero
  intro seen side remaining value split nonneg
  cases side.cond with
  | none => exact nonneg
  | some boundary =>
      simp only
      split_ifs with into
      · rw [relativeFlux_fin (positive.poreVolume elm).ne']
        refine nonneg.add ((Double.FiniteNonneg.of_fin (bcConc boundary sbi)).mul ?_)
        change Double.FiniteNonneg (.fin (-(data.sideFlux side.side / _)))
        rw [← neg_div]
        exact .of_fin (div_nonneg (by linarith) (positive.poreVolume elm).le)
      · exact nonneg

end TransportMesh

namespace TransportMatrix

variable {n : ℕ}

theorem multAdd_nonneg {matrix : TransportMatrix n} {x y : Fin n → Double}
    (entries : ∀ i j, (matrix i j).FiniteNonneg) (left : ∀ j, (x j).FiniteNonneg)
    (right : ∀ i, (y i).FiniteNonneg) (i : Fin n) : (matrix.multAdd x y i).FiniteNonneg := by
  unfold multAdd
  apply foldl_preserves (List.finRange n) _ _ (fun _ sum => Double.FiniteNonneg sum) (right i)
  intro seen j remaining sum split nonneg
  exact nonneg.add ((entries i j).mul (left j))

end TransportMatrix

namespace TransportVectors

variable {n nSubst : ℕ}

def Nonneg (vectors : TransportVectors n nSubst) : Prop :=
  ∀ sbi elm, (vectors sbi elm).FiniteNonneg

end TransportVectors

namespace Sources

variable {n nSubst : ℕ} {sources : Sources n nSubst}

theorem Nonneg.computeConcentrationSources (nonneg : sources.Nonneg) {dt : ℚ}
    (forward : 0 < dt) {vconc : TransportVectors n nSubst} (conc : vconc.Nonneg) :
    (sources.computeConcentrationSources (.fin dt) vconc).Nonneg := by
  intro sbi elm
  obtain ⟨value, -, finite⟩ := conc sbi elm
  have density := Double.FiniteNonneg.of_fin (nonneg.density sbi elm)
  unfold Sources.computeConcentrationSources
  simp only [finite, Double.fin_sub_fin, Double.fin_lt_fin]
  split_ifs with above
  · exact (density.add ((Double.FiniteNonneg.of_fin above.le).mul
      (.of_fin (nonneg.sigma sbi elm)))).mul (.of_fin forward.le)
  · exact density.mul (.of_fin forward.le)

end Sources

namespace ConvectionTransport

variable {n nSubst : ℕ} {mesh : TransportMesh n}

/-- A step of a length up to the limit of the matrix that it multiplies with, and with
boundary concentrations and sources that are not negative. -/
structure ExplicitStep (mesh : TransportMesh n) (marks : TimeMarks)
    (input : StepInput n nSubst) (sources : Sources n nSubst)
    (convection : ConvectionTransport n nSubst) (dt : ℚ) : Prop where
  step : (convection.computeOneStep mesh marks input).time.timeStep = .fin dt
  forward : 0 < dt
  within : .fin dt ≤ mesh.cflMaxStep input.data
  scaled : ScaledBy mesh input.data (.fin dt) (convection.computeOneStep mesh marks input)
  positive : mesh.Positive input.data
  bcConc : ∀ boundary sbi, 0 ≤ input.data.bcConc boundary sbi
  noSink : sources.Nonneg
  sourcesCorr : input.sourcesCorr = sources.computeConcentrationSources
    (convection.computeOneStep mesh marks input).time.timeStep convection.vconc

def TakesExplicitStep (mesh : TransportMesh n) (state : Observed n nSubst) :
    Request n nSubst → Prop
  | .setTargetTime _ _ _ => True
  | .computeOneStep marks input =>
      ∃ sources dt, ExplicitStep mesh marks input sources state.convection dt

theorem ExplicitStep.vconc_nonneg {marks : TimeMarks} {input : StepInput n nSubst}
    {sources : Sources n nSubst} {convection : ConvectionTransport n nSubst} {dt : ℚ}
    (taken : ExplicitStep mesh marks input sources convection dt)
    (nonneg : convection.vconc.Nonneg) :
    (convection.computeOneStep mesh marks input).vconc.Nonneg := by
  intro sbi elm
  have corr := taken.noSink.computeConcentrationSources taken.forward nonneg
  rw [computeOneStep_vconc, taken.scaled.tm, taken.scaled.bcvcorr,
    taken.sourcesCorr, taken.step]
  apply TransportMatrix.multAdd_nonneg
    (TransportMesh.step_entries_nonneg taken.positive taken.forward taken.within)
    (nonneg sbi)
  intro i
  have boundary := TransportMesh.assembleBoundary_nonneg taken.positive taken.bcConc
    sbi i
  exact ((Double.FiniteNonneg.of_fin zero_le_one).mul
    (boundary.mul (.of_fin taken.forward.le))).add (corr sbi i)

theorem request_vconc_nonneg {state : Observed n nSubst} {request : Request n nSubst}
    (nonneg : state.convection.vconc.Nonneg) (takes : TakesExplicitStep mesh state request) :
    (state.request mesh request).convection.vconc.Nonneg := by
  cases request with
  | setTargetTime marks targetTime isTime => exact nonneg
  | computeOneStep marks input =>
      obtain ⟨sources, dt, taken⟩ := takes
      exact taken.vconc_nonneg nonneg

theorem run_vconc_nonneg {state : Observed n nSubst} {requests : List (Request n nSubst)}
    (nonneg : state.convection.vconc.Nonneg)
    (takes : AlongRun (Observed.request mesh) (TakesExplicitStep mesh) state requests) :
    AlongRun (Observed.request mesh)
      (fun state request => (state.request mesh request).convection.vconc.Nonneg) state
      requests :=
  AlongRun.of_invariant (fun state => state.convection.vconc.Nonneg)
    (fun _ _ nonneg takes => request_vconc_nonneg nonneg takes)
    (fun _ _ nonneg takes => request_vconc_nonneg nonneg takes) nonneg takes

/-- The transport matrix and the steps within its limit keep concentrations from becoming
negative. -/
theorem explicit_steps_nonnegative (mesh : TransportMesh n) :
    (∀ data : TransportData n nSubst, mesh.Positive data →
      (∀ i j, i ≠ j → (mesh.assembleMatrix data i j).FiniteNonneg) ∧
      ∀ dt : ℚ, 0 < dt → .fin dt ≤ mesh.cflMaxStep data → ∀ i j,
        (((mesh.assembleMatrix data).scale (.fin dt)).shift (.fin 1) i j).FiniteNonneg) ∧
    ∀ (state : Observed n nSubst) (requests : List (Request n nSubst)),
      state.convection.vconc.Nonneg →
      AlongRun (Observed.request mesh) (TakesExplicitStep mesh) state requests →
      AlongRun (Observed.request mesh)
        (fun state request => (state.request mesh request).convection.vconc.Nonneg) state
        requests := by
  constructor
  · intro data positive
    exact ⟨fun i j off => TransportMesh.assembleMatrix_offDiagonal positive off,
      fun dt forward within => TransportMesh.step_entries_nonneg positive forward within⟩
  · intro state requests nonneg takes
    exact run_vconc_nonneg nonneg takes

theorem oneElement_positive : oneElement.Positive unitFlow :=
  ⟨fun _ => one_pos, fun _ => one_pos, fun _ => one_pos⟩

def noSources : Sources 1 1 := ⟨fun _ _ => 0, fun _ _ => 0, fun _ _ => 0⟩

theorem explicit_steps_nonnegative_unit_flow :
    (oneElement.assembleMatrix unitFlow 0 0 + .fin 1).FiniteNonneg ∧
      AlongRun (Observed.request oneElement)
        (fun state request =>
          (state.request oneElement request).convection.vconc.Nonneg)
        ⟨unitConvection, none⟩
        [.setTargetTime (TimeGovernor.tenUnitsMarks 10) (.fin 1) (by decide),
          .computeOneStep (TimeGovernor.tenUnitsMarks 1) (unitInput false)] := by
  obtain ⟨matrix, run⟩ := @explicit_steps_nonnegative 1 1 oneElement
  constructor
  · have entry := (matrix unitFlow oneElement_positive).2 1 one_pos (by decide +kernel) 0 0
    rw [TransportMatrix.shift_diagonal] at entry
    unfold TransportMatrix.scale at entry
    rwa [Double.mul_one] at entry
  · refine run ⟨unitConvection, none⟩ _ (fun _ _ => .zero) ⟨trivial, ?_, trivial⟩
    exact ⟨noSources, 1,
      { step := by decide +kernel
        forward := one_pos
        within := by decide +kernel
        scaled := ⟨by decide +kernel, by decide +kernel⟩
        positive := oneElement_positive
        bcConc := fun _ _ => zero_le_one
        noSink := ⟨fun _ _ => le_rfl, fun _ _ => le_rfl⟩
        sourcesCorr := by decide +kernel }⟩

end ConvectionTransport

end Flow123d
