import Flow123d.Transport.TransportDG

/-!
# Current data in the transport systems

The objects that a time step solves with are those of the current fields and fluxes when the
fields that no guard covers have kept their values, and the mass matrix is assembled once.
-/

set_option autoImplicit false

namespace Flow123d

open Flow123d.Library Matrix

namespace TransportDG

variable {K : Type} {dg : TransportDG K}

/-! ## Fields of the same values -/

/-- No field of the stiffness matrix differs. -/
structure EqData.SameStiffness (data now : EqData dg) : Prop where
  porM : now.porM = data.porM
  crossSection : now.crossSection = data.crossSection
  dispL : now.dispL = data.dispL
  dispT : now.dispT = data.dispT
  diffM : now.diffM = data.diffM
  sigmaC : now.sigmaC = data.sigmaC
  dgPenalty : now.dgPenalty = data.dgPenalty
  sourcesSigma : now.sourcesSigma = data.sourcesSigma

/-- No field of the penalties of the boundary differs. -/
structure EqData.SamePenalty (data now : EqData dg) : Prop where
  porM : now.porM = data.porM
  crossSection : now.crossSection = data.crossSection
  dispL : now.dispL = data.dispL
  dispT : now.dispT = data.dispT
  diffM : now.diffM = data.diffM
  dgPenalty : now.dgPenalty = data.dgPenalty

theorem EqData.SameStiffness.samePenalty {data now : EqData dg}
    (same : data.SameStiffness now) : data.SamePenalty now :=
  ⟨same.porM, same.crossSection, same.dispL, same.dispT, same.diffM, same.dgPenalty⟩

namespace EqData

variable [Field K] [LinearOrder K] {data now : EqData dg} {fluxes : SideFluxes K}
  {sbi : Fin dg.nSubst}

theorem assembleMassMatrix_congr (porM : now.porM = data.porM)
    (crossSection : now.crossSection = data.crossSection) :
    now.assembleMassMatrix = data.assembleMassMatrix := by
  unfold assembleMassMatrix localMassMatrix
  rw [porM, crossSection]

theorem SameStiffness.assembleStiffnessMatrix (same : data.SameStiffness now) :
    now.assembleStiffnessMatrix fluxes sbi = data.assembleStiffnessMatrix fluxes sbi := by
  obtain ⟨porM, crossSection, dispL, dispT, diffM, sigmaC, dgPenalty, sourcesSigma⟩ := same
  cases data
  cases now
  dsimp only at porM crossSection dispL dispT diffM sigmaC dgPenalty sourcesSigma
  subst porM crossSection dispL dispT diffM sigmaC dgPenalty sourcesSigma
  rfl

theorem SamePenalty.storeGamma (same : data.SamePenalty now) (gamma : ℕ → K) :
    now.storeGamma fluxes sbi gamma = data.storeGamma fluxes sbi gamma := by
  obtain ⟨porM, crossSection, dispL, dispT, diffM, dgPenalty⟩ := same
  cases data
  cases now
  dsimp only at porM crossSection dispL dispT diffM dgPenalty
  subst porM crossSection dispL dispT diffM dgPenalty
  rfl

/-- The penalties of all boundaries are stored anew. -/
theorem storeGamma_storeGamma (other : SideFluxes K) (gamma : ℕ → K) :
    now.storeGamma fluxes sbi (data.storeGamma other sbi gamma) =
      now.storeGamma fluxes sbi gamma := by
  refine writeAll_writeAll fun b written => ?_
  simpa [Overwritten, Function.comp_def] using written

end EqData

/-! ## Runs -/

/-- What `set_time` promises of the fields of the equation. The cross section belongs to the
flow equation, which sets its time. -/
structure Call.Honest (call : Call dg) (data : EqData dg) : Prop where
  porM : call.changed.porM = false → call.data.porM = data.porM
  dispL : call.changed.dispL = false → call.data.dispL = data.dispL
  dispT : call.changed.dispT = false → call.data.dispT = data.dispT
  diffM : call.changed.diffM = false → call.data.diffM = data.diffM
  sigmaC : call.changed.sigmaC = false → call.data.sigmaC = data.sigmaC
  dgPenalty : call.changed.dgPenalty = false → call.data.dgPenalty = data.dgPenalty
  sourcesDensity : call.changed.sourcesDensity = false →
    call.data.sourcesDensity = data.sourcesDensity
  sourcesSigma : call.changed.sourcesSigma = false → call.data.sourcesSigma = data.sourcesSigma
  sourcesConc : call.changed.sourcesConc = false → call.data.sourcesConc = data.sourcesConc
  bcConc : call.changed.bcConc = false → call.data.bcConc = data.bcConc

variable [Field K] [LinearOrder K]

namespace State

/-- After the first call the mass matrix is not assembled again, and what the guards leave out
changes only together with a guarded quantity. -/
structure Meets (state : State dg) (call : Call dg) : Prop where
  porM : state.allocationDone = true → call.changed.porM = false
  crossSection : state.allocationDone = true → call.changed.crossSection = false ∧
    call.data.crossSection = state.data.crossSection
  sourcesSigma : state.allocationDone = true → state.stiffnessGuard call.changed = true ∨
    call.data.sourcesSigma = state.data.sourcesSigma
  dispersion : state.allocationDone = true → state.rhsGuard call.changed = true ∨
    call.data.dispL = state.data.dispL ∧ call.data.dispT = state.data.dispT ∧
      call.data.diffM = state.data.diffM

def initial (data : EqData dg) (fluxes : SideFluxes K) (solution : Fin dg.nSubst → dg.Row → K) :
    State dg where
  data := data
  fluxes := fluxes
  fluxChanged := true
  allocationDone := false
  gamma := 0
  massMatrix := none
  stiffnessMatrix := none
  rhs := none
  solution := solution

/-- The states of the runs in which all calls of `update_solution` are allowed. -/
inductive Reached (allowed : State dg → Call dg → Prop) (solver : System dg → dg.Row → K) :
    State dg → Prop where
  | create (data : EqData dg) (fluxes : SideFluxes K) (solution : Fin dg.nSubst → dg.Row → K) :
      Reached allowed solver (initial data fluxes solution)
  | velocity {state : State dg} (reached : Reached allowed solver state)
      (fluxes : SideFluxes K) : Reached allowed solver (state.setVelocityField fluxes)
  | update {state : State dg} {call : Call dg} (reached : Reached allowed solver state)
      (honest : call.Honest state.data) (permitted : allowed state call) :
      Reached allowed solver (state.updateSolution solver call)

/-- The objects are assembled from scratch from the given fields and fluxes. -/
structure Assembled (data : EqData dg) (fluxes : SideFluxes K) (state : State dg) : Prop where
  massMatrix : state.massMatrix = some (addMatrixValues 0 data.assembleMassMatrix)
  stiffnessMatrix : state.stiffnessMatrix = some fun sbi =>
    addMatrixValues 0 (data.assembleStiffnessMatrix fluxes sbi)
  gamma : state.gamma = fun sbi => data.storeGamma fluxes sbi 0
  rhs : state.rhs = some fun sbi => addValues 0
    (data.setSources sbi ++ data.setBoundaryConditions fluxes sbi (data.storeGamma fluxes sbi 0))

/-- The invariant of the runs. -/
structure Kept (state : State dg) : Prop where
  fresh : state.allocationDone = false → state.gamma = 0
  assembled : state.allocationDone = true → ∃ fluxes,
    (state.fluxChanged = false → state.fluxes = fluxes) ∧ state.Assembled state.data fluxes

variable {state : State dg} {call : Call dg}

@[simp] theorem allocate_of_done (done : state.allocationDone = true) :
    state.allocate = state := if_pos done

theorem updateStiffness_of_guard {changed : Changed}
    (guard : state.stiffnessGuard changed = true) :
    state.updateStiffness changed =
      { state with
        stiffnessMatrix := some fun sbi =>
          addMatrixValues 0 (state.data.assembleStiffnessMatrix state.fluxes sbi)
        gamma := fun sbi => state.data.storeGamma state.fluxes sbi (state.gamma sbi) } :=
  if_pos guard

theorem updateStiffness_of_unguarded {changed : Changed}
    (guard : state.stiffnessGuard changed = false) : state.updateStiffness changed = state :=
  if_neg (by simp [guard])

theorem updateRhs_of_guard {changed : Changed} (guard : state.rhsGuard changed = true) :
    state.updateRhs changed =
      { state with
        rhs := some fun sbi => addValues 0 (state.data.setSources sbi ++
          state.data.setBoundaryConditions state.fluxes sbi (state.gamma sbi)) } :=
  if_pos guard

theorem updateRhs_of_unguarded {changed : Changed} (guard : state.rhsGuard changed = false) :
    state.updateRhs changed = state :=
  if_neg (by simp [guard])

@[simp] theorem allocate_allocationDone (state : State dg) :
    state.allocate.allocationDone = true := by
  unfold allocate
  split_ifs with done
  · exact done
  · rfl

@[simp] theorem updateMass_allocationDone (state : State dg) (changed : Changed) :
    (state.updateMass changed).allocationDone = state.allocationDone := by
  unfold updateMass
  split_ifs <;> rfl

@[simp] theorem updateStiffness_allocationDone (state : State dg) (changed : Changed) :
    (state.updateStiffness changed).allocationDone = state.allocationDone := by
  unfold updateStiffness
  split_ifs <;> rfl

@[simp] theorem updateRhs_allocationDone (state : State dg) (changed : Changed) :
    (state.updateRhs changed).allocationDone = state.allocationDone := by
  unfold updateRhs
  split_ifs <;> rfl

theorem prepare_allocationDone (state : State dg) (call : Call dg) :
    (state.prepare call).allocationDone = true := by
  simp [prepare]

/-- The first call assembles everything. -/
theorem Kept.first (kept : state.Kept) (fresh : state.allocationDone = false) :
    (state.prepare call).Assembled call.data state.fluxes := by
  have gamma := kept.fresh fresh
  constructor <;>
    simp [prepare, allocate, fresh, updateMass, updateStiffness, stiffnessGuard, updateRhs,
      rhsGuard, gamma, EqData.storeGamma_storeGamma]

omit [Field K] [LinearOrder K] in
theorem Meets.sameStiffness (meets : state.Meets call) (honest : call.Honest state.data)
    (done : state.allocationDone = true) (unguarded : state.stiffnessGuard call.changed = false) :
    state.data.SameStiffness call.data := by
  have flags := unguarded
  simp only [stiffnessGuard, Bool.or_eq_false_iff] at flags
  obtain ⟨⟨⟨⟨⟨⟨⟨⟨-, -⟩, dispL⟩, dispT⟩, diffM⟩, sigmaC⟩, dgPenalty⟩, porM⟩, -⟩ := flags
  exact
    { porM := honest.porM porM
      crossSection := (meets.crossSection done).2
      dispL := honest.dispL dispL
      dispT := honest.dispT dispT
      diffM := honest.diffM diffM
      sigmaC := honest.sigmaC sigmaC
      dgPenalty := honest.dgPenalty dgPenalty
      sourcesSigma := (meets.sourcesSigma done).resolve_left (by simp [unguarded]) }

/-- The guard of the right-hand side is false, so that its fields are the same. -/
structure SameRhs (state : State dg) (call : Call dg) : Prop where
  samePenalty : state.data.SamePenalty call.data
  setSources : ∀ sbi, call.data.setSources sbi = state.data.setSources sbi
  bcConc : call.data.bcConc = state.data.bcConc

theorem Meets.sameRhs (meets : state.Meets call) (honest : call.Honest state.data)
    (done : state.allocationDone = true) (unguarded : state.rhsGuard call.changed = false) :
    state.SameRhs call := by
  have flags := unguarded
  simp only [rhsGuard, Bool.or_eq_false_iff] at flags
  obtain ⟨⟨⟨⟨⟨⟨-, -⟩, bcConc⟩, dgPenalty⟩, sourcesConc⟩, sourcesDensity⟩, sourcesSigma⟩ := flags
  obtain ⟨dispL, dispT, diffM⟩ := (meets.dispersion done).resolve_left (by simp [unguarded])
  refine ⟨⟨honest.porM (meets.porM done), (meets.crossSection done).2, dispL, dispT, diffM,
    honest.dgPenalty dgPenalty⟩, fun sbi => ?_, honest.bcConc bcConc⟩
  unfold EqData.setSources EqData.sourceTerm
  rw [honest.sourcesDensity sourcesDensity, honest.sourcesConc sourcesConc,
    honest.sourcesSigma sourcesSigma]

theorem setBoundaryConditions_congr {data now : EqData dg} (bcConc : now.bcConc = data.bcConc)
    (fluxes : SideFluxes K) (sbi : Fin dg.nSubst) (gamma : ℕ → K) :
    now.setBoundaryConditions fluxes sbi gamma = data.setBoundaryConditions fluxes sbi gamma := by
  unfold EqData.setBoundaryConditions
  rw [bcConc]

/-- What a later call assembles of the stiffness matrices and penalties, or finds there. -/
theorem Kept.later_stiffness (kept : state.Kept) (honest : call.Honest state.data)
    (meets : state.Meets call) (done : state.allocationDone = true) :
    ({ state with data := call.data }.updateStiffness call.changed) =
      { state with
        data := call.data
        stiffnessMatrix := some fun sbi =>
          addMatrixValues 0 (call.data.assembleStiffnessMatrix state.fluxes sbi)
        gamma := fun sbi => call.data.storeGamma state.fluxes sbi 0 } := by
  obtain ⟨fluxes, same, assembled⟩ := kept.assembled done
  let now : State dg := { state with data := call.data }
  cases guard : now.stiffnessGuard call.changed with
  | true =>
      rw [updateStiffness_of_guard guard]
      simp only [now, assembled.gamma, EqData.storeGamma_storeGamma]
  | false =>
      have unguarded := meets.sameStiffness honest done guard
      have unchanged : state.fluxChanged = false := by
        simp only [stiffnessGuard, Bool.or_eq_false_iff] at guard
        exact guard.1.1.1.1.1.1.1.2
      rw [updateStiffness_of_unguarded guard]
      simp only [now, same unchanged, unguarded.assembleStiffnessMatrix,
        unguarded.samePenalty.storeGamma, ← assembled.stiffnessMatrix, ← assembled.gamma]

/-- A later call that meets the condition solves with current objects, too. -/
theorem Kept.later (kept : state.Kept) (honest : call.Honest state.data)
    (meets : state.Meets call) (done : state.allocationDone = true) :
    (state.prepare call).Assembled call.data state.fluxes := by
  obtain ⟨fluxes, same, assembled⟩ := kept.assembled done
  have mass : ({ state with data := call.data }.updateMass call.changed) =
      { state with data := call.data } := by
    refine if_neg ?_
    simp [assembled.massMatrix, (meets.crossSection done).1, meets.porM done]
  have massMatrix : state.massMatrix =
      some (addMatrixValues 0 call.data.assembleMassMatrix) := by
    rw [assembled.massMatrix, EqData.assembleMassMatrix_congr (honest.porM (meets.porM done))
      (meets.crossSection done).2]
  let middle : State dg :=
    { state with
      data := call.data
      stiffnessMatrix := some fun sbi =>
        addMatrixValues 0 (call.data.assembleStiffnessMatrix state.fluxes sbi)
      gamma := fun sbi => call.data.storeGamma state.fluxes sbi 0 }
  have stages : state.prepare call =
      { middle.updateRhs call.changed with fluxChanged := false } := by
    have start : ({ state with data := call.data } : State dg).allocate =
        { state with data := call.data } := if_pos done
    unfold prepare
    rw [start, mass]
    dsimp only
    rw [kept.later_stiffness honest meets done]
  rw [stages]
  cases guard : middle.rhsGuard call.changed with
  | true =>
      rw [updateRhs_of_guard guard]
      exact ⟨massMatrix, rfl, rfl, rfl⟩
  | false =>
      obtain ⟨samePenalty, setSources, bcConc⟩ := meets.sameRhs honest done guard
      have unchanged : state.fluxChanged = false := by
        simp only [rhsGuard, Bool.or_eq_false_iff] at guard
        exact guard.1.1.1.1.1.2
      rw [updateRhs_of_unguarded guard]
      refine ⟨massMatrix, rfl, rfl, ?_⟩
      change state.rhs = _
      simp only [assembled.rhs, setSources, setBoundaryConditions_congr bcConc,
        samePenalty.storeGamma, same unchanged]

/-- The stages of a call change only the objects that are kept. -/
structure SameInputs (state after : State dg) : Prop where
  data : after.data = state.data
  fluxes : after.fluxes = state.fluxes
  solution : after.solution = state.solution

omit [Field K] [LinearOrder K] in
theorem SameInputs.trans {first second third : State dg} (left : first.SameInputs second)
    (right : second.SameInputs third) : first.SameInputs third :=
  ⟨right.data.trans left.data, right.fluxes.trans left.fluxes,
    right.solution.trans left.solution⟩

theorem allocate_sameInputs (state : State dg) : state.SameInputs state.allocate := by
  unfold allocate
  split_ifs <;> exact ⟨rfl, rfl, rfl⟩

theorem updateMass_sameInputs (state : State dg) (changed : Changed) :
    state.SameInputs (state.updateMass changed) := by
  unfold updateMass
  split_ifs <;> exact ⟨rfl, rfl, rfl⟩

theorem updateStiffness_sameInputs (state : State dg) (changed : Changed) :
    state.SameInputs (state.updateStiffness changed) := by
  unfold updateStiffness
  split_ifs <;> exact ⟨rfl, rfl, rfl⟩

theorem updateRhs_sameInputs (state : State dg) (changed : Changed) :
    state.SameInputs (state.updateRhs changed) := by
  unfold updateRhs
  split_ifs <;> exact ⟨rfl, rfl, rfl⟩

theorem prepare_sameInputs (state : State dg) (call : Call dg) :
    ({ state with data := call.data } : State dg).SameInputs (state.prepare call) := by
  have stages := (((allocate_sameInputs { state with data := call.data }).trans
    (updateMass_sameInputs _ call.changed)).trans
      (updateStiffness_sameInputs _ call.changed)).trans (updateRhs_sameInputs _ call.changed)
  exact ⟨stages.data, stages.fluxes, stages.solution⟩

/-! ## The invariant of a run -/

theorem Kept.prepare (kept : state.Kept) (honest : call.Honest state.data)
    (meets : state.Meets call) : (state.prepare call).Assembled call.data state.fluxes := by
  cases done : state.allocationDone with
  | false => exact kept.first done
  | true => exact kept.later honest meets done

theorem Kept.velocity (kept : state.Kept) (fluxes : SideFluxes K) :
    (state.setVelocityField fluxes).Kept where
  fresh := kept.fresh
  assembled := by
    intro done
    obtain ⟨earlier, -, assembled⟩ := kept.assembled done
    refine ⟨earlier, fun unchanged => ?_, ⟨assembled.massMatrix, assembled.stiffnessMatrix,
      assembled.gamma, assembled.rhs⟩⟩
    exact absurd unchanged nofun

theorem Kept.update (kept : state.Kept) (solver : System dg → dg.Row → K)
    (honest : call.Honest state.data) (meets : state.Meets call) :
    (state.updateSolution solver call).Kept where
  fresh := by
    intro undone
    have done := prepare_allocationDone state call
    exact absurd (done.symm.trans undone) nofun
  assembled := by
    intro _
    obtain ⟨data, fluxes, -⟩ := prepare_sameInputs state call
    have assembled := kept.prepare honest meets
    refine ⟨state.fluxes, fun _ => fluxes, ?_⟩
    have current : (state.updateSolution solver call).data = call.data := data
    rw [current]
    exact ⟨assembled.massMatrix, assembled.stiffnessMatrix, assembled.gamma, assembled.rhs⟩

theorem Reached.kept {solver : System dg → dg.Row → K} (reached : Reached Meets solver state) :
    state.Kept := by
  induction reached with
  | create data fluxes solution => exact ⟨fun _ => rfl, nofun⟩
  | velocity _ fluxes kept => exact kept.velocity fluxes
  | update _ honest meets kept => exact kept.update solver honest meets

/-- In every run whose calls meet the condition, each call solves with the objects that are
assembled from scratch from its fields and fluxes. -/
theorem reached_assembled {solver : System dg → dg.Row → K} (reached : Reached Meets solver state)
    (honest : call.Honest state.data) (meets : state.Meets call) :
    (state.prepare call).Assembled call.data state.fluxes :=
  reached.kept.prepare honest meets

end State

/-! ## A line element -/

/-- A line element of length 1 with elements of order 0. -/
def line : TransportDG ℚ :=
  let mesh : Mesh :=
    { nodeVector := [![0, 0, 0], ![1, 0, 0]]
      element := [⟨1, 1, ![0, 1], Element.line_dimLe⟩]
      bcElements := []
      bulkDim := Mesh.unitLine.bulkDim }
  { mesh := mesh
    topology := mesh.makeNeighboursAndEdges.toOption.getD mesh.initialTopology
    accepted := AcceptedMesh.unitLine_accepted
    nonDegenerate := AcceptedMesh.unitLine_nonDegenerate
    numerics :=
      { pow := fun base _ => if base = 8 then 2 else base
        log := fun _ => 0
        sqrt := fun x => x
        pinv := fun _ jac => jac.transpose }
    permutationIdx := fun _ => 0
    q := fun _ => ⟨1, fun _ _ => 1 / 2, fun _ => 1⟩
    dgOrder := 0
    dgVariant := .nonSymmetric
    nSubst := 1
    bulkSize := 1
    boundarySize := 1
    bulkIdx := fun _ => 0
    boundaryIdx := fun _ => 0 }

def lineData (porM bcConc : ℚ) : EqData line where
  porM := fun _ _ => porM
  crossSection := fun _ _ => 1
  dispL := fun _ _ _ => 0
  dispT := fun _ _ _ => 0
  diffM := fun _ _ _ => 0
  sigmaC := fun _ _ _ => 0
  dgPenalty := fun _ _ _ => 1
  sourcesDensity := fun _ _ _ => 0
  sourcesSigma := fun _ _ _ => 0
  sourcesConc := fun _ _ _ => 0
  bcConc := fun _ _ _ => bcConc

/-- Water flows from the first node to the second. -/
def lineFluxes : SideFluxes ℚ where
  sideFlux := fun si => if si.elIdx = 0 then -1 else 1
  precision := 1 / 1000

/-- A call that reports changes of the porosity and of the boundary concentration. -/
def lineCall (porM bcConc : ℚ) (porChanged : Bool) : Call line where
  data := lineData porM bcConc
  changed := ⟨porChanged, false, false, false, false, false, false, false, false, false, true⟩
  dt := 1

theorem lineCall_honest {porM bcConc earlier : ℚ} {data : EqData line}
    (before : data = lineData porM earlier) :
    (lineCall porM bcConc false).Honest data := by
  subst before
  constructor <;> intro flag <;> first | rfl | cases flag

namespace State

theorem reached_assembled_line :
    (((initial (lineData 1 0) lineFluxes 0).updateSolution (fun system => system.rhs)
      (lineCall 1 1 false)).prepare (lineCall 1 2 false)).Assembled (lineData 1 2) lineFluxes :=
  reached_assembled
    (.update (.create _ _ _) (lineCall_honest rfl) ⟨nofun, nofun, nofun, nofun⟩)
    (lineCall_honest rfl)
    ⟨fun _ => rfl, fun _ => ⟨rfl, rfl⟩, fun _ => .inr rfl, fun _ => .inr ⟨rfl, rfl, rfl⟩⟩

/-- The porosity of the line changes from 1 to 8 after the first call. -/
theorem not_always_assembled :
    ¬ ∀ (solver : System line → line.Row → ℚ) (state : State line) (call : Call line),
      Reached (fun _ _ => True) solver state → call.Honest state.data →
        (state.prepare call).Assembled call.data state.fluxes := by
  intro always
  have first : (lineCall 1 0 false).Honest (lineData 1 0) := lineCall_honest rfl
  have second : (lineCall 8 0 true).Honest (lineData 1 0) := by
    constructor <;> intro flag <;> first | rfl | cases flag
  have assembled := always (fun _ => 0) _ (lineCall 8 0 true)
    (.update (.create (lineData 1 0) lineFluxes 0) first trivial) second
  let row : line.Row := ⟨⟨0, by decide⟩, ⟨0, by decide⟩⟩
  have entry := congrArg (fun stored => (stored.getD 0) row row) assembled.massMatrix
  revert entry
  decide +kernel

end State

end TransportDG

end Flow123d
