import Flow123d.Flow.SteadyBlocks
import Flow123d.Flow.UpdateSolution
import Mathlib.LinearAlgebra.Matrix.Nondegenerate

/-!
# The same solution for every number of complements

Both eliminations invert a block of the system: the local matrices, and then the diagonal
element block of the first complement. What they resolve is the solution of the whole system.
-/

set_option autoImplicit false

namespace Flow123d

open Flow123d.Library Matrix

variable {mesh : FlowMesh}

/-! ## The local matrices -/

namespace MHFEValues

variable {n : ℕ} (entry : Fin n → Fin n → ℚ)

theorem locMatrix_symmetric (i j : Fin n) : locMatrix entry i j = locMatrix entry j i := by
  unfold locMatrix
  rcases lt_trichotomy i j with less | rfl | greater
  · rw [if_pos less.le, if_neg less.not_ge]
  · rfl
  · rw [if_neg greater.not_ge, if_pos greater.le]

theorem invLocMatrix_transpose : (invLocMatrix entry)ᵀ = invLocMatrix entry := by
  have symmetric : (locMatrix entry)ᵀ = locMatrix entry := by
    ext i j
    exact locMatrix_symmetric entry j i
  unfold invLocMatrix
  rw [transpose_smul, adjugate_transpose, symmetric]

theorem numZero_pos : 0 < numZero := by
  unfold numZero
  positivity

theorem invLocMatrix_mul (regular : singular entry = false) :
    invLocMatrix entry * locMatrix entry = 1 := by
  have bounded : ¬|(locMatrix entry).det| < numZero := of_decide_eq_false regular
  have nonzero : (locMatrix entry).det ≠ 0 := by
    intro zero
    rw [zero, abs_zero] at bounded
    exact bounded numZero_pos
  unfold invLocMatrix
  rw [Matrix.smul_mul, adjugate_mul, smul_smul, inv_mul_cancel₀ nonzero, one_smul]

end MHFEValues

theorem FlowData.update_ok {data : FlowData mesh}
    {inverse : (elm : mesh.Element) → Matrix (Fin (mesh.dim elm + 1)) (Fin (mesh.dim elm + 1)) ℚ}
    (updated : data.update = .ok inverse) :
    (inverse = fun elm => MHFEValues.invLocMatrix (data.localMatrix elm)) ∧
      ∀ elm, MHFEValues.singular (data.localMatrix elm) = false := by
  unfold update at updated
  split_ifs at updated with some
  cases updated
  refine ⟨rfl, fun elm => ?_⟩
  rw [Bool.not_eq_true, List.any_eq_false] at some
  exact Bool.eq_false_iff.mpr (some elm (List.mem_finRange elm))

namespace DarcyFlow

/-! ## The blocks of a state -/

def rowEquiv : mesh.Side ⊕ (mesh.Element ⊕ mesh.Edge) ≃ mesh.Row where
  toFun := blockRow
  invFun := rowBlock
  left_inv := by rintro (_ | _ | _) <;> rfl
  right_inv := by rintro (_ | _ | _) <;> rfl

theorem det_blocks (system : UnsteadySystem mesh) :
    (blocks system).matrix.det = system.matrix.det :=
  det_submatrix_equiv_self rowEquiv system.matrix

theorem blocks_solved {system : UnsteadySystem mesh}
    {solution : mesh.Side ⊕ (mesh.Element ⊕ mesh.Edge) → ℚ}
    (solved : (blocks system).matrix *ᵥ solution = (blocks system).rhs) :
    system.matrix *ᵥ (solution ∘ rowBlock) = system.rhs := by
  have moved := submatrix_mulVec_equiv system.matrix solution blockRow rowEquiv
  funext row
  have atBlock := congrFun (moved.symm.trans solved) (rowBlock row)
  have back : blockRow (rowBlock row) = row := rowEquiv.right_inv row
  change (system.matrix *ᵥ _) (blockRow (rowBlock row)) =
    system.rhs (blockRow (rowBlock row)) at atBlock
  rw [back] at atBlock
  exact atBlock

/-- The system is the steady one up to a diagonal that the rows of sides do not have. -/
def NearSteady (data : FlowData mesh) (system : UnsteadySystem mesh) : Prop :=
  ∃ time : mesh.Row → ℚ, (∀ side, time (.side side) = 0) ∧
    system.matrix = DarcyFlowMHSteady.assembledMatrix data.filled + diagonal time

namespace NearSteady

variable {data : FlowData mesh} {system : UnsteadySystem mesh}
  {inverse : (elm : mesh.Element) → Matrix (Fin (mesh.dim elm + 1)) (Fin (mesh.dim elm + 1)) ℚ}

theorem symmetric (near : NearSteady data system) : system.matrixᵀ = system.matrix := by
  obtain ⟨time, -, matrix⟩ := near
  rw [matrix, transpose_add, diagonal_transpose, DarcyFlowMHSteady.assembledMatrix_symmetric]
  intro elm i j
  exact MHFEValues.locMatrix_symmetric (data.localMatrix elm) i j

theorem side_side (near : NearSteady data system) (row col : mesh.Side) :
    system.matrix (.side row) (.side col) = data.filled.fluxBlock row col := by
  obtain ⟨time, zero, matrix⟩ := near
  rw [matrix, Matrix.add_apply, DarcyFlowMHSteady.assembledMatrix_side_side]
  by_cases same : row = col
  · subst same
    rw [diagonal_apply_eq, zero, add_zero]
  · rw [diagonal_apply_ne _ (mt FlowMesh.Row.side.inj same), add_zero]

theorem side_element (near : NearSteady data system) (side : mesh.Side) (elm : mesh.Element) :
    system.matrix (.side side) (.element elm) = if side.1 = elm then -1 else 0 := by
  obtain ⟨time, -, matrix⟩ := near
  have differ : FlowMesh.Row.side side ≠ FlowMesh.Row.element elm := nofun
  rw [matrix, Matrix.add_apply, DarcyFlowMHSteady.assembledMatrix_side_element,
    diagonal_apply_ne _ differ, add_zero]

theorem element_element (near : NearSteady data system) {row col : mesh.Element}
    (differ : row ≠ col) : system.matrix (.element row) (.element col) = 0 := by
  obtain ⟨time, -, matrix⟩ := near
  rw [matrix, Matrix.add_apply, DarcyFlowMHSteady.assembledMatrix_element_element,
    if_neg differ, diagonal_apply_ne _ (mt FlowMesh.Row.element.inj differ), add_zero]

/-- `IA1` inverts the flux block. -/
theorem eliminates_sides (near : NearSteady data system) (updated : data.update = .ok inverse) :
    Eliminates (blockDiagonal' inverse) (blocks system) := by
  obtain ⟨rfl, regular⟩ := FlowData.update_ok updated
  refine ⟨?_, ?_, ?_⟩
  · have block : (blocks system).matrix.toBlocks₁₁ = data.filled.fluxBlock := by
      ext row col
      exact near.side_side row col
    rw [block]
    unfold FlowData.fluxBlock
    rw [← blockDiagonal'_mul, ← blockDiagonal'_one]
    congr 1
    funext elm
    exact MHFEValues.invLocMatrix_mul (data.localMatrix elm) (regular elm)
  · rw [blockDiagonal'_transpose]
    congr 1
    funext elm
    exact MHFEValues.invLocMatrix_transpose (data.localMatrix elm)
  · ext row col
    exact congrFun (congrFun near.symmetric (blockRow row)) (blockRow col)

end NearSteady

/-- The entry of an element on the diagonal of the first complement. -/
def pivot (data : FlowData mesh) (system : UnsteadySystem mesh) (elm : mesh.Element) : ℚ :=
  (∑ i, ∑ j, MHFEValues.invLocMatrix (data.localMatrix elm) i j) -
    system.matrix (.element elm) (.element elm)

/-- Definite local matrices and an element block without positive entries have no zero
pivot. -/
theorem pivot_pos {data : FlowData mesh} {system : UnsteadySystem mesh} {elm : mesh.Element}
    (regular : MHFEValues.singular (data.localMatrix elm) = false)
    (definite : ∀ flux ≠ 0, 0 < flux ⬝ᵥ MHFEValues.locMatrix (data.localMatrix elm) *ᵥ flux)
    (entry : system.matrix (.element elm) (.element elm) ≤ 0) : 0 < pivot data system elm := by
  have right := mul_eq_one_comm.mp (MHFEValues.invLocMatrix_mul (data.localMatrix elm) regular)
  have product : MHFEValues.locMatrix (data.localMatrix elm) *ᵥ
      (MHFEValues.invLocMatrix (data.localMatrix elm) *ᵥ 1) = 1 := by
    rw [mulVec_mulVec, right, one_mulVec]
  have nonzero : MHFEValues.invLocMatrix (data.localMatrix elm) *ᵥ 1 ≠ 0 := by
    intro zero
    rw [zero, mulVec_zero] at product
    exact zero_ne_one (congrFun product 0)
  have positive := definite _ nonzero
  rw [product, dotProduct_one] at positive
  have sums : (∑ i, (MHFEValues.invLocMatrix (data.localMatrix elm) *ᵥ 1) i) =
      ∑ i, ∑ j, MHFEValues.invLocMatrix (data.localMatrix elm) i j := by
    refine Finset.sum_congr rfl fun i _ => ?_
    rw [mulVec, dotProduct_one]
  rw [sums] at positive
  unfold pivot
  linarith

namespace NearSteady

variable {data : FlowData mesh} {system : UnsteadySystem mesh}
  {inverse : (elm : mesh.Element) → Matrix (Fin (mesh.dim elm + 1)) (Fin (mesh.dim elm + 1)) ℚ}

theorem product_element (near : NearSteady data system) (row col : mesh.Element) :
    ((blocks system).matrix.toBlocks₂₁ * (blockDiagonal' inverse *
        (blocks system).matrix.toBlocks₁₂)) (.inl row) (.inl col) =
      if row = col then ∑ i, ∑ j, inverse row i j else 0 := by
  have ofSide : ∀ side, (blocks system).matrix.toBlocks₂₁ (.inl row) side =
      if side.1 = row then -1 else 0 := by
    intro side
    rw [← near.side_element side row]
    exact congrFun (congrFun near.symmetric (.side side)) (.element row)
  have toSide : ∀ side, (blocks system).matrix.toBlocks₁₂ side (.inl col) =
      if side.1 = col then -1 else 0 := fun side => near.side_element side col
  have inner : ∀ (elm : mesh.Element) (i : Fin (mesh.dim elm + 1)),
      (blockDiagonal' inverse * (blocks system).matrix.toBlocks₁₂) ⟨elm, i⟩ (.inl col) =
        if elm = col then -∑ j, inverse elm i j else 0 := by
    intro elm i
    rw [Matrix.mul_apply, Fintype.sum_sigma, Finset.sum_eq_single col]
    · by_cases here : elm = col
      · subst here
        simp [toSide, blockDiagonal'_apply_eq]
      · simp [toSide, blockDiagonal'_apply_ne _ _ _ here, here]
    · intro other _ elsewhere
      simp [toSide, elsewhere]
    · intro outside
      exact absurd (Finset.mem_univ col) outside
  rw [Matrix.mul_apply, Fintype.sum_sigma, Finset.sum_eq_single row]
  · by_cases same : row = col
    · subst same
      simp [ofSide, inner]
    · simp [inner, same]
  · intro other _ elsewhere
    simp [ofSide, elsewhere]
  · intro outside
    exact absurd (Finset.mem_univ row) outside

theorem formSchur_element (near : NearSteady data system) (updated : data.update = .ok inverse)
    (row col : mesh.Element) :
    (SchurComplement.formSchur (blockDiagonal' inverse) (blocks system)).matrix
        (.inl row) (.inl col) = if row = col then pivot data system row else 0 := by
  rw [SchurComplement.formSchur_matrix, Matrix.sub_apply, near.product_element]
  change _ - system.matrix (.element row) (.element col) = _
  by_cases same : row = col
  · subst same
    rw [if_pos rfl, if_pos rfl, (FlowData.update_ok updated).1]
    rfl
  · rw [if_neg same, if_neg same, near.element_element same, sub_zero]

/-- `IA2` inverts the element block of the first complement. -/
theorem eliminates_elements (near : NearSteady data system) (updated : data.update = .ok inverse)
    (pivots : ∀ elm, pivot data system elm ≠ 0) :
    Eliminates (diagonal fun elm => (pivot data system elm)⁻¹)
      (SchurComplement.formSchur (blockDiagonal' inverse) (blocks system)) := by
  refine ⟨?_, diagonal_transpose _, (near.eliminates_sides updated).formSchur_symmetric⟩
  have block : (SchurComplement.formSchur (blockDiagonal' inverse)
      (blocks system)).matrix.toBlocks₁₁ = diagonal (pivot data system) := by
    ext row col
    exact near.formSchur_element updated row col
  rw [block, diagonal_mul_diagonal, ← diagonal_one]
  congr 1
  funext elm
  exact inv_mul_cancel₀ (pivots elm)

end NearSteady

/-! ## One solution -/

/-- The blocks that the complements leave in `IA1` and `IA2`. -/
structure Inserted (state : DarcyFlow mesh) : Prop where
  ia1 : ∀ row col, row.1 ≠ col.1 → state.ia1 row col = 0
  ia2 : ∀ row col, row ≠ col → state.ia2 row col = 0

theorem makeSchur1_eq {ia1 : Matrix mesh.Side mesh.Side ℚ}
    (zero : ∀ row col, row.1 ≠ col.1 → ia1 row col = 0)
    (inverse : (elm : mesh.Element) →
      Matrix (Fin (mesh.dim elm + 1)) (Fin (mesh.dim elm + 1)) ℚ) :
    makeSchur1 ia1 inverse = blockDiagonal' inverse := by
  ext row col
  unfold makeSchur1
  by_cases same : row.1 = col.1
  · rw [if_pos same]
  · rw [if_neg same, zero row col same, blockDiagonal'_apply_ne _ _ _ same]

theorem makeSchur2_eq {ia2 : Matrix mesh.Element mesh.Element ℚ}
    (zero : ∀ row col, row ≠ col → ia2 row col = 0)
    (schur1 : LinSys (mesh.Element ⊕ mesh.Edge)) :
    makeSchur2 ia2 schur1 = diagonal fun elm => (schur1.matrix (.inl elm) (.inl elm))⁻¹ := by
  ext row col
  unfold makeSchur2
  by_cases same : row = col
  · subst same
    rw [if_pos rfl, diagonal_apply_eq]
  · rw [if_neg same, zero row col same, diagonal_apply_ne _ same]

variable {data : FlowData mesh} {state : DarcyFlow mesh} {solver : ExactSolver}
  {inverse : (elm : mesh.Element) → Matrix (Fin (mesh.dim elm + 1)) (Fin (mesh.dim elm + 1)) ℚ}

/-- What the solver finds for the whole system. -/
def wholeSolution (solver : ExactSolver) (state : DarcyFlow mesh) : mesh.Row → ℚ :=
  solver.solve ⟨state.schur0.matrix, state.schur0.rhs⟩

theorem eq_wholeSolution (solver : ExactSolver) (regular : state.schur0.matrix.det ≠ 0)
    {solution : mesh.Row → ℚ} (solved : state.schur0.matrix *ᵥ solution = state.schur0.rhs) :
    solution = wholeSolution solver state :=
  mulVec_injective_of_det_ne_zero regular
    (solved.trans (solver.exact ⟨state.schur0.matrix, state.schur0.rhs⟩ regular).symm)

theorem solveSystem_one (near : NearSteady data state.schur0) (inserted : Inserted state)
    (updated : data.update = .ok inverse) (regular : state.schur0.matrix.det ≠ 0) :
    solveSystem 1 solver data state =
      .ok { state.withSolution (wholeSolution solver state) with
        ia1 := blockDiagonal' inverse } := by
  have eliminates := near.eliminates_sides updated
  have whole := blocks_solved (eliminates.resolve_solves
    (solver.exact _ (eliminates.formSchur_regular ((det_blocks state.schur0).trans_ne regular))))
  have same := eq_wholeSolution solver regular whole
  unfold solveSystem
  rw [updated]
  change Except.ok _ = Except.ok _
  rw [makeSchur1_eq inserted.ia1 inverse, same]

theorem solveSystem_two (near : NearSteady data state.schur0) (inserted : Inserted state)
    (updated : data.update = .ok inverse) (regular : state.schur0.matrix.det ≠ 0)
    (pivots : ∀ elm, pivot data state.schur0 elm ≠ 0) :
    solveSystem 2 solver data state =
      .ok { state.withSolution (wholeSolution solver state) with
        ia1 := blockDiagonal' inverse
        ia2 := diagonal fun elm => (pivot data state.schur0 elm)⁻¹ } := by
  have sides := near.eliminates_sides updated
  have elements := near.eliminates_elements updated pivots
  have regular1 := sides.formSchur_regular ((det_blocks state.schur0).trans_ne regular)
  have regular2 := SchurComplement.scale_regular (neg_ne_zero.mpr one_ne_zero)
    (elements.formSchur_regular regular1)
  have edges := SchurComplement.scale_solved (neg_ne_zero.mpr one_ne_zero)
    (solver.exact _ regular2)
  have whole := blocks_solved (sides.resolve_solves (elements.resolve_solves edges))
  have same := eq_wholeSolution solver regular whole
  have diagonalEntries : makeSchur2 state.ia2
      (SchurComplement.formSchur (blockDiagonal' inverse) (blocks state.schur0)) =
        diagonal fun elm => (pivot data state.schur0 elm)⁻¹ := by
    rw [makeSchur2_eq inserted.ia2]
    congr 1
    funext elm
    rw [near.formSchur_element updated, if_pos rfl]
  unfold solveSystem
  rw [updated]
  change Except.ok _ = Except.ok _
  rw [makeSchur1_eq inserted.ia1 inverse, diagonalEntries, same]

/-! ## What the steps keep -/

/-- The time term never reaches the rows of the sides. -/
structure Keeps (flowClass : FlowClass) (data : FlowData mesh) (system : UnsteadySystem mesh) :
    Prop where
  near : NearSteady data system
  term : flowClass ≠ .steady →
    system.steadyDiagonal = (DarcyFlowMHSteady.assembledMatrix data.filled).diag ∧
      ∀ side, system.newDiagonal (.side side) = 0

variable {flowClass : FlowClass}

theorem Keeps.modifySystem {system : UnsteadySystem mesh} (keeps : Keeps flowClass data system)
    (time : TimeGovernor) : Keeps flowClass data (flowClass.modifySystem time system) := by
  cases flowClass with
  | steady => exact keeps
  | unsteady flow =>
      obtain ⟨steadyDiagonal, newDiagonal⟩ := keeps.term nofun
      unfold FlowClass.modifySystem UnsteadySystem.modifySystem
      cases time.dtChanged with
      | false => exact ⟨keeps.near, fun _ => ⟨steadyDiagonal, newDiagonal⟩⟩
      | true =>
          obtain ⟨steadyTime, -, matrix⟩ := keeps.near
          have restored : UnsteadySystem.insertDiagonal system.matrix system.steadyDiagonal =
              DarcyFlowMHSteady.assembledMatrix data.filled := by
            ext row col
            unfold UnsteadySystem.insertDiagonal
            by_cases same : row = col
            · rw [if_pos same, steadyDiagonal, same, diag_apply]
            · rw [if_neg same, matrix, Matrix.add_apply, diagonal_apply_ne _ same, add_zero]
          generalize time.lastTimeStep.value / time.timeStep.value = factor
          have scaled : ∀ side, (system.rescaled factor).newDiagonal (.side side) = 0 := by
            intro side
            change system.newDiagonal (.side side) * factor = 0
            rw [newDiagonal, zero_mul]
          refine ⟨⟨(system.rescaled factor).newDiagonal, scaled, ?_⟩,
            fun _ => ⟨steadyDiagonal, scaled⟩⟩
          change UnsteadySystem.addDiagonal (UnsteadySystem.insertDiagonal system.matrix
            system.steadyDiagonal) _ = _
          rw [restored]
          rfl

theorem Keeps.solved {system : UnsteadySystem mesh} (keeps : Keeps flowClass data system)
    (now : FlowData mesh) (dt : ℚ) (solution : mesh.Row → ℚ) :
    Keeps flowClass data (flowClass.postprocess now dt { system with solution := solution }) := by
  rcases flowClass with _ | _ | _ <;> exact ⟨keeps.near, keeps.term⟩

theorem create_eq (data : FlowData mesh) (flowClass : FlowClass) (time : TimeGovernor)
    (supported : data.filled.supported = true)
    (regular : ∀ elm, MHFEValues.singular (data.localMatrix elm) = false) :
    create flowClass data time =
      .ok ⟨⟨time, flowClass.setup data.filled ⟨DarcyFlowMHSteady.assembledMatrix data.filled,
        DarcyFlowMHSteady.assembledRhs data.filled⟩ time.timeStep.value⟩, 0, 0⟩ := by
  have assembled : DarcyFlowMHSteady.assemblySteadyMhMatrix data.filled =
      .ok ⟨DarcyFlowMHSteady.assembledMatrix data.filled,
        DarcyFlowMHSteady.assembledRhs data.filled⟩ := if_pos supported
  have noSingular : ¬((List.finRange mesh.nElements).any fun elm =>
      MHFEValues.singular (data.localMatrix elm)) = true := by
    rw [Bool.not_eq_true, List.any_eq_false]
    exact fun elm _ => Bool.eq_false_iff.mp (regular elm)
  have updated : data.update =
      .ok fun elm => MHFEValues.invLocMatrix (data.localMatrix elm) := if_neg noSingular
  unfold create DarcyFlowMHSteady.makeSchur0
  rw [assembled, updated]
  rfl

theorem makeSchur0_ok {steady : FlowSystem mesh}
    (made : DarcyFlowMHSteady.makeSchur0 data = .ok steady) :
    DarcyFlowMHSteady.assemblySteadyMhMatrix data.filled = .ok steady ∧
      steady = ⟨DarcyFlowMHSteady.assembledMatrix data.filled,
        DarcyFlowMHSteady.assembledRhs data.filled⟩ ∧
      ∃ inverse, data.update = .ok inverse := by
  unfold DarcyFlowMHSteady.makeSchur0 at made
  cases assembled : DarcyFlowMHSteady.assemblySteadyMhMatrix data.filled with
  | error message =>
      rw [assembled] at made
      cases made
  | ok system =>
      rw [assembled] at made
      cases updated : data.update with
      | error message =>
          rw [updated] at made
          cases made
      | ok inverse =>
          rw [updated] at made
          cases made
          refine ⟨rfl, ?_, inverse, rfl⟩
          unfold DarcyFlowMHSteady.assemblySteadyMhMatrix at assembled
          split_ifs at assembled
          cases assembled
          rfl

theorem create_ok {time : TimeGovernor} (created : create flowClass data time = .ok state) :
    Keeps flowClass data state.schur0 ∧ Inserted state ∧ ∃ inverse, data.update = .ok inverse := by
  unfold create at created
  cases made : DarcyFlowMHSteady.makeSchur0 data with
  | error message =>
      rw [made] at created
      cases created
  | ok steady =>
      rw [made] at created
      cases created
      obtain ⟨-, assembled, updated⟩ := makeSchur0_ok made
      refine ⟨?_, ⟨fun _ _ _ => rfl, fun _ _ _ => rfl⟩, updated⟩
      cases flowClass with
      | steady =>
          refine ⟨⟨0, fun _ => rfl, ?_⟩, fun differs => absurd rfl differs⟩
          rw [diagonal_zero', add_zero, assembled]
          rfl
      | unsteady flow =>
          have term : DarcyFlowUnsteady.HasTimeTerm flow data.filled steady
              (flow.setupTimeTerm data.filled steady time.timeStep.value)
                time.timeStep.value := .setup _
          have noSide : ∀ side, (flow.setupTimeTerm data.filled steady
              time.timeStep.value).newDiagonal (.side side) = 0 := by
            intro side
            rw [term.newDiagonal]
            change -((0 : ℚ) / _) = 0
            rw [zero_div, neg_zero]
          subst assembled
          exact ⟨⟨_, noSide, term.matrix⟩, fun _ => ⟨term.steadyDiagonal, noSide⟩⟩

/-! ## Runs -/

/-- The whole system of the call is regular. -/
def RegularAt (flowClass : FlowClass) (state : DarcyFlow mesh) : Call mesh → Prop
  | .updateSolution marks _ =>
      state.time.isEnd = false → (state.modified flowClass marks).schur0.matrix.det ≠ 0
  | _ => True

/-- The diagonal that the second elimination inverts has no zero. -/
def PivotsAt (data : FlowData mesh) (flowClass : FlowClass) (state : DarcyFlow mesh) :
    Call mesh → Prop
  | .updateSolution marks _ =>
      state.time.isEnd = false →
        ∀ elm, pivot data (state.modified flowClass marks).schur0 elm ≠ 0
  | _ => True

/-- It holds at each call of the run without complements. -/
def Along (flowClass : FlowClass) (solver : ExactSolver)
    (holds : DarcyFlow mesh → Call mesh → Prop) : DarcyFlow mesh → List (Call mesh) → Prop
  | _, [] => True
  | state, request :: rest =>
      holds state request ∧ ∀ next, call flowClass 0 solver state request = .ok next →
        Along flowClass solver holds next rest

/-- The fields do not depend on time. -/
def ConstantData (data : FlowData mesh) (calls : List (Call mesh)) : Prop :=
  ∀ marks now, .updateSolution marks now ∈ calls → now = data

/-- States that differ in the inverted blocks only. -/
structure Agrees (flowClass : FlowClass) (data : FlowData mesh) (state other : DarcyFlow mesh) :
    Prop where
  same : state.toDarcyFlowUnsteady = other.toDarcyFlowUnsteady
  keeps : Keeps flowClass data state.schur0
  inserted : Inserted other

namespace Agrees

variable {other : DarcyFlow mesh} {marks : TimeMarks} {nSchurs : ℕ}

theorem exists_blocks (agrees : Agrees flowClass data state other) :
    ∃ ia1 ia2, other = { state with ia1 := ia1, ia2 := ia2 } := by
  obtain ⟨unsteady, ia1, ia2⟩ := other
  obtain rfl : _ = unsteady := agrees.same
  exact ⟨ia1, ia2, rfl⟩

theorem modified (agrees : Agrees flowClass data state other) (marks : TimeMarks) :
    Agrees flowClass data (state.modified flowClass marks) (other.modified flowClass marks) := by
  obtain ⟨ia1, ia2, rfl⟩ := agrees.exists_blocks
  exact ⟨rfl, agrees.keeps.modifySystem _, agrees.inserted.ia1, agrees.inserted.ia2⟩

theorem postprocess (agrees : Agrees flowClass data state other) (now : FlowData mesh) :
    Agrees flowClass data (state.postprocess flowClass now)
      (other.postprocess flowClass now) := by
  obtain ⟨ia1, ia2, rfl⟩ := agrees.exists_blocks
  exact ⟨rfl, agrees.keeps.solved _ _ _, agrees.inserted.ia1, agrees.inserted.ia2⟩

theorem solveSystem (solver : ExactSolver) (agrees : Agrees flowClass data state other)
    (updated : data.update = .ok inverse) (eliminates : nSchurs = 1 ∨ nSchurs = 2)
    (regular : state.schur0.matrix.det ≠ 0)
    (pivots : nSchurs = 2 → ∀ elm, pivot data state.schur0 elm ≠ 0) :
    ∃ after, other.solveSystem nSchurs solver data = .ok after ∧
      Agrees flowClass data (state.withSolution (wholeSolution solver state)) after := by
  obtain ⟨ia1, ia2, rfl⟩ := agrees.exists_blocks
  obtain ⟨-, keeps, inserted⟩ := agrees
  have kept : Keeps flowClass data
      (state.withSolution (wholeSolution solver state)).schur0 := ⟨keeps.near, keeps.term⟩
  obtain rfl | rfl := eliminates
  · exact ⟨_, solveSystem_one keeps.near inserted updated regular, rfl, kept,
      fun _ _ differ => blockDiagonal'_apply_ne _ _ _ differ, inserted.ia2⟩
  · exact ⟨_, solveSystem_two keeps.near inserted updated regular (pivots rfl), rfl, kept,
      fun _ _ differ => blockDiagonal'_apply_ne _ _ _ differ,
      fun _ _ differ => diagonal_apply_ne _ differ⟩

theorem updateSolution (agrees : Agrees flowClass data state other)
    (updated : data.update = .ok inverse) (eliminates : nSchurs = 1 ∨ nSchurs = 2)
    (regular : RegularAt flowClass state (.updateSolution marks data))
    (pivots : nSchurs = 2 → PivotsAt data flowClass state (.updateSolution marks data)) :
    ∃ next after, state.updateSolution flowClass 0 solver marks data = .ok next ∧
      other.updateSolution flowClass nSchurs solver marks data = .ok after ∧
        Agrees flowClass data next after := by
  have sameTime : other.time = state.time := congrArg DarcyFlowUnsteady.time agrees.same.symm
  unfold DarcyFlow.updateSolution
  rw [sameTime]
  cases ended : state.time.isEnd with
  | true => exact ⟨state, other, rfl, rfl, agrees⟩
  | false =>
      obtain ⟨after, solved, stays⟩ := (agrees.modified marks).solveSystem solver updated
        eliminates (regular ended) fun two => pivots two ended
      refine ⟨_, _, rfl, ?_, stays.postprocess data⟩
      rw [if_neg Bool.false_ne_true, solved]
      rfl

theorem call (solver : ExactSolver) {request : Call mesh}
    (agrees : Agrees flowClass data state other) (updated : data.update = .ok inverse)
    (eliminates : nSchurs = 1 ∨ nSchurs = 2)
    (constant : ∀ marks now, request = .updateSolution marks now → now = data)
    (regular : RegularAt flowClass state request)
    (pivots : nSchurs = 2 → PivotsAt data flowClass state request) :
    ∃ next after, state.call flowClass 0 solver request = .ok next ∧
      other.call flowClass nSchurs solver request = .ok after ∧
        Agrees flowClass data next after := by
  cases request with
  | updateSolution marks now =>
      obtain rfl := constant marks now rfl
      exact agrees.updateSolution updated eliminates regular pivots
  | setTimeUpperConstraint dt =>
      obtain ⟨ia1, ia2, rfl⟩ := agrees.exists_blocks
      exact ⟨_, _, rfl, rfl, rfl, agrees.keeps, agrees.inserted.ia1, agrees.inserted.ia2⟩
  | setTimeLowerConstraint dt =>
      obtain ⟨ia1, ia2, rfl⟩ := agrees.exists_blocks
      exact ⟨_, _, rfl, rfl, rfl, agrees.keeps, agrees.inserted.ia1, agrees.inserted.ia2⟩
  | chooseNextTime marks =>
      obtain ⟨ia1, ia2, rfl⟩ := agrees.exists_blocks
      exact ⟨_, _, rfl, rfl, rfl, agrees.keeps, agrees.inserted.ia1, agrees.inserted.ia2⟩

theorem run {calls : List (Call mesh)} (agrees : Agrees flowClass data state other)
    (updated : data.update = .ok inverse) (eliminates : nSchurs = 1 ∨ nSchurs = 2)
    (constant : ConstantData data calls)
    (regular : Along flowClass solver (RegularAt flowClass) state calls)
    (pivots : nSchurs = 2 → Along flowClass solver (PivotsAt data flowClass) state calls) :
    ∃ final after, state.run flowClass 0 solver calls = .ok final ∧
      other.run flowClass nSchurs solver calls = .ok after ∧
        Agrees flowClass data final after := by
  induction calls generalizing state other with
  | nil => exact ⟨state, other, rfl, rfl, agrees⟩
  | cons request rest ih =>
      obtain ⟨next, after, called, otherCalled, stays⟩ := agrees.call solver updated
        eliminates (fun marks now equal => constant marks now (equal ▸ List.mem_cons_self))
          regular.1 fun two => (pivots two).1
      obtain ⟨final, last, ran, otherRan, agreed⟩ := ih stays
        (fun marks now member => constant marks now (List.mem_cons_of_mem _ member))
        (regular.2 next called) fun two => (pivots two).2 next called
      refine ⟨final, last, ?_, ?_, agreed⟩
      · unfold DarcyFlow.run
        rw [List.foldlM_cons, called]
        exact ran
      · unfold DarcyFlow.run
        rw [List.foldlM_cons, otherCalled]
        exact otherRan

end Agrees

/-- Time and vectors after the same calls do not depend on the number of complements. -/
structure SameSolution (flowClass : FlowClass) (solver : ExactSolver) (data : FlowData mesh)
    (start : DarcyFlow mesh) (calls : List (Call mesh)) : Prop where
  one : ∃ final, (start.run flowClass 0 solver calls).map DarcyFlow.toDarcyFlowUnsteady =
      .ok final ∧
    (start.run flowClass 1 solver calls).map DarcyFlow.toDarcyFlowUnsteady = .ok final
  two : Along flowClass solver (PivotsAt data flowClass) start calls →
    (start.run flowClass 2 solver calls).map DarcyFlow.toDarcyFlowUnsteady =
      (start.run flowClass 0 solver calls).map DarcyFlow.toDarcyFlowUnsteady

theorem run_sameSolution {time : TimeGovernor} {start : DarcyFlow mesh}
    (created : create flowClass data time = .ok start) {calls : List (Call mesh)}
    (constant : ConstantData data calls)
    (regular : Along flowClass solver (RegularAt flowClass) start calls) :
    SameSolution flowClass solver data start calls := by
  obtain ⟨keeps, inserted, inverse, updated⟩ := create_ok created
  have agrees : Agrees flowClass data start start := ⟨rfl, keeps, inserted⟩
  refine ⟨?_, ?_⟩
  · obtain ⟨final, after, ran, otherRan, same, -⟩ :=
      agrees.run updated (.inl rfl) constant regular (fun two => absurd two (by decide))
    rw [ran, otherRan]
    exact ⟨_, rfl, congrArg Except.ok same.symm⟩
  · intro pivots
    obtain ⟨final, after, ran, otherRan, same, -⟩ :=
      agrees.run updated (.inr rfl) constant regular fun _ => pivots
    rw [ran, otherRan]
    exact congrArg Except.ok same.symm

end DarcyFlow

/-! ## A closed line -/

/-- Cramer's rule. -/
def ExactSolver.cramer : ExactSolver where
  solve system place := (system.matrix.updateCol place system.rhs).det / system.matrix.det
  exact system regular := by
    have solved := mulVec_cramer system.matrix system.rhs
    have scaled : (fun place => (system.matrix.updateCol place system.rhs).det /
        system.matrix.det) = system.matrix.det⁻¹ • Matrix.cramer system.matrix system.rhs := by
      funext place
      rw [Pi.smul_apply, cramer_apply, smul_eq_mul, div_eq_inv_mul]
    rw [scaled, mulVec_smul, solved, smul_smul, inv_mul_cancel₀ regular, one_smul]

/-- The fields of a line without flow through its ends. -/
def FlowData.closedLine (storativity : ℚ) : FlowData FlowMesh.oneLine where
  crossSection := fun _ => 1
  storativity := fun _ => storativity
  initPressure := fun _ => 1
  waterSourceDensity := fun _ => 1
  sigma := fun _ => 0
  bcType := fun _ => .none
  bcPressure := fun _ => 0
  bcFlux := fun _ => 0
  bcRobinSigma := fun _ => 0
  localMatrix := fun _ i j => if i = j then 1 else 0

namespace DarcyFlow

def closedLine (storativity : ℚ) : DarcyFlow FlowMesh.oneLine where
  time := DarcyFlowUnsteady.oneLineTime
  schur0 := UnsteadyFlow.setupTimeTerm .mh (FlowData.closedLine storativity).filled
    ⟨DarcyFlowMHSteady.assembledMatrix (FlowData.closedLine storativity).filled,
      DarcyFlowMHSteady.assembledRhs (FlowData.closedLine storativity).filled⟩ 1
  ia1 := 0
  ia2 := 0

theorem create_closedLine (storativity : ℚ) :
    create (.unsteady .mh) (FlowData.closedLine storativity) DarcyFlowUnsteady.oneLineTime =
      .ok (closedLine storativity) := by
  have regular : ∀ elm, MHFEValues.singular ((FlowData.closedLine 0).localMatrix elm) = false := by
    decide +kernel
  have step : DarcyFlowUnsteady.oneLineTime.timeStep.value = 1 := by decide +kernel
  have created := create_eq (FlowData.closedLine storativity) (.unsteady .mh)
    DarcyFlowUnsteady.oneLineTime rfl regular
  rw [step] at created
  exact created

def closedLineCalls (storativity : ℚ) : List (Call FlowMesh.oneLine) :=
  [.updateSolution (TimeGovernor.tenUnitsMarks 10) (FlowData.closedLine storativity)]

theorem closedLine_constant (storativity : ℚ) :
    ConstantData (FlowData.closedLine storativity) (closedLineCalls storativity) := by
  intro marks now member
  cases List.mem_singleton.mp member
  rfl

/-- The system of the line with the entry of its element. -/
def closedLineMatrix (entry : ℚ) : Matrix FlowMesh.oneLine.Row FlowMesh.oneLine.Row ℚ
  | .side i, .side j => if i = j then 1 else 0
  | .side _, .element _ => -1
  | .element _, .side _ => -1
  | .side i, .edge k => if FlowMesh.oneLine.edgeIdx i = k then 1 else 0
  | .edge k, .side i => if FlowMesh.oneLine.edgeIdx i = k then 1 else 0
  | .element _, .element _ => entry
  | _, _ => 0

theorem closedLine_matrix {storativity : ℚ} (known : storativity = 1 ∨ storativity = -2) :
    ((closedLine storativity).modified (.unsteady .mh)
      (TimeGovernor.tenUnitsMarks 10)).schur0.matrix = closedLineMatrix (-storativity) := by
  obtain rfl | rfl := known <;> decide +kernel

theorem closedLine_regular (solver : ExactSolver) {storativity : ℚ}
    (known : storativity = 1 ∨ storativity = -2) :
    Along (.unsteady .mh) solver (RegularAt (.unsteady .mh)) (closedLine storativity)
      (closedLineCalls storativity) := by
  refine ⟨fun _ => ?_, fun _ _ => trivial⟩
  rw [closedLine_matrix known]
  obtain rfl | rfl := known <;> decide +kernel

theorem run_sameSolution_closedLine :
    SameSolution (.unsteady .mh) .cramer (FlowData.closedLine 1) (closedLine 1)
      (closedLineCalls 1) :=
  run_sameSolution (create_closedLine 1) (closedLine_constant 1)
    (closedLine_regular .cramer (.inl rfl))

/-- A negative storativity can make the second elimination divide by zero. -/
theorem not_always_sameSolution :
    ¬ ∀ (mesh : FlowMesh) (flowClass : FlowClass) (solver : ExactSolver) (data : FlowData mesh)
      (time : TimeGovernor) (start : DarcyFlow mesh) (calls : List (Call mesh)),
      create flowClass data time = .ok start → ConstantData data calls →
        Along flowClass solver (RegularAt flowClass) start calls → ∀ nSchurs ≤ 2,
          (start.run flowClass nSchurs solver calls).map DarcyFlow.toDarcyFlowUnsteady =
            (start.run flowClass 0 solver calls).map DarcyFlow.toDarcyFlowUnsteady := by
  intro always
  have same := always _ _ .cramer _ _ _ _ (create_closedLine (-2)) (closedLine_constant (-2))
    (closedLine_regular .cramer (.inr rfl)) 2 le_rfl
  have element := congrArg (Except.map fun state : DarcyFlowUnsteady FlowMesh.oneLine =>
    state.schur0.solution (.element ⟨0, Nat.one_pos⟩)) same
  exact absurd element (by decide +kernel)

end DarcyFlow

end Flow123d
