import Mathlib.LinearAlgebra.Matrix.Symmetric
import Flow123d.Library.RowOperations

/-!
# Schur complements of a linear system

`SchurComplement` on matrices of the type `MPIAIJ`. The sub-matrices, the products and the
scaling are those of exact arithmetic, and what was computed for an earlier complement is
overwritten.
-/

set_option autoImplicit false

namespace Flow123d

open Flow123d.Library Matrix

structure LinSys (ρ : Type) where
  matrix : Matrix ρ ρ ℚ
  rhs : ρ → ℚ

/-- A solver that solves every regular system. -/
structure ExactSolver where
  solve : {ρ : Type} → [Fintype ρ] → [DecidableEq ρ] → LinSys ρ → ρ → ℚ
  exact : ∀ {ρ : Type} [Fintype ρ] [DecidableEq ρ] (system : LinSys ρ),
    system.matrix.det ≠ 0 → system.matrix *ᵥ solve system = system.rhs

variable {α β : Type} [Fintype α]

namespace SchurComplement

/-- The right-hand side is that of `form_rhs`. -/
def formSchur (ia : Matrix α α ℚ) (orig : LinSys (α ⊕ β)) : LinSys β :=
  let b := orig.matrix.toBlocks₁₂
  let bt := orig.matrix.toBlocks₂₁
  let iab := ia * b
  { matrix := bt * iab + (-1 : ℚ) • orig.matrix.toBlocks₂₂
    rhs := iabᵀ *ᵥ (orig.rhs ∘ Sum.inl) - orig.rhs ∘ Sum.inr }

def scale (scalar : ℚ) (compl : LinSys β) : LinSys β where
  matrix := scalar • compl.matrix
  rhs := scalar • compl.rhs

theorem formSchur_matrix (ia : Matrix α α ℚ) (orig : LinSys (α ⊕ β)) :
    (formSchur ia orig).matrix =
      orig.matrix.toBlocks₂₁ * (ia * orig.matrix.toBlocks₁₂) - orig.matrix.toBlocks₂₂ := by
  change _ + (-1 : ℚ) • _ = _
  rw [neg_one_smul, ← sub_eq_add_neg]

/-- `Sol2` shares its memory with the solution of the original system. -/
def resolve [Fintype β] (ia : Matrix α α ℚ) (orig : LinSys (α ⊕ β)) (sol2 : β → ℚ) : α ⊕ β → ℚ :=
  Sum.elim (ia *ᵥ (orig.rhs ∘ Sum.inl) - (ia * orig.matrix.toBlocks₁₂) *ᵥ sol2) sol2

end SchurComplement

/-- What the elimination of the first block needs. -/
structure Eliminates [DecidableEq α] (ia : Matrix α α ℚ) (orig : LinSys (α ⊕ β)) : Prop where
  inverse : ia * orig.matrix.toBlocks₁₁ = 1
  symmetricInverse : iaᵀ = ia
  symmetric : orig.matrixᵀ = orig.matrix

namespace Eliminates

variable [DecidableEq α] {ia : Matrix α α ℚ} {orig : LinSys (α ⊕ β)}

theorem transpose_block (eliminates : Eliminates ia orig) :
    orig.matrix.toBlocks₁₂ᵀ = orig.matrix.toBlocks₂₁ := by
  ext row col
  exact congrFun (congrFun eliminates.symmetric (Sum.inr row)) (Sum.inl col)

theorem formSchur_rhs (eliminates : Eliminates ia orig) :
    (SchurComplement.formSchur ia orig).rhs =
      orig.matrix.toBlocks₂₁ *ᵥ (ia *ᵥ (orig.rhs ∘ Sum.inl)) - orig.rhs ∘ Sum.inr := by
  change (ia * orig.matrix.toBlocks₁₂)ᵀ *ᵥ _ - _ = _
  rw [transpose_mul, eliminates.transpose_block, eliminates.symmetricInverse, mulVec_mulVec]

theorem formSchur_symmetric (eliminates : Eliminates ia orig) :
    (SchurComplement.formSchur ia orig).matrixᵀ =
      (SchurComplement.formSchur ia orig).matrix := by
  have first := eliminates.transpose_block
  have second : orig.matrix.toBlocks₂₁ᵀ = orig.matrix.toBlocks₁₂ := by
    rw [← first, transpose_transpose]
  have last : orig.matrix.toBlocks₂₂ᵀ = orig.matrix.toBlocks₂₂ := by
    ext row col
    exact congrFun (congrFun eliminates.symmetric (Sum.inr row)) (Sum.inr col)
  rw [SchurComplement.formSchur_matrix, transpose_sub, transpose_mul, transpose_mul, first,
    second, last, eliminates.symmetricInverse, Matrix.mul_assoc]

variable [Fintype β]

theorem formSchur_regular [DecidableEq β] (eliminates : Eliminates ia orig)
    (regular : orig.matrix.det ≠ 0) : (SchurComplement.formSchur ia orig).matrix.det ≠ 0 := by
  rw [SchurComplement.formSchur_matrix]
  refine det_complement_ne_zero _ _ _ eliminates.inverse ?_
  rwa [fromBlocks_toBlocks]

/-- A solution of the complement gives one of the whole system. -/
theorem resolve_solves (eliminates : Eliminates ia orig) {sol2 : β → ℚ}
    (solved : (SchurComplement.formSchur ia orig).matrix *ᵥ sol2 =
      (SchurComplement.formSchur ia orig).rhs) :
    orig.matrix *ᵥ SchurComplement.resolve ia orig sol2 = orig.rhs := by
  rw [SchurComplement.formSchur_matrix, eliminates.formSchur_rhs] at solved
  obtain ⟨first, second⟩ := (solves_iff_complement orig.matrix.toBlocks₁₂
    orig.matrix.toBlocks₂₁ orig.matrix.toBlocks₂₂ eliminates.inverse _ (orig.rhs ∘ Sum.inl) sol2
      (orig.rhs ∘ Sum.inr)).mpr ⟨solved, rfl⟩
  rw [← fromBlocks_toBlocks orig.matrix, fromBlocks_mulVec]
  unfold SchurComplement.resolve
  rw [Sum.elim_comp_inl, Sum.elim_comp_inr, first, second]
  exact Sum.elim_comp_inl_inr orig.rhs

end Eliminates

theorem SchurComplement.scale_solved [Fintype β] {scalar : ℚ} (nonzero : scalar ≠ 0)
    {compl : LinSys β} {solution : β → ℚ}
    (solved : (scale scalar compl).matrix *ᵥ solution = (scale scalar compl).rhs) :
    compl.matrix *ᵥ solution = compl.rhs := by
  unfold scale at solved
  rw [smul_mulVec] at solved
  exact smul_right_injective _ nonzero solved

theorem SchurComplement.scale_regular [Fintype β] [DecidableEq β] {scalar : ℚ}
    (nonzero : scalar ≠ 0) {compl : LinSys β} (regular : compl.matrix.det ≠ 0) :
    (scale scalar compl).matrix.det ≠ 0 := by
  unfold scale
  rw [det_smul]
  exact mul_ne_zero (pow_ne_zero _ nonzero) regular

end Flow123d

/-!
## Rounds of a Schur complement

The object of `SchurComplement` on matrices of the type `MPIAIJ`: its blocks are created by the
first `form_schur` and written over by the later ones, the values of the original system change
in between.
-/

namespace Flow123d

open Flow123d.Library Matrix

inductive SchurState where
  | created
  | formed
  | solved
  deriving DecidableEq

inductive MatReuse where
  | initialMatrix
  | reuseMatrix

/-- `compl` is the matrix of `Compl`. -/
structure SchurBlocks (α β : Type) where
  b : Matrix α β ℚ
  iab : Matrix α β ℚ
  bt : Matrix β α ℚ
  xa : Matrix β β ℚ
  compl : Matrix β β ℚ

/-- `solution` is that of `Orig`, whose parts are `Sol1` and `Sol2`. -/
structure SchurObject (α β : Type) where
  orig : LinSys (α ⊕ β)
  solution : α ⊕ β → ℚ
  ia : Matrix α α ℚ
  blocks : Option (SchurBlocks α β)
  complRhs : β → ℚ
  state : SchurState

namespace SchurObject

variable {α β : Type}

def create (orig : LinSys (α ⊕ β)) (solution : α ⊕ β → ℚ) (ia : Matrix α α ℚ)
    (complRhs : β → ℚ) : SchurObject α β where
  orig
  solution
  ia
  blocks := none
  complRhs
  state := .created

/-- The matrices of an earlier complement have to exist when they are reused. -/
def storeBlocks (matReuse : MatReuse) (stored : Option (SchurBlocks α β))
    (blocks : SchurBlocks α β) : Option (SchurBlocks α β) :=
  match matReuse, stored with
  | .reuseMatrix, none => none
  | .reuseMatrix, some _ => some blocks
  | .initialMatrix, _ => some blocks

section Operations

variable [Fintype α]

def formBlocks (ia : Matrix α α ℚ) (orig : LinSys (α ⊕ β)) : SchurBlocks α β :=
  let b := orig.matrix.toBlocks₁₂
  let iab := ia * b
  let bt := orig.matrix.toBlocks₂₁
  let xa := bt * iab
  let scaled := (-1 : ℚ) • orig.matrix.toBlocks₂₂
  { b, iab, bt, xa, compl := (1 : ℚ) • xa + scaled }

def formRhs (object : SchurObject α β) : Option (SchurObject α β) := do
  let blocks ← object.blocks
  let product := blocks.iabᵀ *ᵥ (object.orig.rhs ∘ Sum.inl)
  some { object with
    complRhs := (-1 : ℚ) • (object.orig.rhs ∘ Sum.inr) + product
    state := .formed }

def formSchur (object : SchurObject α β) : Option (SchurObject α β) := do
  let matReuse := if object.state = .created then .initialMatrix else .reuseMatrix
  let blocks ← storeBlocks matReuse object.blocks (formBlocks object.ia object.orig)
  let withRhs ← formRhs { object with blocks := some blocks }
  some { withRhs with state := .formed }

def scale (object : SchurObject α β) (scalar : ℚ) : Option (SchurObject α β) := do
  guard (object.state = .formed)
  let blocks ← object.blocks
  some { object with
    blocks := some { blocks with compl := scalar • blocks.compl }
    complRhs := scalar • object.complRhs }

/-- The solver writes the solution of the complement. -/
def writeSol2 (object : SchurObject α β) (sol2 : β → ℚ) : SchurObject α β :=
  { object with solution := Sum.elim (object.solution ∘ Sum.inl) sol2 }

def resolve [Fintype β] (object : SchurObject α β) : Option (SchurObject α β) := do
  let blocks ← object.blocks
  let sol1 := (-1 : ℚ) • (blocks.iab *ᵥ (object.solution ∘ Sum.inr))
  some { object with
    solution := Sum.elim (object.ia *ᵥ (object.orig.rhs ∘ Sum.inl) + sol1)
      (object.solution ∘ Sum.inr) }

def solve [Fintype β] (object : SchurObject α β) (sol2 : β → ℚ) : Option (SchurObject α β) := do
  let ready ← (if object.state ≠ .formed then formSchur object else some object)
  let resolved ← resolve (writeSol2 ready sol2)
  some { resolved with state := .solved }

/-- One call of a method, or other values of the original system. -/
inductive Step [Fintype β] : SchurObject α β → SchurObject α β → Prop where
  | assemble (object : SchurObject α β) (orig : LinSys (α ⊕ β)) (ia : Matrix α α ℚ) :
      Step object { object with orig, ia }
  | formSchur {object after : SchurObject α β} (call : object.formSchur = some after) :
      Step object after
  | formRhs {object after : SchurObject α β} (call : object.formRhs = some after) :
      Step object after
  | scale {object after : SchurObject α β} {scalar : ℚ}
      (call : object.scale scalar = some after) : Step object after
  | writeSol2 (object : SchurObject α β) (sol2 : β → ℚ) : Step object (object.writeSol2 sol2)
  | resolve {object after : SchurObject α β} (call : object.resolve = some after) :
      Step object after
  | solve {object after : SchurObject α β} {sol2 : β → ℚ}
      (call : object.solve sol2 = some after) : Step object after

inductive Reached [Fintype β] : SchurObject α β → Prop where
  | create (orig : LinSys (α ⊕ β)) (solution : α ⊕ β → ℚ) (ia : Matrix α α ℚ)
      (complRhs : β → ℚ) : Reached (SchurObject.create orig solution ia complRhs)
  | step {object after : SchurObject α β} (reached : Reached object)
      (step : Step object after) : Reached after

end Operations

/-! ## What a call does -/

/-- The object after the complement was formed and scaled. -/
def withCompl [Fintype α] (object : SchurObject α β) (factor : ℚ) : SchurObject α β :=
  let blocks := formBlocks object.ia object.orig
  let compl := SchurComplement.formSchur object.ia object.orig
  { object with
    blocks := some { blocks with compl := factor • compl.matrix }
    complRhs := factor • compl.rhs
    state := .formed }

/-- The blocks exist from the first `form_schur` on. -/
def Stored (object : SchurObject α β) : Prop :=
  object.state ≠ .created → object.blocks ≠ none

section Calls

variable {object after : SchurObject α β}

theorem formBlocks_compl [Fintype α] (ia : Matrix α α ℚ) (orig : LinSys (α ⊕ β)) :
    (formBlocks ia orig).compl = (SchurComplement.formSchur ia orig).matrix := by
  simp only [formBlocks, SchurComplement.formSchur, one_smul]

theorem storeBlocks_stored (stored : object.Stored) (blocks : SchurBlocks α β) :
    storeBlocks (if object.state = .created then .initialMatrix else .reuseMatrix)
      object.blocks blocks = some blocks := by
  by_cases created : object.state = .created
  · rw [if_pos created, storeBlocks]
  · rw [if_neg created]
    cases present : object.blocks with
    | none => exact absurd present (stored created)
    | some earlier => rfl

theorem scale_stored {scalar : ℚ} (call : object.scale scalar = some after) : after.Stored := by
  unfold scale at call
  obtain ⟨_, _, remaining⟩ := Option.bind_eq_some_iff.mp call
  obtain ⟨blocks, present, written⟩ := Option.bind_eq_some_iff.mp remaining
  rw [Option.some.injEq] at written
  subst written
  intro _
  simp

variable [Fintype α]

/-- What the object held before is overwritten. -/
theorem formSchur_stored (stored : object.Stored) :
    object.formSchur = some (object.withCompl 1) := by
  unfold formSchur
  dsimp only
  rw [storeBlocks_stored stored]
  simp only [formRhs, Option.bind_eq_bind, Option.bind_some, withCompl, one_smul,
    ← formBlocks_compl]
  congr 2
  rw [neg_one_smul, neg_add_eq_sub]
  rfl

theorem formRhs_stored (call : object.formRhs = some after) : after.Stored := by
  unfold formRhs at call
  obtain ⟨blocks, present, written⟩ := Option.bind_eq_some_iff.mp call
  rw [Option.some.injEq] at written
  subst written
  intro _
  simp [present]

theorem scale_withCompl (factor scalar : ℚ) :
    (object.withCompl factor).scale scalar = some (object.withCompl (scalar * factor)) := by
  simp [scale, withCompl, mul_smul]

variable [Fintype β]

theorem resolve_stored (call : object.resolve = some after) : after.blocks ≠ none := by
  unfold resolve at call
  obtain ⟨blocks, present, written⟩ := Option.bind_eq_some_iff.mp call
  rw [Option.some.injEq] at written
  subst written
  simp [present]

theorem solve_stored {sol2 : β → ℚ} (call : object.solve sol2 = some after) :
    after.Stored := by
  unfold solve at call
  obtain ⟨ready, _, remaining⟩ := Option.bind_eq_some_iff.mp call
  obtain ⟨resolved, resolution, written⟩ := Option.bind_eq_some_iff.mp remaining
  rw [Option.some.injEq] at written
  subst written
  have present := resolve_stored resolution
  exact fun _ => present

theorem Step.stored (step : Step object after) (stored : object.Stored) : after.Stored := by
  cases step with
  | assemble orig ia => exact stored
  | formSchur call =>
      rw [formSchur_stored stored, Option.some.injEq] at call
      subst call
      intro _
      simp [withCompl]
  | formRhs call => exact formRhs_stored call
  | scale call => exact scale_stored call
  | writeSol2 sol2 => exact stored
  | resolve call => exact fun _ => resolve_stored call
  | solve call => exact solve_stored call

theorem Reached.stored (reached : Reached object) : object.Stored := by
  induction reached with
  | create orig solution ia complRhs => exact fun created => absurd rfl created
  | step _ step previous => exact step.stored previous

end Calls

/-! ## One round -/

section Round

variable [Fintype α] [Fintype β]

def scaleAll (object : SchurObject α β) (factors : List ℚ) : Option (SchurObject α β) :=
  factors.foldlM scale object

def Solves (object : SchurObject α β) : Prop :=
  object.orig.matrix *ᵥ object.solution = object.orig.rhs

/-- An exact solution of the formed and scaled complement is resolved to one of the original
system. -/
def RoundSolves (object : SchurObject α β) (factors : List ℚ) : Prop :=
  ∃ formed scaled blocks, object.formSchur = some formed ∧
    formed.scaleAll factors = some scaled ∧ scaled.blocks = some blocks ∧
    ∀ sol2, blocks.compl *ᵥ sol2 = scaled.complRhs →
      ∃ resolved, (scaled.writeSol2 sol2).resolve = some resolved ∧ resolved.Solves

/-- The product with the transposed block gives the eliminated right-hand side, or no solution is
asked for. -/
def Recovers (ia : Matrix α α ℚ) (orig : LinSys (α ⊕ β)) (factor : ℚ) : Prop :=
  let b := orig.matrix.toBlocks₁₂
  let bt := orig.matrix.toBlocks₂₁
  let schur := bt * (ia * b) - orig.matrix.toBlocks₂₂
  let rhs1 := orig.rhs ∘ Sum.inl
  let rhs2 := orig.rhs ∘ Sum.inr
  if factor = 0 then schur = 0 ∧ bt *ᵥ (ia *ᵥ rhs1) = rhs2
  else bt *ᵥ (ia *ᵥ rhs1) = (ia * b)ᵀ *ᵥ rhs1 ∨
    ¬∃ sol2, schur *ᵥ sol2 = (ia * b)ᵀ *ᵥ rhs1 - rhs2

variable {object : SchurObject α β} {factors : List ℚ}

omit [Fintype β] in
theorem scaleAll_withCompl (factor : ℚ) (factors : List ℚ) :
    (object.withCompl factor).scaleAll factors =
      some (object.withCompl (factors.prod * factor)) := by
  induction factors generalizing factor with
  | nil => simp [scaleAll]
  | cons scalar remaining previous =>
      have next := previous (scalar * factor)
      unfold scaleAll at next ⊢
      rw [List.foldlM_cons, scale_withCompl, Option.bind_eq_bind, Option.bind_some, next,
        List.prod_cons]
      congr 2
      ring

theorem resolve_withCompl (factor : ℚ) (sol2 : β → ℚ) :
    ((object.withCompl factor).writeSol2 sol2).resolve = some { object.withCompl factor with
      solution := SchurComplement.resolve object.ia object.orig sol2 } := by
  simp [resolve, writeSol2, withCompl, SchurComplement.resolve, formBlocks, sub_eq_add_neg]

theorem resolve_solves_iff [DecidableEq α] {ia : Matrix α α ℚ} {orig : LinSys (α ⊕ β)}
    (inverse : ia * orig.matrix.toBlocks₁₁ = 1) (sol2 : β → ℚ) :
    orig.matrix *ᵥ SchurComplement.resolve ia orig sol2 = orig.rhs ↔
      (SchurComplement.formSchur ia orig).matrix *ᵥ sol2 =
        orig.matrix.toBlocks₂₁ *ᵥ (ia *ᵥ (orig.rhs ∘ Sum.inl)) - orig.rhs ∘ Sum.inr := by
  have parts := solves_iff_complement orig.matrix.toBlocks₁₂ orig.matrix.toBlocks₂₁
    orig.matrix.toBlocks₂₂ inverse (SchurComplement.resolve ia orig sol2 ∘ Sum.inl)
    (orig.rhs ∘ Sum.inl) sol2 (orig.rhs ∘ Sum.inr)
  rw [SchurComplement.formSchur_matrix]
  have resolved : SchurComplement.resolve ia orig sol2 ∘ Sum.inl =
      ia *ᵥ (orig.rhs ∘ Sum.inl) - (ia * orig.matrix.toBlocks₁₂) *ᵥ sol2 := rfl
  rw [← resolved, eq_self, and_true] at parts
  rw [← parts]
  conv_lhs => rw [← fromBlocks_toBlocks orig.matrix, fromBlocks_mulVec]
  constructor
  · intro solved
    exact ⟨funext fun row => congrFun solved (Sum.inl row),
      funext fun row => congrFun solved (Sum.inr row)⟩
  · rintro ⟨first, second⟩
    funext row
    cases row with
    | inl row => exact congrFun first row
    | inr row => exact congrFun second row

/-- What was computed before the round does not matter. -/
theorem roundSolves_iff_complement [DecidableEq α] (stored : object.Stored)
    (inverse : object.ia * object.orig.matrix.toBlocks₁₁ = 1) (factors : List ℚ) :
    object.RoundSolves factors ↔
      ∀ sol2, (factors.prod • (SchurComplement.formSchur object.ia object.orig).matrix) *ᵥ sol2 =
          factors.prod • (SchurComplement.formSchur object.ia object.orig).rhs →
        (SchurComplement.formSchur object.ia object.orig).matrix *ᵥ sol2 =
          object.orig.matrix.toBlocks₂₁ *ᵥ (object.ia *ᵥ (object.orig.rhs ∘ Sum.inl)) -
            object.orig.rhs ∘ Sum.inr := by
  unfold RoundSolves
  rw [formSchur_stored stored]
  constructor
  · rintro ⟨formed, scaled, blocks, isFormed, isScaled, isBlocks, solves⟩ sol2 solved
    rw [Option.some.injEq] at isFormed
    subst isFormed
    rw [scaleAll_withCompl, mul_one, Option.some.injEq] at isScaled
    subst isScaled
    rw [withCompl, Option.some.injEq] at isBlocks
    subst isBlocks
    obtain ⟨resolved, call, isSolution⟩ := solves sol2 solved
    rw [resolve_withCompl, Option.some.injEq] at call
    subst call
    exact (resolve_solves_iff inverse sol2).mp isSolution
  · intro solves
    refine ⟨_, object.withCompl factors.prod, _, rfl, ?_, rfl, fun sol2 solved => ?_⟩
    · rw [scaleAll_withCompl, mul_one]
    · exact ⟨_, resolve_withCompl _ sol2,
        (resolve_solves_iff inverse sol2).mpr (solves sol2 solved)⟩

theorem Reached.roundSolves_iff [DecidableEq α] (reached : Reached object)
    (inverse : object.ia * object.orig.matrix.toBlocks₁₁ = 1) (factors : List ℚ) :
    object.RoundSolves factors ↔ Recovers object.ia object.orig factors.prod := by
  rw [roundSolves_iff_complement reached.stored inverse, solves_scaled_iff,
    SchurComplement.formSchur_matrix]
  have right : (SchurComplement.formSchur object.ia object.orig).rhs =
      (object.ia * object.orig.matrix.toBlocks₁₂)ᵀ *ᵥ (object.orig.rhs ∘ Sum.inl) -
        object.orig.rhs ∘ Sum.inr := rfl
  rw [right, sub_left_inj, sub_eq_zero (b := object.orig.rhs ∘ Sum.inr), eq_comm (a := _ᵀ *ᵥ _)]
  rfl

/-- Two unknowns, whose lower block need not be the transposed upper one. -/
def lineSystem (bt : ℚ) : LinSys (Fin 1 ⊕ Fin 1) where
  matrix := fromBlocks !![1] !![1] !![bt] !![-1]
  rhs := Sum.elim ![1] ![0]

theorem line_inverse (bt : ℚ) : (1 : Matrix (Fin 1) (Fin 1) ℚ) *
    (lineSystem bt).matrix.toBlocks₁₁ = 1 := by
  rw [lineSystem, toBlocks_fromBlocks₁₁, one_mul]
  decide

theorem symmetricLine_recovers : Recovers 1 (lineSystem 1) [(-1 : ℚ)].prod := by
  have nonzero : [(-1 : ℚ)].prod ≠ 0 := by norm_num
  unfold Recovers
  dsimp only
  rw [if_neg nonzero]
  left
  decide +kernel

theorem roundSolves_symmetricLine : (create (lineSystem 1) 0 1 0).RoundSolves [-1] :=
  ((Reached.create (lineSystem 1) 0 1 0).roundSolves_iff (line_inverse 1) [-1]).mpr
    symmetricLine_recovers

theorem not_always_roundSolves : ¬∀ {α β : Type} [Fintype α] [Fintype β] [DecidableEq α]
    (object : SchurObject α β), object.Reached →
      object.ia * object.orig.matrix.toBlocks₁₁ = 1 → ∀ factors, object.RoundSolves factors := by
  intro always
  have reached : Reached (create (lineSystem 0) 0 1 0) := .create _ _ _ _
  have solves := (roundSolves_iff_complement reached.stored (line_inverse 0) []).mp
    (always _ reached (line_inverse 0) [])
  have solved := solves 1 (by decide +kernel)
  exact absurd solved (by decide +kernel)

end Round

end SchurObject

end Flow123d
