import Mathlib.LinearAlgebra.Matrix.NonsingularInverse
import Mathlib.LinearAlgebra.Matrix.SchurComplement
import Mathlib.Tactic.Ring
import Flow123d.Library.Numerals

/-!
# Elimination

What rows and blocks of a linear system can be replaced by.
-/

set_option autoImplicit false

/-!
## Row operations

Exchanging rows of a linear system and subtracting multiples of one row from another change
neither its solutions nor whether its matrix is singular.
-/

namespace Flow123d.Library

open Matrix

structure LinearSystem (ι K : Type) where
  matrix : Matrix ι ι K
  rhs : ι → K

namespace LinearSystem

variable {ι K : Type} [Fintype ι] [DecidableEq ι] [Field K]

def Solves (system : LinearSystem ι K) (x : ι → K) : Prop :=
  system.matrix *ᵥ x = system.rhs

def Regular (system : LinearSystem ι K) : Prop := system.matrix.det ≠ 0

structure Equivalent (system other : LinearSystem ι K) : Prop where
  regular : system.Regular ↔ other.Regular
  solves : ∀ x, system.Solves x ↔ other.Solves x

theorem Equivalent.refl (system : LinearSystem ι K) : system.Equivalent system :=
  ⟨Iff.rfl, fun _ => Iff.rfl⟩

theorem Equivalent.trans {first second third : LinearSystem ι K}
    (left : first.Equivalent second) (right : second.Equivalent third) :
    first.Equivalent third :=
  ⟨left.regular.trans right.regular, fun x => (left.solves x).trans (right.solves x)⟩

/-! ## Exchanged rows -/

def swapRows (system : LinearSystem ι K) (i j : ι) : LinearSystem ι K where
  matrix := fun row => system.matrix (Equiv.swap i j row)
  rhs := fun row => system.rhs (Equiv.swap i j row)

theorem swapRows_equivalent (system : LinearSystem ι K) (i j : ι) :
    system.Equivalent (system.swapRows i j) := by
  refine ⟨?_, ?_⟩
  · have sign := det_permute (Equiv.swap i j) system.matrix
    change system.matrix.det ≠ 0 ↔ (system.matrix.submatrix (Equiv.swap i j) id).det ≠ 0
    rw [sign, mul_ne_zero_iff]
    refine ⟨fun regular => ⟨?_, regular⟩, And.right⟩
    exact ((Equiv.Perm.sign (Equiv.swap i j)).isUnit.map (Int.castRingHom K)).ne_zero
  · intro x
    constructor
    · intro solves
      funext row
      exact congrFun solves (Equiv.swap i j row)
    · intro solves
      funext row
      have there := congrFun solves (Equiv.swap i j row)
      change (system.matrix *ᵥ x) (Equiv.swap i j (Equiv.swap i j row)) =
        system.rhs (Equiv.swap i j (Equiv.swap i j row)) at there
      rwa [Equiv.swap_apply_self] at there

/-! ## Subtracted rows -/

def subtractRow (system : LinearSystem ι K) (row from_ : ι) (factor : K) : LinearSystem ι K where
  matrix := system.matrix.updateRow row
    (system.matrix row - factor • system.matrix from_)
  rhs := Function.update system.rhs row (system.rhs row - factor * system.rhs from_)

omit [Fintype ι] in
theorem subtractRow_matrix_self (system : LinearSystem ι K) (row from_ : ι) (factor : K) :
    (system.subtractRow row from_ factor).matrix row =
      system.matrix row - factor • system.matrix from_ :=
  updateRow_self

omit [Fintype ι] in
theorem subtractRow_matrix_of_ne (system : LinearSystem ι K) {row from_ other : ι} (factor : K)
    (different : other ≠ row) :
    (system.subtractRow row from_ factor).matrix other = system.matrix other :=
  updateRow_ne different

omit [Fintype ι] in
theorem subtractRow_rhs_self (system : LinearSystem ι K) (row from_ : ι) (factor : K) :
    (system.subtractRow row from_ factor).rhs row = system.rhs row - factor * system.rhs from_ :=
  Function.update_self ..

omit [Fintype ι] in
theorem subtractRow_rhs_of_ne (system : LinearSystem ι K) {row from_ other : ι} (factor : K)
    (different : other ≠ row) :
    (system.subtractRow row from_ factor).rhs other = system.rhs other :=
  Function.update_of_ne different ..

theorem mulVec_subtractRow (system : LinearSystem ι K) (row from_ : ι) (factor : K)
    (x : ι → K) :
    (system.subtractRow row from_ factor).matrix *ᵥ x =
      Function.update (system.matrix *ᵥ x) row
        ((system.matrix *ᵥ x) row - factor * (system.matrix *ᵥ x) from_) := by
  funext other
  by_cases same : other = row
  · subst same
    rw [Function.update_self]
    change (system.subtractRow other from_ factor).matrix other ⬝ᵥ x = _
    rw [subtractRow_matrix_self, sub_dotProduct, smul_dotProduct]
    rfl
  · rw [Function.update_of_ne same]
    change (system.subtractRow row from_ factor).matrix other ⬝ᵥ x = _
    rw [subtractRow_matrix_of_ne _ _ same]
    rfl

theorem subtractRow_equivalent (system : LinearSystem ι K) {row from_ : ι} (factor : K)
    (different : row ≠ from_) : system.Equivalent (system.subtractRow row from_ factor) := by
  refine ⟨?_, ?_⟩
  · have same := det_updateRow_add_smul_self system.matrix different (-factor)
    rw [neg_smul, ← sub_eq_add_neg] at same
    change system.matrix.det ≠ 0 ↔ (system.matrix.updateRow row
      (system.matrix row - factor • system.matrix from_)).det ≠ 0
    rw [same]
  · intro x
    unfold Solves
    rw [mulVec_subtractRow]
    constructor
    · intro solves
      rw [solves]
      rfl
    · intro solves
      have fromRow : (system.matrix *ᵥ x) from_ = system.rhs from_ := by
        have there := congrFun solves from_
        rwa [Function.update_of_ne different.symm,
          subtractRow_rhs_of_ne _ _ different.symm] at there
      funext other
      by_cases same : other = row
      · subst same
        have here := congrFun solves other
        rw [Function.update_self, subtractRow_rhs_self, fromRow] at here
        exact sub_left_injective here
      · have there := congrFun solves other
        rwa [Function.update_of_ne same, subtractRow_rhs_of_ne _ _ same] at there

end LinearSystem

end Flow123d.Library

/-!
## Elimination of a block

A system of two blocks is solved through its complement once the first block is inverted,
and a regular system has a regular complement.
-/

namespace Flow123d.Library

open Matrix

variable {α β R : Type} [Fintype α] [DecidableEq α] [Fintype β] [CommRing R]

section Elimination

variable {ia : Matrix α α R} {A : Matrix α α R} (B : Matrix α β R) (C : Matrix β α R)
  (D : Matrix β β R)

theorem solves_iff_complement (inverse : ia * A = 1) (x b : α → R) (y c : β → R) :
    A *ᵥ x + B *ᵥ y = b ∧ C *ᵥ x + D *ᵥ y = c ↔
      (C * (ia * B) - D) *ᵥ y = C *ᵥ (ia *ᵥ b) - c ∧ x = ia *ᵥ b - (ia * B) *ᵥ y := by
  have eliminated : A *ᵥ x + B *ᵥ y = b ↔ x = ia *ᵥ b - (ia * B) *ᵥ y := by
    constructor
    · intro first
      calc x = (ia * A) *ᵥ x := by rw [inverse, one_mulVec]
        _ = ia *ᵥ (b - B *ᵥ y) := by rw [← mulVec_mulVec, ← first, add_sub_cancel_right]
        _ = ia *ᵥ b - (ia * B) *ᵥ y := by rw [mulVec_sub, mulVec_mulVec]
    · intro resolved
      have right : A * ia = 1 := mul_eq_one_comm.mp inverse
      calc A *ᵥ x + B *ᵥ y = (A * ia) *ᵥ b - (A * ia) *ᵥ (B *ᵥ y) + B *ᵥ y := by
            rw [resolved, mulVec_sub, mulVec_mulVec, mulVec_mulVec, mulVec_mulVec,
              Matrix.mul_assoc]
        _ = b := by rw [right, one_mulVec, one_mulVec, sub_add_cancel]
  rw [eliminated, and_comm]
  refine and_congr_left fun resolved => ?_
  have expanded : C *ᵥ x = C *ᵥ (ia *ᵥ b) - (C * (ia * B)) *ᵥ y := by
    rw [resolved, mulVec_sub, mulVec_mulVec _ C (ia * B)]
  rw [expanded, sub_mulVec]
  constructor
  · intro second
    rw [← second]
    abel
  · intro complement
    rw [sub_eq_sub_iff_add_eq_add] at complement
    rw [sub_add_eq_add_sub, sub_eq_iff_eq_add, ← complement]
    abel

theorem det_complement_ne_zero [DecidableEq β] (inverse : ia * A = 1)
    (regular : (fromBlocks A B C D).det ≠ 0) : (C * (ia * B) - D).det ≠ 0 := by
  let _ : Invertible A := ⟨ia, inverse, mul_eq_one_comm.mp inverse⟩
  have inverted : ⅟A = ia := rfl
  have swapped : C * (ia * B) - D = -(D - C * ⅟A * B) := by
    rw [inverted, Matrix.mul_assoc, neg_sub]
  intro zero
  rw [swapped, det_neg] at zero
  refine regular ?_
  rw [det_fromBlocks₁₁]
  have cancelled : (D - C * ⅟A * B).det = 0 := by
    have power : IsUnit ((-1 : R) ^ Fintype.card β) := (isUnit_one.neg).pow _
    exact (power.mul_right_eq_zero).mp zero
  rw [cancelled, mul_zero]

end Elimination

/-- When a solution of a scaled system solves the same system with another right-hand side. -/
theorem solves_scaled_iff {K : Type} [Field K] [DecidableEq K] (S : Matrix β β K) (factor : K)
    (r c : β → K) :
    (∀ y, (factor • S) *ᵥ y = factor • r → S *ᵥ y = c) ↔
      if factor = 0 then S = 0 ∧ c = 0 else r = c ∨ ¬∃ y, S *ᵥ y = r := by
  split
  case isTrue zero =>
    subst zero
    simp only [zero_smul, zero_mulVec, forall_const]
    constructor
    · intro solved
      have none : c = 0 := (solved 0).symm.trans (mulVec_zero S)
      refine ⟨mulVec_injective (funext fun y => ?_), none⟩
      rw [solved, none, zero_mulVec]
    · rintro ⟨rfl, rfl⟩ y
      exact zero_mulVec y
  case isFalse nonzero =>
    have scaled (y : β → K) : (factor • S) *ᵥ y = factor • r ↔ S *ᵥ y = r := by
      rw [smul_mulVec]
      exact (smul_right_injective _ nonzero).eq_iff
    simp only [scaled]
    constructor
    · intro solved
      by_cases solvable : ∃ y, S *ᵥ y = r
      · obtain ⟨y, solution⟩ := solvable
        exact Or.inl (solution.symm.trans (solved y solution))
      · exact Or.inr solvable
    · intro recovered y solved
      rcases recovered with same | unsolvable
      · exact solved.trans same
      · exact absurd ⟨y, solved⟩ unsolvable

end Flow123d.Library
