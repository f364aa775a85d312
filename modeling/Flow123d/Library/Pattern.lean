import Mathlib.Data.Matrix.Mul
import Mathlib.Data.Rel
import Flow123d.Library.Numerals

/-!
# Non-zero patterns

The positions at which a sparse matrix holds a value. The pattern of a product composes the
patterns of its factors, and a sub-matrix takes its positions over.
-/

set_option autoImplicit false

namespace Flow123d.Library

open scoped SetRel

variable {α β ρ σ R : Type}

/-- The values outside the pattern are zero. -/
def SupportedBy [Zero R] (pattern : SetRel ρ σ) (matrix : Matrix ρ σ R) : Prop :=
  ∀ row col, (row, col) ∉ pattern → matrix row col = 0

def subPattern (pattern : SetRel ρ σ) (rows : α → ρ) (cols : β → σ) : SetRel α β :=
  {position | (rows position.1, cols position.2) ∈ pattern}

/-- The pattern of `Bt * (IA * B)` in a matrix with the rows `isA` and `isB`. -/
def complementPattern (pattern : SetRel ρ ρ) (isA : α → ρ) (isB : β → ρ) (ia : SetRel α α) :
    SetRel β β :=
  subPattern pattern isB isA ○ (ia ○ subPattern pattern isA isB)

theorem SupportedBy.submatrix [Zero R] {pattern : SetRel ρ σ} {matrix : Matrix ρ σ R}
    (supported : SupportedBy pattern matrix) (rows : α → ρ) (cols : β → σ) :
    SupportedBy (subPattern pattern rows cols) (matrix.submatrix rows cols) :=
  fun row col outside => supported (rows row) (cols col) outside

theorem SupportedBy.mul [Fintype σ] [NonUnitalNonAssocSemiring R] {left : SetRel ρ σ}
    {right : SetRel σ α} {matrix : Matrix ρ σ R} {other : Matrix σ α R}
    (first : SupportedBy left matrix) (second : SupportedBy right other) :
    SupportedBy (left ○ right) (matrix * other) := by
  intro row col outside
  rw [Matrix.mul_apply]
  refine Finset.sum_eq_zero fun mid _ => ?_
  by_cases inLeft : (row, mid) ∈ left
  · have notInRight : (mid, col) ∉ right := fun inRight => outside ⟨mid, inLeft, inRight⟩
    rw [second mid col notInRight, mul_zero]
  · rw [first row mid inLeft, zero_mul]

theorem SupportedBy.complement [Fintype α] [NonUnitalNonAssocSemiring R]
    {pattern : SetRel ρ ρ} {matrix : Matrix ρ ρ R} {ia : SetRel α α} {inverse : Matrix α α R}
    (supported : SupportedBy pattern matrix) (inverted : SupportedBy ia inverse)
    (isA : α → ρ) (isB : β → ρ) :
    SupportedBy (complementPattern pattern isA isB ia)
      (matrix.submatrix isB isA * (inverse * matrix.submatrix isA isB)) :=
  (supported.submatrix isB isA).mul (inverted.mul (supported.submatrix isA isB))

end Flow123d.Library
