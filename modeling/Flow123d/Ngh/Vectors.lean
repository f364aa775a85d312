import Mathlib.LinearAlgebra.CrossProduct
import Mathlib.Tactic.LinearCombination
import Flow123d.Library.Numerals

/-!
# Points and vectors

The vectors of the intersection library. A point and the vector to it are the same triple.
-/

set_option autoImplicit false

namespace Flow123d.Ngh

open Matrix

abbrev TVector (K : Type) := Fin 3 → K

abbrev TPoint (K : Type) := Fin 3 → K

variable {K : Type} [CommRing K]

/-- `TVector(P1, P2)`. -/
def vector (P1 P2 : TPoint K) : TVector K := ![P2 0 - P1 0, P2 1 - P1 1, P2 2 - P1 2]

def cross (U V : TVector K) : TVector K :=
  ![U 1 * V 2 - U 2 * V 1, U 2 * V 0 - U 0 * V 2, U 0 * V 1 - U 1 * V 0]

def dot (U V : TVector K) : K := U 0 * V 0 + U 1 * V 1 + U 2 * V 2

theorem vector_eq (P1 P2 : TPoint K) : vector P1 P2 = P2 - P1 := by
  ext i
  fin_cases i <;> rfl

theorem cross_eq (U V : TVector K) : cross U V = crossProduct U V :=
  (cross_apply U V).symm

theorem dot_eq (U V : TVector K) : dot U V = U ⬝ᵥ V := by
  simp [dot, dotProduct, Fin.sum_univ_three]

/-- Cramer's rule in space. -/
theorem dot_smul_eq (U V W X : TVector K) :
    dot (cross U V) W • X =
      dot X (cross V W) • U + dot X (cross W U) • V + dot X (cross U V) • W := by
  ext i
  fin_cases i <;> simp [dot, cross] <;> ring

/-- Cramer's rule in the plane of two vectors. -/
theorem dot_cross_smul_eq {U V X : TVector K} (plane : dot X (cross U V) = 0) :
    dot (cross U V) (cross U V) • X =
      dot (cross X V) (cross U V) • U + dot (cross U X) (cross U V) • V := by
  simp only [dot, cross, cons_val] at plane
  ext i
  fin_cases i <;> simp [dot, cross]
  · linear_combination (U 1 * V 2 - U 2 * V 1) * plane
  · linear_combination (U 2 * V 0 - U 0 * V 2) * plane
  · linear_combination (U 0 * V 1 - U 1 * V 0) * plane

end Flow123d.Ngh
