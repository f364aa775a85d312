import Mathlib.Analysis.SpecialFunctions.Integrals.Basic
import Flow123d.Library.Numerals

/-!
# Integrals over a simplex

The integral of a function of barycentric coordinates, coordinate by coordinate, and its values
for polynomials of degree two.
-/

set_option autoImplicit false

namespace Flow123d.Library

open MeasureTheory

/-- The integral over the nonnegative coordinates with the sum `total`. -/
noncomputable def simplexIntegral : (n : ℕ) → ℝ → ((Fin (n + 1) → ℝ) → ℝ) → ℝ
  | 0, total, f => f fun _ => total
  | n + 1, total, f =>
      ∫ x in (0 : ℝ)..total, simplexIntegral n (total - x) fun rest => f (Fin.cons x rest)

namespace simplexIntegral

theorem continuous {X : Type} [TopologicalSpace X] {n : ℕ} {total : X → ℝ}
    {f : X → (Fin (n + 1) → ℝ) → ℝ} (isTotal : Continuous total)
    (isContinuous : Continuous fun pair : X × (Fin (n + 1) → ℝ) => f pair.1 pair.2) :
    Continuous fun x => simplexIntegral n (total x) (f x) := by
  induction n generalizing X with
  | zero =>
      have path : Continuous fun x => (x, fun _ : Fin 1 => total x) := by fun_prop
      exact isContinuous.comp path
  | succ n ih =>
      refine intervalIntegral.continuous_parametric_intervalIntegral_of_continuous ?_ isTotal
      refine ih (X := X × ℝ) (by fun_prop) ?_
      have path : Continuous fun pair : (X × ℝ) × (Fin (n + 1) → ℝ) =>
          (pair.1.1, (Fin.cons pair.1.2 pair.2 : Fin (n + 2) → ℝ)) := by fun_prop
      exact isContinuous.comp path

variable {n : ℕ}

/-- The integrand of the first coordinate. -/
theorem continuous_slice {f : (Fin (n + 2) → ℝ) → ℝ} (isContinuous : Continuous f) (total : ℝ) :
    Continuous fun x => simplexIntegral n (total - x) fun rest => f (Fin.cons x rest) := by
  refine continuous (by fun_prop) ?_
  have path : Continuous fun pair : ℝ × (Fin (n + 1) → ℝ) =>
      (Fin.cons pair.1 pair.2 : Fin (n + 2) → ℝ) := by fun_prop
  exact isContinuous.comp path

theorem const_mul (total c : ℝ) (f : (Fin (n + 1) → ℝ) → ℝ) :
    simplexIntegral n total (fun point => c * f point) = c * simplexIntegral n total f := by
  induction n generalizing total with
  | zero => rfl
  | succ n ih =>
      unfold simplexIntegral
      simp only [ih]
      exact intervalIntegral.integral_const_mul _ _

theorem add {f g : (Fin (n + 1) → ℝ) → ℝ} (first : Continuous f) (second : Continuous g)
    (total : ℝ) : simplexIntegral n total (fun point => f point + g point) =
      simplexIntegral n total f + simplexIntegral n total g := by
  induction n generalizing total with
  | zero => rfl
  | succ n ih =>
      have slice : ∀ x : ℝ, Continuous fun rest : Fin (n + 1) → ℝ =>
          (Fin.cons x rest : Fin (n + 2) → ℝ) := fun x => by fun_prop
      have each : ∀ x, simplexIntegral n (total - x)
          (fun rest => f (Fin.cons x rest) + g (Fin.cons x rest)) =
            simplexIntegral n (total - x) (fun rest => f (Fin.cons x rest)) +
              simplexIntegral n (total - x) fun rest => g (Fin.cons x rest) :=
        fun x => ih (first.comp (slice x)) (second.comp (slice x)) (total - x)
      unfold simplexIntegral
      simp only [each]
      exact intervalIntegral.integral_add ((continuous_slice first total).intervalIntegrable _ _)
        ((continuous_slice second total).intervalIntegrable _ _)

theorem sum {ι : Type} (items : Finset ι) {f : ι → (Fin (n + 1) → ℝ) → ℝ}
    (isContinuous : ∀ i, Continuous (f i)) (total : ℝ) :
    simplexIntegral n total (fun point => ∑ i ∈ items, f i point) =
      ∑ i ∈ items, simplexIntegral n total (f i) := by
  classical
  induction items using Finset.induction_on with
  | empty => simpa using const_mul total 0 fun _ : Fin (n + 1) → ℝ => 0
  | insert item items fresh ih =>
      simp only [Finset.sum_insert fresh]
      rw [add (isContinuous item) (by fun_prop), ih]

/-- Only the coordinates with the right sum matter. -/
theorem congr {total : ℝ} {f g : (Fin (n + 1) → ℝ) → ℝ}
    (same : ∀ point, ∑ k, point k = total → f point = g point) :
    simplexIntegral n total f = simplexIntegral n total g := by
  induction n generalizing total with
  | zero => exact same _ (by simp)
  | succ n ih =>
      unfold simplexIntegral
      refine intervalIntegral.integral_congr fun x _ => ih fun rest sum => same _ ?_
      rw [Fin.sum_univ_succ, Fin.cons_zero]
      simp only [Fin.cons_succ, sum, add_sub_cancel]

/-! ## Moments -/

theorem integral_sub_pow (total : ℝ) (m : ℕ) :
    ∫ x in (0 : ℝ)..total, (total - x) ^ m = total ^ (m + 1) / (m + 1) := by
  rw [intervalIntegral.integral_comp_sub_left (fun x => x ^ m) total, sub_self, sub_zero,
    integral_pow]
  simp

theorem integral_mul_sub_pow (total : ℝ) (m : ℕ) :
    ∫ x in (0 : ℝ)..total, x * (total - x) ^ m = total ^ (m + 2) / ((m + 1) * (m + 2)) := by
  have split : ∀ x : ℝ, x * (total - x) ^ m = total * (total - x) ^ m - (total - x) ^ (m + 1) :=
    fun x => by ring
  simp only [split]
  rw [intervalIntegral.integral_sub (Continuous.intervalIntegrable (by fun_prop) _ _)
      (Continuous.intervalIntegrable (by fun_prop) _ _),
    intervalIntegral.integral_const_mul, integral_sub_pow, integral_sub_pow]
  push_cast
  field_simp
  ring

theorem integral_sq_mul_sub_pow (total : ℝ) (m : ℕ) :
    ∫ x in (0 : ℝ)..total, x ^ 2 * (total - x) ^ m =
      2 * total ^ (m + 3) / ((m + 1) * (m + 2) * (m + 3)) := by
  have split : ∀ x : ℝ, x ^ 2 * (total - x) ^ m =
      total * (x * (total - x) ^ m) - x * (total - x) ^ (m + 1) := fun x => by ring
  simp only [split]
  rw [intervalIntegral.integral_sub (Continuous.intervalIntegrable (by fun_prop) _ _)
      (Continuous.intervalIntegrable (by fun_prop) _ _),
    intervalIntegral.integral_const_mul, integral_mul_sub_pow, integral_mul_sub_pow]
  push_cast
  field_simp
  ring

theorem one (total : ℝ) : simplexIntegral n total (fun _ => 1) = total ^ n / n.factorial := by
  induction n generalizing total with
  | zero => simp [simplexIntegral]
  | succ n ih =>
      unfold simplexIntegral
      simp only [ih]
      rw [intervalIntegral.integral_div, integral_sub_pow, Nat.factorial_succ]
      push_cast
      field_simp

/-- A factor that does not depend on the other coordinates. -/
theorem const (total c : ℝ) : simplexIntegral n total (fun _ => c) =
    c * (total ^ n / n.factorial) := by
  have scaled := const_mul total c fun _ : Fin (n + 1) → ℝ => 1
  rw [one] at scaled
  simpa using scaled

theorem coordinate (total : ℝ) (k : Fin (n + 1)) :
    simplexIntegral n total (fun point => point k) = total ^ (n + 1) / (n + 1).factorial := by
  induction n generalizing total with
  | zero => simp [simplexIntegral]
  | succ n ih =>
      unfold simplexIntegral
      cases k using Fin.cases with
      | zero =>
          simp only [Fin.cons_zero, const, ← mul_div_assoc]
          rw [intervalIntegral.integral_div, integral_mul_sub_pow, Nat.factorial_succ (n + 1),
            Nat.factorial_succ n]
          push_cast
          field_simp
          ring
      | succ k =>
          simp only [Fin.cons_succ, ih]
          rw [intervalIntegral.integral_div, integral_sub_pow, Nat.factorial_succ (n + 1)]
          push_cast
          field_simp

theorem mul_coordinate (total : ℝ) (k l : Fin (n + 1)) :
    simplexIntegral n total (fun point => point k * point l) =
      (if k = l then 2 else 1) * total ^ (n + 2) / (n + 2).factorial := by
  induction n generalizing total with
  | zero =>
      have same : k = l := Fin.ext (by omega)
      simp [simplexIntegral, same]
      ring
  | succ n ih =>
      unfold simplexIntegral
      have factorials : ((n + 3).factorial : ℝ) = (n + 3) * (n + 2) * (n + 1) * n.factorial := by
        rw [Nat.factorial_succ, Nat.factorial_succ, Nat.factorial_succ]
        push_cast
        ring
      cases k using Fin.cases with
      | zero =>
          cases l using Fin.cases with
          | zero =>
              have square : ∀ x : ℝ, x * x = x ^ 2 := fun x => (sq x).symm
              simp only [Fin.cons_zero, const, ← mul_div_assoc, square]
              rw [intervalIntegral.integral_div, integral_sq_mul_sub_pow, factorials,
                if_pos trivial]
              field_simp
          | succ l =>
              simp only [Fin.cons_zero, Fin.cons_succ, const_mul, coordinate, ← mul_div_assoc]
              rw [intervalIntegral.integral_div, integral_mul_sub_pow, factorials,
                if_neg (Fin.succ_ne_zero l).symm, Nat.factorial_succ]
              push_cast
              field_simp
              ring
      | succ k =>
          cases l using Fin.cases with
          | zero =>
              have swap : ∀ (x : ℝ) (rest : Fin (n + 1) → ℝ), rest k * x = x * rest k :=
                fun x rest => mul_comm _ _
              simp only [Fin.cons_zero, Fin.cons_succ, swap, const_mul, coordinate,
                ← mul_div_assoc]
              rw [intervalIntegral.integral_div, integral_mul_sub_pow, factorials,
                if_neg (Fin.succ_ne_zero k), Nat.factorial_succ]
              push_cast
              field_simp
              ring
          | succ l =>
              simp only [Fin.cons_succ, ih, mul_div_assoc, Fin.succ_inj]
              rw [intervalIntegral.integral_const_mul, intervalIntegral.integral_div,
                integral_sub_pow, factorials, Nat.factorial_succ, Nat.factorial_succ]
              push_cast
              field_simp
              ring

/-- The integral of a linear form of the coordinates. -/
theorem linear (total : ℝ) (c : Fin (n + 1) → ℝ) :
    simplexIntegral n total (fun point => ∑ k, c k * point k) =
      (∑ k, c k) * (total ^ (n + 1) / (n + 1).factorial) := by
  rw [sum _ (fun k => by fun_prop), Finset.sum_mul]
  exact Finset.sum_congr rfl fun k _ => by rw [const_mul, coordinate]

/-- The integral of a quadratic form of the coordinates. -/
theorem quadratic (total : ℝ) (c : Fin (n + 1) → Fin (n + 1) → ℝ) :
    simplexIntegral n total (fun point => ∑ k, ∑ l, point k * point l * c k l) =
      ((∑ k, ∑ l, c k l) + ∑ k, c k k) * (total ^ (n + 2) / (n + 2).factorial) := by
  have entry : ∀ k l, simplexIntegral n total (fun point => point k * point l * c k l) =
      (c k l + if k = l then c k l else 0) * (total ^ (n + 2) / (n + 2).factorial) := by
    intro k l
    simp only [mul_comm _ (c k l), const_mul, mul_coordinate]
    split_ifs <;> ring
  have rows : ∀ k, simplexIntegral n total (fun point => ∑ l, point k * point l * c k l) =
      ∑ l, simplexIntegral n total fun point => point k * point l * c k l :=
    fun k => sum _ (fun l => by fun_prop) total
  rw [sum _ (fun k => by fun_prop)]
  simp only [rows, entry, ← Finset.sum_mul, Finset.sum_add_distrib]
  simp

end simplexIntegral

end Flow123d.Library
