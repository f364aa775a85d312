import Mathlib.Algebra.Order.Field.Basic
import Mathlib.Order.Monotone.Basic
import Mathlib.Tactic.FieldSimp
import Mathlib.Tactic.Linarith
import Flow123d.Library.Numerals

/-!
# Newton iterations

Newton's method for a function whose tangents have positive slopes and lie over it, on the
nonnegative numbers. From the left of the root the iterates increase and never pass it. A loop
may stop after any of them.
-/

set_option autoImplicit false

namespace Flow123d.Library

/-- A quotient that is undefined for the divisor zero. -/
def checkedDiv {K : Type} [Zero K] [Div K] [DecidableEq K] (a b : K) : Option K :=
  if b = 0 then none else some (a / b)

theorem checkedDiv_eq {K : Type} [Zero K] [Div K] [DecidableEq K] {a b : K} (nonzero : b ≠ 0) :
    checkedDiv a b = some (a / b) :=
  if_neg nonzero

theorem checkedDiv_zero {K : Type} [Zero K] [Div K] [DecidableEq K] (a : K) :
    checkedDiv a 0 = none :=
  if_pos rfl

section Loop

variable {K : Type} (step : K → Option K) (stops : K → K → Bool)

/-- At most so many turns, from the current value and the one before. -/
def newtonLoop : ℕ → K → K → Option K
  | 0, current, _ => some current
  | turns + 1, current, previous => do
      let next ← step current
      if stops next previous then some next else newtonLoop turns next next

variable {step stops}

/-- Where every value gives the next one, the loop returns one of the iterates. -/
theorem newtonLoop_iterate {iterates : ℕ → K}
    (next : ∀ j, step (iterates j) = some (iterates (j + 1))) (turns j : ℕ) (previous : K) :
    ∃ i ≤ turns, newtonLoop step stops turns (iterates j) previous = some (iterates (j + i)) := by
  induction turns generalizing j previous with
  | zero => exact ⟨0, le_rfl, rfl⟩
  | succ turns ih =>
      rw [newtonLoop, next j]
      change ∃ i ≤ turns + 1, (if stops (iterates (j + 1)) previous then some (iterates (j + 1))
        else newtonLoop step stops turns (iterates (j + 1)) (iterates (j + 1))) =
          some (iterates (j + i))
      cases stops (iterates (j + 1)) previous with
      | true => exact ⟨1, Nat.le_add_left 1 turns, rfl⟩
      | false =>
          obtain ⟨i, bound, ran⟩ := ih (j + 1) (iterates (j + 1))
          refine ⟨i + 1, Nat.succ_le_succ bound, ran.trans ?_⟩
          rw [Nat.add_assoc, Nat.add_comm 1 i]

/-- The loop runs through if its steps never leave a set on which they are defined. -/
theorem newtonLoop_isSome {safe : K → Prop} (turns : ℕ) {current previous : K}
    (start : safe current)
    (next : ∀ value, safe value →
      ∃ after, step value = some after ∧ ∀ before, stops after before = false → safe after) :
    (newtonLoop step stops turns current previous).isSome := by
  induction turns generalizing current previous with
  | zero => rfl
  | succ turns ih =>
      obtain ⟨after, stepped, kept⟩ := next current start
      rw [newtonLoop, stepped]
      change (if stops after previous then some after
        else newtonLoop step stops turns after after).isSome = true
      cases stopped : stops after previous with
      | true => rfl
      | false => exact ih (kept previous stopped)

end Loop

section Tangents

variable {K : Type} [Field K] [LinearOrder K] [IsStrictOrderedRing K] {residual slope : K → K}

def newtonStep (residual slope : K → K) (x : K) : K := x - residual x / slope x

def newtonIterate (residual slope : K → K) : ℕ → K
  | 0 => 0
  | j + 1 => newtonStep residual slope (newtonIterate residual slope j)

/-- Increasing and under its tangents. -/
structure UnderTangents (residual slope : K → K) : Prop where
  slopePos : ∀ x, 0 ≤ x → 0 < slope x
  tangent : ∀ x y, 0 ≤ x → 0 ≤ y → residual y ≤ residual x + slope x * (y - x)

namespace UnderTangents

theorem strictMono (under : UnderTangents residual slope) {x y : K} (xNonneg : 0 ≤ x)
    (less : x < y) : residual x < residual y := by
  have nonneg : 0 ≤ y := xNonneg.trans less.le
  have below := under.tangent y x nonneg xNonneg
  have falls : slope y * (x - y) < 0 :=
    mul_neg_of_pos_of_neg (under.slopePos y nonneg) (sub_neg.mpr less)
  linarith

theorem root_unique (under : UnderTangents residual slope) {x y : K} (xNonneg : 0 ≤ x)
    (yNonneg : 0 ≤ y) (xRoot : residual x = 0) (yRoot : residual y = 0) : x = y := by
  rcases lt_trichotomy x y with less | same | more
  · have rises := under.strictMono xNonneg less
    rw [xRoot, yRoot] at rises
    exact absurd rises (lt_irrefl 0)
  · exact same
  · have rises := under.strictMono yNonneg more
    rw [xRoot, yRoot] at rises
    exact absurd rises (lt_irrefl 0)

theorem residual_nonpos (under : UnderTangents residual slope) {x root : K} (xNonneg : 0 ≤ x)
    (le : x ≤ root) (isRoot : residual root = 0) : residual x ≤ 0 := by
  rcases le.lt_or_eq with less | rfl
  · exact ((under.strictMono xNonneg less).trans_eq isRoot).le
  · exact isRoot.le

theorem le_newtonStep (under : UnderTangents residual slope) {x : K} (xNonneg : 0 ≤ x)
    (nonpos : residual x ≤ 0) : x ≤ newtonStep residual slope x := by
  have quotient : residual x / slope x ≤ 0 :=
    div_nonpos_of_nonpos_of_nonneg nonpos (under.slopePos x xNonneg).le
  rw [newtonStep]
  linarith

/-- The tangent meets the axis before the function does. -/
theorem newtonStep_le_root (under : UnderTangents residual slope) {x root : K}
    (xNonneg : 0 ≤ x) (rootNonneg : 0 ≤ root) (isRoot : residual root = 0) :
    newtonStep residual slope x ≤ root := by
  have positive := under.slopePos x xNonneg
  have meets := under.tangent x root xNonneg rootNonneg
  rw [isRoot] at meets
  have quotient : -(root - x) ≤ residual x / slope x := by
    rw [le_div_iff₀ positive]
    linarith
  rw [newtonStep]
  linarith

theorem newtonIterate_bounds (under : UnderTangents residual slope) {root : K}
    (rootNonneg : 0 ≤ root) (isRoot : residual root = 0) (j : ℕ) :
    0 ≤ newtonIterate residual slope j ∧ newtonIterate residual slope j ≤ root := by
  induction j with
  | zero => exact ⟨le_rfl, rootNonneg⟩
  | succ j ih =>
      constructor
      · apply ih.1.trans
        exact under.le_newtonStep ih.1 (under.residual_nonpos ih.1 ih.2 isRoot)
      · exact under.newtonStep_le_root ih.1 rootNonneg isRoot

theorem newtonIterate_mono (under : UnderTangents residual slope) {root : K}
    (rootNonneg : 0 ≤ root) (isRoot : residual root = 0) :
    Monotone (newtonIterate residual slope) := by
  apply monotone_nat_of_le_succ
  intro j
  obtain ⟨nonneg, le⟩ := under.newtonIterate_bounds rootNonneg isRoot j
  exact under.le_newtonStep nonneg (under.residual_nonpos nonneg le isRoot)

end UnderTangents

end Tangents

end Flow123d.Library
