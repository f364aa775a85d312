import Mathlib.Algebra.Field.Defs
import Mathlib.Algebra.Order.Ring.Defs
import Flow123d.Library.Numerals

/-!
# Root finders

A bracketing root finder is called with a function and an interval; a number that is not
finite is `none`, and so is a call that fails.
-/

set_option autoImplicit false

namespace Flow123d.Library

abbrev RootFinder (K : Type) :=
  (K → Option K) → K → Option K → Option (K × K)

variable {K : Type} [Zero K] [LinearOrder K]

/-- The function increases over zero on the interval. -/
def Brackets (func : K → Option K) (lower : K) (upper : Option K) : Prop :=
  ∃ bound ∈ upper, lower ≤ bound ∧
    (∃ value ∈ func lower, value ≤ 0) ∧ ∃ value ∈ func bound, 0 ≤ value

/-- The function changes its sign over a proper interval, in one direction or the other. -/
def ChangesSign (func : K → Option K) (lower : K) (upper : Option K) : Prop :=
  ∃ bound ∈ upper, lower < bound ∧ ∃ first ∈ func lower, ∃ last ∈ func bound,
    first ≤ 0 ∧ 0 ≤ last ∨ last ≤ 0 ∧ 0 ≤ first

/-- A root finder that needs a change of the sign, and then narrows the bracket. -/
structure BracketSolver (K : Type) [Zero K] [LinearOrder K] where
  solve : RootFinder K
  fails : ∀ func lower upper, ¬ ChangesSign func lower upper → solve func lower upper = none
  narrows : ∀ func lower upper, lower < upper → Brackets func lower (some upper) →
    ∃ bracket ∈ solve func lower (some upper), lower ≤ bracket.1 ∧ bracket.2 ≤ upper ∧
      Brackets func bracket.1 (some bracket.2)

/-- The first thing a root finder does is to look at the ends of the interval. -/
def solveAtEnds (func : K → Option K) (lower : K) (upper : Option K) : Option (K × K) :=
  match upper with
  | none => none
  | some bound =>
      if lower < bound ∧ ∃ first ∈ func lower, ∃ last ∈ func bound,
          first ≤ 0 ∧ 0 ≤ last ∨ last ≤ 0 ∧ 0 ≤ first then
        if func lower = some 0 then some (lower, lower)
        else if func bound = some 0 then some (bound, bound)
        else some (lower, bound)
      else none

def BracketSolver.atEnds : BracketSolver K where
  solve := solveAtEnds
  fails := by
    intro func lower upper unchanged
    cases upper with
    | none => rfl
    | some bound =>
        apply if_neg
        rintro ⟨proper, changes⟩
        exact unchanged ⟨bound, rfl, proper, changes⟩
  narrows := by
    intro func lower upper proper bracket
    obtain ⟨bound, same, ordered, ⟨first, atLower, nonpos⟩, last, atUpper, nonneg⟩ := bracket
    cases same
    have changes : lower < upper ∧ ∃ first ∈ func lower, ∃ last ∈ func upper,
        first ≤ 0 ∧ 0 ≤ last ∨ last ≤ 0 ∧ 0 ≤ first :=
      ⟨proper, first, atLower, last, atUpper, .inl ⟨nonpos, nonneg⟩⟩
    unfold solveAtEnds
    simp only [if_pos changes]
    by_cases rootLower : func lower = some 0
    · refine ⟨(lower, lower), by rw [if_pos rootLower]; rfl, le_refl _, ordered, ?_⟩
      exact ⟨lower, rfl, le_refl _, ⟨0, rootLower, le_refl _⟩, 0, rootLower, le_refl _⟩
    · by_cases rootUpper : func upper = some 0
      · refine ⟨(upper, upper), ?_, ordered, le_refl _, ?_⟩
        · rw [if_neg rootLower, if_pos rootUpper]
          rfl
        · exact ⟨upper, rfl, le_refl _, ⟨0, rootUpper, le_refl _⟩, 0, rootUpper, le_refl _⟩
      · refine ⟨(lower, upper), ?_, le_refl _, le_refl _, ?_⟩
        · rw [if_neg rootLower, if_neg rootUpper]
          rfl
        · exact ⟨upper, rfl, ordered, ⟨first, atLower, nonpos⟩, last, atUpper, nonneg⟩

/-- The root of the straight line through the ends, exact for affine functions. -/
def secant {K : Type} [Field K] : RootFinder K := fun func lower upper => do
  let bound ← upper
  let first ← func lower
  let last ← func bound
  let root := lower - first * (bound - lower) / (last - first)
  some (root, root)

section Exact

open Classical in
/-- The root finder that returns a root itself where there is one. -/
noncomputable def solveExactly (func : K → Option K) (lower : K) (upper : Option K) :
    Option (K × K) :=
  if root : ChangesSign func lower upper ∧
      ∃ x, lower ≤ x ∧ (∀ bound ∈ upper, x ≤ bound) ∧ func x = some 0 then
    some (root.2.choose, root.2.choose)
  else solveAtEnds func lower upper

noncomputable def BracketSolver.exact : BracketSolver K where
  solve := solveExactly
  fails := by
    intro func lower upper unchanged
    unfold solveExactly
    rw [dif_neg fun root => unchanged root.1]
    exact BracketSolver.atEnds.fails func lower upper unchanged
  narrows := by
    intro func lower upper proper bracket
    unfold solveExactly
    split
    case isTrue root =>
      obtain ⟨above, below, zero⟩ := root.2.choose_spec
      exact ⟨_, rfl, above, below upper rfl, _, rfl, le_refl _, ⟨0, zero, le_refl _⟩, 0, zero,
        le_refl _⟩
    case isFalse => exact BracketSolver.atEnds.narrows func lower upper proper bracket

theorem BracketSolver.exact_point {func : K → Option K} {lower : K} {upper : Option K}
    {bracket : K × K}
    (roots : ChangesSign func lower upper →
      ∃ x, lower ≤ x ∧ (∀ bound ∈ upper, x ≤ bound) ∧ func x = some 0)
    (found : bracket ∈ BracketSolver.exact.solve func lower upper) :
    bracket.1 = bracket.2 := by
  have changes : ChangesSign func lower upper := by
    by_contra unchanged
    rw [BracketSolver.exact.fails func lower upper unchanged] at found
    cases found
  have solved : BracketSolver.exact.solve func lower upper =
      some ((roots changes).choose, (roots changes).choose) :=
    dif_pos ⟨changes, roots changes⟩
  rw [solved] at found
  cases found
  rfl

end Exact

end Flow123d.Library
