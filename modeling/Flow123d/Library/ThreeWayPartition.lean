import Mathlib.Data.List.Basic
import Mathlib.Data.List.GetD
import Flow123d.Library.Numerals

/-!
# Three-way partition in place

The values between two positions are rearranged by swaps into those of the low
side, those on both sides and those of the high side.
-/

set_option autoImplicit false

namespace Flow123d.Library

variable {α : Type} [Inhabited α]

def swap (values : List α) (i j : ℕ) : List α :=
  (values.set i (values.getD j default)).set j (values.getD i default)

structure Partition (α : Type) where
  values : List α
  bound1 : ℕ
  bound2 : ℕ
  bound3 : ℕ

def partitionStep (side : α → Ordering) (state : Partition α) : Partition α :=
  match side (state.values.getD state.bound2 default) with
  | .eq => { state with bound2 := state.bound2 + 1 }
  | .lt =>
      { state with
        values := if state.bound1 ≠ state.bound2 then
            swap state.values state.bound1 state.bound2
          else state.values
        bound1 := state.bound1 + 1
        bound2 := state.bound2 + 1 }
  | .gt =>
      { state with
        values := swap state.values state.bound2 (state.bound3 - 1)
        bound3 := state.bound3 - 1 }

def partitionLoop (side : α → Ordering) : ℕ → Partition α → Partition α
  | 0, state => state
  | turns + 1, state => partitionLoop side turns (partitionStep side state)

/-- Every turn brings `bound2` and `bound3` closer by one. -/
def threeWayPartition (side : α → Ordering) (values : List α) (lower upper : ℕ) :
    Partition α :=
  partitionLoop side (upper - lower) ⟨values, lower, lower, upper⟩

theorem swap_append (front middle back : List α) (x y : α) :
    swap (front ++ x :: (middle ++ y :: back)) front.length
      (front.length + 1 + middle.length) =
      front ++ y :: (middle ++ x :: back) := by
  have second : (front ++ x :: (middle ++ y :: back)).getD
      (front.length + 1 + middle.length) default = y := by
    rw [List.getD_eq_getElem?_getD, List.getElem?_append_right (by omega)]
    have position : front.length + 1 + middle.length - front.length =
        middle.length + 1 := by omega
    simp [position]
  have first : (front ++ x :: (middle ++ y :: back)).getD front.length default = x := by
    simp [List.getD_eq_getElem?_getD]
  rw [swap, first, second, List.set_append_right _ _ (Nat.le_refl _), Nat.sub_self,
    List.set_cons_zero, List.set_append_right _ _ (by omega)]
  have position : front.length + 1 + middle.length - front.length =
      middle.length + 1 := by omega
  rw [position, List.set_cons_succ, List.set_append_right _ _ (Nat.le_refl _), Nat.sub_self,
    List.set_cons_zero]

theorem swap_self {values : List α} {i : ℕ} (bound : i < values.length) :
    swap values i i = values := by
  rw [swap, List.set_set, List.getD_eq_getElem _ _ bound, List.set_getElem_self]

/-- The state of the loop: the values of the segment that are placed stand on
their sides, `unknown` are the others. -/
structure Partitioned (side : α → Ordering) (before segment after : List α)
    (low middle unknown high : List α) (state : Partition α) : Prop where
  values : state.values =
    before ++ (low ++ (middle ++ (unknown ++ (high ++ after))))
  bound1 : state.bound1 = before.length + low.length
  bound2 : state.bound2 = before.length + low.length + middle.length
  bound3 : state.bound3 = before.length + low.length + middle.length + unknown.length
  lowSide : ∀ value ∈ low, side value = .lt
  middleSide : ∀ value ∈ middle, side value = .eq
  highSide : ∀ value ∈ high, side value = .gt
  perm : (low ++ (middle ++ (unknown ++ high))).Perm segment

section Step

variable {side : α → Ordering} {before segment after low middle rest high : List α}
  {value : α} {state : Partition α}

private theorem Partitioned.current
    (valid : Partitioned side before segment after low middle (value :: rest) high state) :
    state.values.getD state.bound2 default = value := by
  have front : state.values =
      (before ++ low ++ middle) ++ value :: (rest ++ (high ++ after)) := by
    rw [valid.values]
    simp
  have length : state.bound2 = (before ++ low ++ middle).length := by
    rw [valid.bound2, List.length_append, List.length_append]
  rw [front, length, List.getD_append_right _ _ _ _ (Nat.le_refl _), Nat.sub_self]
  rfl

private theorem Partitioned.step_both
    (valid : Partitioned side before segment after low middle (value :: rest) high state)
    (onSide : side value = .eq) :
    Partitioned side before segment after low (middle ++ [value]) rest high
      (partitionStep side state) := by
  rw [partitionStep, valid.current, onSide]
  constructor
  · simpa using valid.values
  · exact valid.bound1
  · simp only [valid.bound2, List.length_append, List.length_singleton]
    omega
  · simp only [valid.bound3, List.length_append, List.length_cons, List.length_nil]
    omega
  · exact valid.lowSide
  · intro other member
    rcases List.mem_append.mp member with old | new
    · exact valid.middleSide other old
    · cases List.mem_singleton.mp new
      exact onSide
  · exact valid.highSide
  · simpa using valid.perm

private theorem Partitioned.step_low
    (valid : Partitioned side before segment after low middle (value :: rest) high state)
    (onSide : side value = .lt) :
    ∃ placed, Partitioned side before segment after (low ++ [value]) placed rest high
      (partitionStep side state) := by
  have lows : ∀ other ∈ low ++ [value], side other = .lt := by
    intro other member
    rcases List.mem_append.mp member with old | new
    · exact valid.lowSide other old
    · cases List.mem_singleton.mp new
      exact onSide
  rw [partitionStep, valid.current, onSide]
  cases middle with
  | nil =>
      have same : state.bound1 = state.bound2 := by
        rw [valid.bound1, valid.bound2]
        rfl
      refine ⟨[], ?_⟩
      simp only [ne_eq, same, not_true_eq_false, if_false]
      constructor
      · simpa using valid.values
      · simp only [valid.bound2, List.length_append, List.length_cons, List.length_nil]
        omega
      · simp only [valid.bound2, List.length_append, List.length_cons, List.length_nil]
        omega
      · simp only [valid.bound3, List.length_append, List.length_cons, List.length_nil]
        omega
      · exact lows
      · exact valid.middleSide
      · exact valid.highSide
      · simpa using valid.perm
  | cons first middle =>
      -- The first value of the middle makes room for the new one.
      have different : state.bound1 ≠ state.bound2 := by
        rw [valid.bound1, valid.bound2, List.length_cons]
        omega
      have swapped : swap state.values state.bound1 state.bound2 =
          before ++ (low ++ (value :: (middle ++ first :: (rest ++ (high ++ after))))) := by
        have moved := swap_append (before ++ low) middle (rest ++ (high ++ after)) first value
        have position : state.bound2 = (before ++ low).length + 1 + middle.length := by
          rw [valid.bound2, List.length_append, List.length_cons]
          omega
        rw [valid.values, position, valid.bound1, ← List.length_append]
        simpa using moved
      refine ⟨middle ++ [first], ?_⟩
      simp only [ne_eq, different, not_false_eq_true, if_true]
      constructor
      · rw [swapped]
        simp
      · simp only [valid.bound1, List.length_append, List.length_singleton]
        omega
      · simp only [valid.bound2, List.length_append, List.length_cons, List.length_nil]
        omega
      · simp only [valid.bound3, List.length_append, List.length_cons, List.length_nil]
        omega
      · exact lows
      · intro other member
        refine valid.middleSide other ?_
        rcases List.mem_append.mp member with old | new
        · exact List.mem_cons_of_mem _ old
        · rw [List.mem_singleton.mp new]
          exact List.mem_cons_self
      · exact valid.highSide
      · refine List.Perm.trans ?_ valid.perm
        simp only [List.append_assoc, List.cons_append, List.nil_append]
        refine List.Perm.append_left low ?_
        calc value :: (middle ++ first :: (rest ++ high))
            _ |>.Perm (value :: first :: (middle ++ (rest ++ high))) :=
              List.Perm.cons _ List.perm_middle
            _ |>.Perm (first :: value :: (middle ++ (rest ++ high))) :=
              List.Perm.swap _ _ _
            _ |>.Perm (first :: (middle ++ value :: (rest ++ high))) :=
              List.Perm.cons _ List.perm_middle.symm

private theorem Partitioned.step_high
    (valid : Partitioned side before segment after low middle (value :: rest) high state)
    (onSide : side value = .gt) :
    ∃ open_, open_.length = rest.length ∧
      Partitioned side before segment after low middle open_ (value :: high)
        (partitionStep side state) := by
  have highs : ∀ other ∈ value :: high, side other = .gt := by
    intro other member
    rcases List.mem_cons.mp member with new | old
    · rw [new]
      exact onSide
    · exact valid.highSide other old
  rw [partitionStep, valid.current, onSide]
  rcases List.eq_nil_or_concat rest with empty | ⟨front, last, split⟩
  · subst empty
    have position : state.bound3 - 1 = state.bound2 := by
      rw [valid.bound3, valid.bound2, List.length_singleton]
      omega
    have inside : state.bound2 < state.values.length := by
      simp only [valid.bound2, valid.values, List.length_append, List.length_cons]
      omega
    refine ⟨[], rfl, ?_⟩
    simp only [position, swap_self inside]
    constructor
    · simpa using valid.values
    · exact valid.bound1
    · exact valid.bound2
    · simpa using valid.bound2
    · exact valid.lowSide
    · exact valid.middleSide
    · exact highs
    · simpa using valid.perm
  · rw [List.concat_eq_append] at split
    subst split
    have swapped : swap state.values state.bound2 (state.bound3 - 1) =
        before ++ (low ++ (middle ++ (last :: (front ++ value :: (high ++ after))))) := by
      have moved := swap_append (before ++ low ++ middle) front (high ++ after) value last
      have position : state.bound3 - 1 =
          (before ++ low ++ middle).length + 1 + front.length := by
        simp only [valid.bound3, List.length_append, List.length_cons, List.length_nil]
        omega
      rw [valid.values, position, valid.bound2, ← List.length_append, ← List.length_append]
      simpa using moved
    refine ⟨last :: front, by simp, ?_⟩
    constructor
    · rw [swapped]
      simp
    · exact valid.bound1
    · exact valid.bound2
    · simp only [valid.bound3, List.length_append, List.length_cons, List.length_nil]
      omega
    · exact valid.lowSide
    · exact valid.middleSide
    · exact highs
    · refine List.Perm.trans ?_ valid.perm
      simp only [List.append_assoc, List.cons_append, List.nil_append]
      refine (List.Perm.append_left middle ?_).append_left low
      have moved : ((last :: front) ++ value :: high).Perm
          (value :: ((last :: front) ++ high)) := List.perm_middle
      have back : (last :: front ++ high).Perm (front ++ last :: high) :=
        List.perm_middle.symm
      exact moved.trans (List.Perm.cons value back)

end Step

theorem partition_loop_spec {side : α → Ordering} {before segment after : List α} :
    ∀ (unknown low middle high : List α) (state : Partition α),
      Partitioned side before segment after low middle unknown high state →
      ∃ low middle high, Partitioned side before segment after low middle [] high
        (partitionLoop side unknown.length state) := by
  intro unknown
  induction length : unknown.length generalizing unknown with
  | zero =>
      intro low middle high state valid
      cases List.length_eq_zero_iff.mp length
      exact ⟨low, middle, high, valid⟩
  | succ turns ih =>
      intro low middle high state valid
      cases unknown with
      | nil => cases length
      | cons value rest =>
          have remaining : rest.length = turns := by simpa using length
          cases onSide : side value with
          | lt =>
              obtain ⟨placed, next⟩ := valid.step_low onSide
              exact ih rest remaining _ _ _ _ next
          | eq => exact ih rest remaining _ _ _ _ (valid.step_both onSide)
          | gt =>
              obtain ⟨open_, same, next⟩ := valid.step_high onSide
              exact ih open_ (same.trans remaining) _ _ _ _ next

/-- The partition rearranges the segment into the three groups and leaves the
values outside of it. -/
theorem three_way_partition_spec (side : α → Ordering) (before segment after : List α) :
    ∃ low middle high, Partitioned side before segment after low middle [] high
      (threeWayPartition side (before ++ (segment ++ after)) before.length
        (before.length + segment.length)) := by
  have start : Partitioned side before segment after [] [] segment []
      ⟨before ++ (segment ++ after), before.length, before.length,
        before.length + segment.length⟩ :=
    ⟨by simp, by simp, by simp, by simp, by simp, by simp, by simp, by simp⟩
  have turns : before.length + segment.length - before.length = segment.length := by omega
  rw [threeWayPartition, turns]
  exact partition_loop_spec segment _ _ _ _ start

end Flow123d.Library
