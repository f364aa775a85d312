import Mathlib.Data.List.Sort
import Mathlib.Data.List.TakeWhile
import Mathlib.Order.Lattice
import Flow123d.Library.Numerals

/-!
# Set operations on sorted ranges

The merges of `std::set_intersection`, `std::set_union` and `std::set_difference`.
-/

set_option autoImplicit false

/-!
## Intersection of sorted ranges

The merge of `std::set_intersection` on lists over a linear order. On sorted
ranges it keeps every value as often as it occurs in both of them.
-/

namespace Flow123d.Library

section SetIntersection

variable {α : Type} [LinearOrder α]

/-- Common values of two sorted ranges. The right range is advanced to the
first value that is not below the left head. -/
def setIntersection : List α → List α → List α
  | [], _ => []
  | a :: as, right =>
      match right.dropWhile (· < a) with
      | [] => []
      | b :: bs =>
          if a < b then setIntersection as (b :: bs)
          else a :: setIntersection as bs

@[simp] theorem set_intersection_nil_left (right : List α) :
    setIntersection [] right = [] := rfl

theorem set_intersection_sublist (left right : List α) :
    (setIntersection left right).Sublist left := by
  induction left generalizing right with
  | nil => simp
  | cons a as ih =>
      rw [setIntersection]
      split
      · exact List.nil_sublist _
      · split
        · exact (ih _).cons a
        · exact (ih _).cons_cons a

theorem set_intersection_sorted {left right : List α}
    (sorted : left.Pairwise (· ≤ ·)) :
    (setIntersection left right).Pairwise (· ≤ ·) :=
  sorted.sublist (set_intersection_sublist left right)

private theorem count_eq_zero_of_lt {value : α} {values : List α}
    (above : ∀ other ∈ values, value < other) : values.count value = 0 := by
  rw [List.count_eq_zero]
  exact fun member => lt_irrefl value (above value member)

private theorem count_dropWhile {bound value : α} (atLeast : bound ≤ value)
    (values : List α) :
    (values.dropWhile (· < bound)).count value = values.count value := by
  induction values with
  | nil => rfl
  | cons head tail ih =>
      by_cases less : head < bound
      · have different : head ≠ value := (less.trans_le atLeast).ne
        simp [less, ih, List.count_cons_of_ne different]
      · simp [less]

private theorem le_of_mem_dropWhile {bound head : α} {values tail : List α}
    (sorted : values.Pairwise (· ≤ ·))
    (rest : values.dropWhile (· < bound) = head :: tail) :
    bound ≤ head ∧ (head :: tail).Pairwise (· ≤ ·) := by
  constructor
  · have first := List.head?_dropWhile_not (fun value => decide (value < bound)) values
    simpa [rest] using first
  · rw [← rest]
    exact sorted.sublist (List.dropWhile_sublist _)

/-- A value is kept as often as it occurs in both sorted ranges. -/
theorem count_set_intersection (value : α) {left right : List α}
    (leftSorted : left.Pairwise (· ≤ ·)) (rightSorted : right.Pairwise (· ≤ ·)) :
    (setIntersection left right).count value =
      min (left.count value) (right.count value) := by
  induction left generalizing right with
  | nil => simp
  | cons a as ih =>
      obtain ⟨headLe, asSorted⟩ := List.pairwise_cons.mp leftSorted
      rcases lt_or_ge value a with below | atLeast
      · -- below the left head the value occurs on neither side of the result
        have absent : (a :: as).count value = 0 := count_eq_zero_of_lt (by
          intro other member
          rcases List.mem_cons.mp member with rfl | member
          · exact below
          · exact below.trans_le (headLe other member))
        have bounded := (set_intersection_sublist (a :: as) right).count_le value
        omega
      · rw [setIntersection, ← count_dropWhile atLeast right]
        cases rest : right.dropWhile (· < a) with
        | nil => simp
        | cons b bs =>
            obtain ⟨aLe, restSorted⟩ := le_of_mem_dropWhile rightSorted rest
            obtain ⟨bLe, bsSorted⟩ := List.pairwise_cons.mp restSorted
            by_cases less : a < b
            · simp only [if_pos less]
              rw [ih asSorted restSorted]
              rcases eq_or_lt_of_le atLeast with same | above
              · have absent : (b :: bs).count value = 0 :=
                  count_eq_zero_of_lt (by
                    intro other member
                    rw [← same]
                    rcases List.mem_cons.mp member with rfl | member
                    · exact less
                    · exact less.trans_le (bLe other member))
                omega
              · rw [List.count_cons_of_ne above.ne]
            · have same : a = b := le_antisymm aLe (not_lt.mp less)
              subst same
              simp only [if_neg less, List.count_cons, ih asSorted bsSorted]
              omega

end SetIntersection

end Flow123d.Library

/-!
## Union and difference of sorted ranges

The merges of `std::set_union` and `std::set_difference` beside that of the intersection. On
ranges without repetitions they are the operations on sets.
-/

namespace Flow123d.Library

variable {α : Type} [LinearOrder α]

def setUnion : List α → List α → List α
  | [], right => right
  | a :: as, right =>
      right.takeWhile (· < a) ++
        match right.dropWhile (· < a) with
        | [] => a :: as
        | b :: bs => if a < b then a :: setUnion as (b :: bs) else a :: setUnion as bs

def setDifference : List α → List α → List α
  | [], _ => []
  | a :: as, right =>
      match right.dropWhile (· < a) with
      | [] => a :: as
      | b :: bs => if a < b then a :: setDifference as (b :: bs) else setDifference as bs

variable {value a : α} {left right : List α}

/-- A range from the first value that is not below the bound. -/
theorem sorted_parts (sorted : right.Pairwise (· < ·)) (bound : α) :
    (right.takeWhile (· < bound)).Pairwise (· < ·) ∧
      (right.dropWhile (· < bound)).Pairwise (· < ·) :=
  ⟨sorted.sublist (List.takeWhile_sublist _), sorted.sublist (List.dropWhile_sublist _)⟩

theorem lt_of_mem_takeWhile (member : value ∈ right.takeWhile (· < a)) : value < a := by
  simpa using List.mem_takeWhile_imp member

theorem mem_parts (value bound : α) (right : List α) :
    value ∈ right ↔ value ∈ right.takeWhile (· < bound) ∨ value ∈ right.dropWhile (· < bound) := by
  rw [← List.mem_append, List.takeWhile_append_dropWhile]

theorem le_head_of_dropWhile {head : α} {tail : List α}
    (rest : right.dropWhile (· < a) = head :: tail) : a ≤ head := by
  have first := List.head?_dropWhile_not (fun value => decide (value < a)) right
  simpa [rest] using first

theorem mem_setUnion : value ∈ setUnion left right ↔ value ∈ left ∨ value ∈ right := by
  induction left generalizing right with
  | nil => simp [setUnion]
  | cons a as ih =>
      rw [setUnion, mem_parts value a right, List.mem_append]
      cases rest : right.dropWhile (· < a) with
      | nil =>
          rw [or_iff_left (List.not_mem_nil (a := value)), or_comm]
      | cons b bs =>
          by_cases less : a < b
          · simp only [if_pos less, List.mem_cons, ih]
            tauto
          · -- the heads are equal, one of them is kept
            have same : a = b := le_antisymm (le_head_of_dropWhile rest) (not_lt.mp less)
            subst same
            simp only [if_neg less, List.mem_cons, ih]
            tauto

theorem setUnion_sorted (leftSorted : left.Pairwise (· < ·))
    (rightSorted : right.Pairwise (· < ·)) : (setUnion left right).Pairwise (· < ·) := by
  induction left generalizing right with
  | nil => exact rightSorted
  | cons a as ih =>
      obtain ⟨headLt, asSorted⟩ := List.pairwise_cons.mp leftSorted
      obtain ⟨below, above⟩ := sorted_parts rightSorted a
      rw [setUnion, List.pairwise_append]
      refine ⟨below, ?_, ?_⟩
      · cases rest : right.dropWhile (· < a) with
        | nil => exact leftSorted
        | cons b bs =>
            rw [rest] at above
            obtain ⟨bLt, bsSorted⟩ := List.pairwise_cons.mp above
            by_cases less : a < b
            · simp only [if_pos less]
              refine List.pairwise_cons.mpr ⟨?_, ih asSorted above⟩
              intro other member
              rcases mem_setUnion.mp member with inAs | inRest
              · exact headLt other inAs
              · rcases List.mem_cons.mp inRest with rfl | inBs
                · exact less
                · exact less.trans (bLt other inBs)
            · have same : a = b := le_antisymm (le_head_of_dropWhile rest) (not_lt.mp less)
              simp only [if_neg less]
              refine List.pairwise_cons.mpr ⟨?_, ih asSorted bsSorted⟩
              intro other member
              rcases mem_setUnion.mp member with inAs | inBs
              · exact headLt other inAs
              · exact same ▸ bLt other inBs
      · intro small inBelow large inAbove
        have smaller := lt_of_mem_takeWhile inBelow
        refine smaller.trans_le ?_
        cases rest : right.dropWhile (· < a) with
        | nil =>
            rw [rest] at inAbove
            rcases List.mem_cons.mp inAbove with rfl | inAs
            · exact le_rfl
            · exact (headLt large inAs).le
        | cons b bs =>
            rw [rest] at inAbove above
            have atLeast : ∀ other ∈ b :: bs, a ≤ other := by
              intro other member
              have aLe := le_head_of_dropWhile rest
              rcases List.mem_cons.mp member with rfl | inBs
              · exact aLe
              · exact aLe.trans ((List.pairwise_cons.mp above).1 other inBs).le
            have cases_above : large = a ∨ large ∈ as ∨ large ∈ b :: bs := by
              by_cases less : a < b
              · simp only [if_pos less, List.mem_cons, mem_setUnion] at inAbove ⊢
                exact inAbove
              · simp only [if_neg less, List.mem_cons, mem_setUnion] at inAbove ⊢
                exact inAbove.imp_right (Or.imp_right .inr)
            rcases cases_above with rfl | inAs | inRest
            · exact le_rfl
            · exact (headLt large inAs).le
            · exact atLeast large inRest

theorem setDifference_sublist (left right : List α) :
    (setDifference left right).Sublist left := by
  induction left generalizing right with
  | nil => exact List.nil_sublist _
  | cons a as ih =>
      rw [setDifference]
      split
      · exact List.Sublist.refl _
      · split
        · exact (ih _).cons_cons a
        · exact (ih _).cons a

theorem mem_setDifference (leftSorted : left.Pairwise (· < ·))
    (rightSorted : right.Pairwise (· < ·)) :
    value ∈ setDifference left right ↔ value ∈ left ∧ value ∉ right := by
  induction left generalizing right with
  | nil => simp [setDifference]
  | cons a as ih =>
      obtain ⟨headLt, asSorted⟩ := List.pairwise_cons.mp leftSorted
      obtain ⟨_, above⟩ := sorted_parts rightSorted a
      have atLeast : value ∈ a :: as → a ≤ value := by
        intro member
        rcases List.mem_cons.mp member with rfl | inAs
        · exact le_rfl
        · exact (headLt value inAs).le
      -- what is below the head of the left range is in none of its values
      have onlyAbove : value ∈ a :: as → (value ∈ right ↔ value ∈ right.dropWhile (· < a)) := by
        intro member
        rw [mem_parts value a right, or_iff_right]
        exact fun below => absurd (lt_of_mem_takeWhile below) (not_lt.mpr (atLeast member))
      rw [setDifference, and_congr_right fun member => not_congr (onlyAbove member)]
      cases rest : right.dropWhile (· < a) with
      | nil => simp
      | cons b bs =>
          rw [rest] at above
          obtain ⟨bLt, bsSorted⟩ := List.pairwise_cons.mp above
          by_cases less : a < b
          · simp only [if_pos less, List.mem_cons, ih asSorted above]
            constructor
            · rintro (rfl | ⟨inAs, other⟩)
              · refine ⟨.inl rfl, not_or.mpr ⟨less.ne, fun inBs => ?_⟩⟩
                exact absurd (less.trans (bLt value inBs)) (lt_irrefl value)
              · exact ⟨.inr inAs, other⟩
            · rintro ⟨rfl | inAs, other⟩
              · exact .inl rfl
              · exact .inr ⟨inAs, other⟩
          · have same : a = b := le_antisymm (le_head_of_dropWhile rest) (not_lt.mp less)
            subst same
            simp only [if_neg less, List.mem_cons, ih asSorted bsSorted]
            constructor
            · rintro ⟨inAs, other⟩
              exact ⟨.inr inAs, not_or.mpr ⟨(headLt value inAs).ne', other⟩⟩
            · rintro ⟨rfl | inAs, other⟩
              · exact absurd (.inl rfl) other
              · exact ⟨inAs, fun inBs => other (.inr inBs)⟩

theorem mem_setIntersection (leftSorted : left.Pairwise (· < ·))
    (rightSorted : right.Pairwise (· < ·)) :
    value ∈ setIntersection left right ↔ value ∈ left ∧ value ∈ right := by
  have weak : ∀ {values : List α}, values.Pairwise (· < ·) → values.Pairwise (· ≤ ·) :=
    fun sorted => sorted.imp le_of_lt
  rw [← List.count_pos_iff, count_set_intersection value (weak leftSorted) (weak rightSorted),
    Nat.lt_min, List.count_pos_iff, List.count_pos_iff]

end Flow123d.Library
