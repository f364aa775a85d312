import Mathlib.Data.List.Basic
import Mathlib.Data.List.Sort
import Mathlib.Data.List.TakeWhile
import Mathlib.Data.Nat.Notation
import Flow123d.Library.Numerals

/-!
# Sorted lists

Sorting, the search for an item and the reading of a part of a sorted list.
-/

set_option autoImplicit false

/-!
## Unstable sorting and ranges of sorted lists

`std::sort` promises an ordered permutation and nothing about equivalent
values, so it is a parameter with exactly that promise. A list ordered by a key
splits at every bound of the key.
-/

namespace Flow123d.Library

/-- An implementation of `std::sort` for the given `operator<`. -/
structure StdSort {α : Type} (less : α → α → Bool) where
  sort : List α → List α
  perm : ∀ values, (sort values).Perm values
  ordered : ∀ values, (sort values).Pairwise fun a b => less b a = false

def StdSort.insertion {α : Type} (less : α → α → Bool)
    (total : ∀ a b, less a b = false ∨ less b a = false)
    (trans : ∀ a b c, less b a = false → less c b = false → less c a = false) :
    StdSort less where
  sort := List.insertionSort fun a b => less b a = false
  perm := List.perm_insertionSort _
  ordered := by
    intro values
    have : Std.Total fun a b => less b a = false := ⟨fun a b => total b a⟩
    have : IsTrans α fun a b => less b a = false := ⟨trans⟩
    exact List.pairwise_insertionSort _ values

section Ranges

variable {α : Type}

theorem filter_lt_append_filter_ge (key : α → ℕ) (bound : ℕ) {values : List α}
    (ordered : values.Pairwise fun a b => key a ≤ key b) :
    values.filter (fun a => key a < bound) ++
      values.filter (fun a => bound ≤ key a) = values := by
  induction values with
  | nil => rfl
  | cons head tail ih =>
      obtain ⟨headLe, tailOrdered⟩ := List.pairwise_cons.mp ordered
      by_cases below : key head < bound
      · simp only [List.filter_cons, below, decide_true, if_true, not_le.mpr below,
          decide_false, Bool.false_eq_true, if_false, List.cons_append, ih tailOrdered]
      · have above := not_lt.mp below
        have noneBelow : tail.filter (fun a => key a < bound) = [] := by
          rw [List.filter_eq_nil_iff]
          intro a member
          have le := headLe a member
          simp only [decide_eq_true_eq]
          omega
        have allAbove : tail.filter (fun a => bound ≤ key a) = tail := by
          rw [List.filter_eq_self]
          intro a member
          have le := headLe a member
          simp only [decide_eq_true_eq]
          omega
        simp [below, above, noneBelow, allAbove]

theorem take_drop_key (key : α → ℕ) (bound : ℕ) {values : List α}
    (ordered : values.Pairwise fun a b => key a ≤ key b) :
    (values.drop (values.countP fun a => key a < bound)).take
      (values.countP (fun a => key a < bound + 1) -
        values.countP fun a => key a < bound) =
      values.filter fun a => key a = bound := by
  have below := filter_lt_append_filter_ge key bound ordered
  set above := values.filter (fun a => bound ≤ key a) with aboveDef
  have aboveOrdered : above.Pairwise fun a b => key a ≤ key b :=
    ordered.sublist List.filter_sublist
  have splitAbove := filter_lt_append_filter_ge key (bound + 1) aboveOrdered
  have exact_eq : above.filter (fun a => key a < bound + 1) =
      values.filter fun a => key a = bound := by
    rw [aboveDef, List.filter_filter]
    refine List.filter_congr fun a _ => ?_
    rw [Bool.eq_iff_iff]
    simp only [Bool.and_eq_true, decide_eq_true_eq]
    omega
  have count : values.countP (fun a => key a < bound + 1) -
      values.countP (fun a => key a < bound) =
      (values.filter fun a => key a = bound).length := by
    rw [← exact_eq, ← List.countP_eq_length_filter]
    conv_lhs => rw [← below]
    simp only [List.countP_append, List.countP_filter]
    have first : values.countP (fun a => decide (key a < bound + 1) &&
        decide (key a < bound)) = values.countP fun a => key a < bound := by
      refine List.countP_congr fun a _ => ?_
      simp only [Bool.and_eq_true, decide_eq_true_eq]
      omega
    have second : values.countP (fun a => decide (key a < bound) &&
        decide (key a < bound)) = values.countP fun a => key a < bound := by
      simp
    have third : above.countP (fun a => key a < bound) = 0 := by
      rw [aboveDef, List.countP_filter, List.countP_eq_zero]
      intro a _
      simp only [Bool.and_eq_true, decide_eq_true_eq]
      omega
    rw [first, second, third]
    omega
  have rest : values.drop (values.countP fun a => key a < bound) = above := by
    rw [List.countP_eq_length_filter]
    nth_rewrite 2 [← below]
    exact List.drop_left
  rw [count, rest, ← splitAbove, exact_eq]
  exact List.take_left

end Ranges

end Flow123d.Library

/-!
## Search backwards in a sorted list

A search that starts at the first item that is not before a bound, and goes back from there.
-/

namespace Flow123d.Library

variable {α : Type} {before accepts : α → Bool} {items : List α}

/-- The first item that is not before the bound is tried first. There is none where all items
are before it. -/
def searchBack (before accepts : α → Bool) (items : List α) : Option α :=
  match items.dropWhile before with
  | [] => none
  | first :: _ => (first :: (items.takeWhile before).reverse).find? accepts

/-- The items behind the one where the search starts. -/
def behindStart (before : α → Bool) (items : List α) : List α := (items.dropWhile before).tail

theorem searchBack_mem {item : α} (found : searchBack before accepts items = some item) :
    item ∈ items := by
  unfold searchBack at found
  cases rest : items.dropWhile before with
  | nil =>
      rw [rest] at found
      cases found
  | cons first more =>
      rw [rest] at found
      rw [← List.takeWhile_append_dropWhile (p := before) (l := items), rest, List.mem_append]
      rcases List.mem_cons.mp (List.mem_of_find?_eq_some found) with rfl | earlier
      · exact .inr List.mem_cons_self
      · exact .inl (List.mem_reverse.mp earlier)

theorem searchBack_accepts {item : α} (found : searchBack before accepts items = some item) :
    accepts item = true := by
  unfold searchBack at found
  cases rest : items.dropWhile before with
  | nil =>
      rw [rest] at found
      cases found
  | cons first more =>
      rw [rest] at found
      exact List.find?_some found

/-- The search does not leave the list if there is an accepted item before the bound. -/
theorem exists_searchBack {item stop : α} (accepted : accepts item = true)
    (early : item ∈ items.takeWhile before) (last : stop ∈ items) (late : before stop = false) :
    ∃ found, searchBack before accepts items = some found := by
  unfold searchBack
  cases rest : items.dropWhile before with
  | nil =>
      have all := List.dropWhile_eq_nil_iff.mp rest stop last
      rw [late] at all
      cases all
  | cons first more =>
      cases found : (first :: (items.takeWhile before).reverse).find? accepts with
      | some item => exact ⟨item, found⟩
      | none =>
          have rejected := List.find?_eq_none.mp found item
            (List.mem_cons_of_mem _ (List.mem_reverse.mpr early))
          exact absurd accepted rejected

/-- An item before the bound is among those in front of the start. -/
theorem mem_takeWhile_of_sorted {le : α → α → Prop} (sorted : items.Pairwise le)
    (closed : ∀ earlier later, le earlier later → before later = true → before earlier = true)
    {item : α} (inside : item ∈ items) (early : before item = true) :
    item ∈ items.takeWhile before := by
  induction items with
  | nil => cases inside
  | cons first rest ih =>
      rw [List.pairwise_cons] at sorted
      have firstEarly : before first = true := by
        cases inside with
        | head => exact early
        | tail _ member => exact closed first item (sorted.1 item member) early
      rw [List.takeWhile_cons_of_pos firstEarly]
      cases inside with
      | head => exact List.mem_cons_self
      | tail _ member => exact List.mem_cons_of_mem _ (ih sorted.2 member)

theorem mem_dropWhile_of_not {item : α} (inside : item ∈ items) (late : before item = false) :
    item ∈ items.dropWhile before := by
  rw [← List.takeWhile_append_dropWhile (p := before) (l := items), List.mem_append] at inside
  rcases inside with skipped | kept
  · have early := List.mem_takeWhile_imp skipped
    rw [late] at early
    cases early
  · exact kept

/-- The search starts in front of an item that an item not before the bound precedes. -/
theorem mem_behindStart {le : α → α → Prop} (sorted : items.Pairwise le)
    (refl : ∀ item ∈ items, le item item) {item other : α} (inside : item ∈ items)
    (late : before item = false) (otherInside : other ∈ items) (otherLate : before other = false)
    (precedes : ¬ le item other) : item ∈ behindStart before items := by
  have kept := mem_dropWhile_of_not inside late
  have otherKept := mem_dropWhile_of_not otherInside otherLate
  have keptSorted := sorted.sublist (List.dropWhile_sublist before)
  unfold behindStart
  cases rest : items.dropWhile before with
  | nil =>
      rw [rest] at kept
      cases kept
  | cons first more =>
      rw [rest] at kept otherKept keptSorted
      rcases List.mem_cons.mp kept with rfl | behind
      · refine absurd ?_ precedes
        rcases List.mem_cons.mp otherKept with rfl | later
        · exact refl other inside
        · exact (List.pairwise_cons.mp keptSorted).1 other later
      · exact behind

/-- What is behind the start comes after the first item that is not before the bound. -/
theorem first_of_behindStart {item : α} (behind : item ∈ behindStart before items) :
    ∃ front first back, items = front ++ first :: back ∧ before first = false ∧ item ∈ back := by
  have head := List.head?_dropWhile_not before items
  unfold behindStart at behind
  cases rest : items.dropWhile before with
  | nil =>
      rw [rest] at behind
      cases behind
  | cons first more =>
      rw [rest] at behind head
      refine ⟨items.takeWhile before, first, more, ?_, by simpa using head, behind⟩
      rw [← rest, List.takeWhile_append_dropWhile]

/-- The item found is in front of all that is behind the start. -/
theorem searchBack_inFront {item other : α} (found : searchBack before accepts items = some item)
    (behind : other ∈ behindStart before items) :
    ∃ front back, items = front ++ item :: back ∧ other ∈ back := by
  have split := List.takeWhile_append_dropWhile (p := before) (l := items)
  unfold searchBack at found
  unfold behindStart at behind
  cases rest : items.dropWhile before with
  | nil =>
      rw [rest] at found
      cases found
  | cons first more =>
      rw [rest] at found behind split
      rcases List.mem_cons.mp (List.mem_of_find?_eq_some found) with rfl | earlier
      · exact ⟨items.takeWhile before, more, split.symm, behind⟩
      · obtain ⟨front, back, parts⟩ := List.append_of_mem (List.mem_reverse.mp earlier)
        refine ⟨front, back ++ first :: more, ?_,
          List.mem_append_right _ (List.mem_cons_of_mem _ behind)⟩
        rw [← split, parts, List.append_assoc, List.cons_append]

/-- No accepted item up to the start of the search comes later than the one found. -/
theorem searchBack_latest {le : α → α → Prop} (sorted : items.Pairwise le)
    (refl : ∀ item ∈ items, le item item) {item other : α}
    (found : searchBack before accepts items = some item) (inside : other ∈ items)
    (accepted : accepts other = true) (notBehind : other ∉ behindStart before items) :
    le other item := by
  have split := List.takeWhile_append_dropWhile (p := before) (l := items)
  unfold searchBack at found
  unfold behindStart at notBehind
  cases rest : items.dropWhile before with
  | nil =>
      rw [rest] at found
      cases found
  | cons first more =>
      rw [rest] at found notBehind split
      have reversed : (more.reverse ++ (first :: (items.takeWhile before).reverse)).Pairwise
          fun later earlier => le earlier later := by
        have backwards := List.pairwise_reverse.mpr (split.symm ▸ sorted)
        simpa using backwards
      have ordered := (List.pairwise_append.mp reversed).2.1
      have tried : other ∈ first :: (items.takeWhile before).reverse := by
        rw [← split, List.mem_append, List.mem_cons] at inside
        simp only [List.tail_cons] at notBehind
        rcases inside with early | rfl | late
        · exact List.mem_cons_of_mem _ (List.mem_reverse.mpr early)
        · exact List.mem_cons_self
        · exact absurd late notBehind
      obtain ⟨-, front, back, parts, earlier⟩ := List.find?_eq_some_iff_append.mp found
      rw [parts] at ordered tried
      rcases List.mem_append.mp tried with passed | here
      · have rejected := earlier other passed
        rw [accepted] at rejected
        cases rejected
      · rcases List.mem_cons.mp here with rfl | before_
        · exact refl other inside
        · exact (List.pairwise_cons.mp (List.pairwise_append.mp ordered).2.1).1 other before_

end Flow123d.Library

/-!
## Cursors in sorted lists

A list is read in pieces, as far as its items satisfy a predicate. Where no item behind one
that fails the predicate satisfies it, the items that were read are all that satisfy it.
-/

namespace Flow123d.Library

variable {α : Type} {holds : α → Bool} {items : List α}

/-- An item that satisfies the predicate has only such items before it. -/
def Initially (holds : α → Bool) (items : List α) : Prop :=
  items.Pairwise fun before item => holds item = true → holds before = true

theorem Initially.filter_eq_takeWhile (initially : Initially holds items) :
    items.filter holds = items.takeWhile holds := by
  induction items with
  | nil => rfl
  | cons item rest ih =>
      obtain ⟨first, later⟩ := List.pairwise_cons.mp initially
      cases satisfied : holds item with
      | true =>
          rw [List.filter_cons_of_pos satisfied, List.takeWhile_cons_of_pos satisfied, ih later]
      | false =>
          have fails := Bool.not_eq_true _ ▸ satisfied
          rw [List.takeWhile_cons_of_neg fails, List.filter_eq_nil_iff]
          intro other listed satisfies
          rcases List.mem_cons.mp listed with rfl | behind
          · exact fails satisfies
          · exact fails (first other behind satisfies)

/-- What the cursor has passed, and the piece it reads next. -/
theorem Initially.filter_eq_append (initially : Initially holds items) {position : ℕ}
    (passed : ∀ item ∈ items.take position, holds item = true) :
    items.filter holds = items.take position ++ (items.drop position).takeWhile holds := by
  have behind : Initially holds (items.drop position) :=
    initially.sublist (List.drop_sublist position items)
  rw [← behind.filter_eq_takeWhile, ← List.filter_eq_self.mpr passed, ← List.filter_append,
    List.take_append_drop]

/-- The pieces up to one predicate and then up to a weaker one. -/
theorem takeWhile_append_takeWhile {weaker : α → Bool}
    (weakens : ∀ item, holds item = true → weaker item = true) (items : List α) :
    items.takeWhile holds ++ (items.dropWhile holds).takeWhile weaker =
      items.takeWhile weaker := by
  induction items with
  | nil => rfl
  | cons item rest ih =>
      cases satisfied : holds item with
      | true =>
          rw [List.takeWhile_cons_of_pos satisfied, List.dropWhile_cons_of_pos satisfied,
            List.takeWhile_cons_of_pos (weakens item satisfied), List.cons_append, ih]
      | false =>
          have fails := Bool.not_eq_true _ ▸ satisfied
          rw [List.takeWhile_cons_of_neg fails, List.dropWhile_cons_of_neg fails,
            List.nil_append]

theorem dropWhile_dropWhile {weaker : α → Bool}
    (weakens : ∀ item, holds item = true → weaker item = true) (items : List α) :
    (items.dropWhile holds).dropWhile weaker = items.dropWhile weaker := by
  induction items with
  | nil => rfl
  | cons item rest ih =>
      cases satisfied : holds item with
      | true =>
          rw [List.dropWhile_cons_of_pos satisfied,
            List.dropWhile_cons_of_pos (weakens item satisfied), ih]
      | false =>
          have fails := Bool.not_eq_true _ ▸ satisfied
          rw [List.dropWhile_cons_of_neg fails]

/-- What is left are the items that do not satisfy the predicate. -/
theorem Initially.mem_dropWhile (initially : Initially holds items) {item : α} :
    item ∈ items.dropWhile holds ↔ item ∈ items ∧ holds item = false := by
  constructor
  · intro left
    refine ⟨(List.dropWhile_sublist holds).subset left, ?_⟩
    rw [← Bool.not_eq_true]
    intro satisfied
    have passed := initially
    rw [Initially, ← List.takeWhile_append_dropWhile (p := holds) (l := items)] at passed
    have behind := (List.pairwise_append.mp passed).2.1
    have head := List.head?_dropWhile_not holds items
    cases rest : items.dropWhile holds with
    | nil =>
        rw [rest] at left
        cases left
    | cons first more =>
        rw [rest] at left behind head
        have firstFails : holds first = false := by simpa using head
        rcases List.mem_cons.mp left with rfl | later
        · exact Bool.false_ne_true (firstFails.symm.trans satisfied)
        · have firstHolds := (List.pairwise_cons.mp behind).1 item later satisfied
          exact Bool.false_ne_true (firstFails.symm.trans firstHolds)
  · rintro ⟨inside, fails⟩
    exact mem_dropWhile_of_not inside fails

theorem take_add_length_takeWhile (holds : α → Bool) (items : List α) (position : ℕ) :
    items.take (position + ((items.drop position).takeWhile holds).length) =
      items.take position ++ (items.drop position).takeWhile holds := by
  rw [List.take_add, ← List.prefix_iff_eq_take.mp (List.takeWhile_prefix holds)]

end Flow123d.Library
