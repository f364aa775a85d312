import Mathlib.Algebra.BigOperators.Group.Finset.Basic
import Mathlib.Algebra.BigOperators.Intervals
import Mathlib.Data.Finset.Card
import Mathlib.Data.Finset.Range
import Mathlib.Data.List.Nodup
import Mathlib.Data.List.Pairwise
import Mathlib.Data.List.Perm.Subperm
import Mathlib.Order.Interval.Finset.Nat
import Flow123d.Library.Numerals

/-!
# Numberings

Consecutive numbers for the items of a list, numbers in the order of a key, and tables that are
filled by numbered turns.
-/

set_option autoImplicit false

/-!
## Items numbered one after another

Each item of a list takes as many consecutive numbers as it needs, after those of the items
before it.
-/

namespace Flow123d.Library

variable {α : Type}

/-- The next free number and the numbers given out so far. -/
structure Numbered (α : Type) where
  next : ℕ
  numbers : α → List ℕ

namespace Numbered

variable [DecidableEq α]

def take (count : α → ℕ) (state : Numbered α) (item : α) : Numbered α where
  next := state.next + count item
  numbers := Function.update state.numbers item (List.range' state.next (count item))

variable {count : α → ℕ} {state : Numbered α} {items : List α}

theorem foldl_take_next : (items.foldl (take count) state).next =
    state.next + (items.map count).sum := by
  induction items generalizing state with
  | nil => rfl
  | cons item items ih =>
      rw [List.foldl_cons, ih, List.map_cons, List.sum_cons]
      exact Nat.add_assoc _ _ _

theorem foldl_take_of_notMem {other : α} (outside : other ∉ items) :
    (items.foldl (take count) state).numbers other = state.numbers other := by
  induction items generalizing state with
  | nil => rfl
  | cons item items ih =>
      rw [List.mem_cons, not_or] at outside
      rw [List.foldl_cons, ih outside.2]
      exact Function.update_of_ne outside.1 _ _

theorem length_foldl_take (distinct : items.Nodup) {item : α} (member : item ∈ items) :
    ((items.foldl (take count) state).numbers item).length = count item := by
  induction items generalizing state with
  | nil => cases member
  | cons first items ih =>
      obtain ⟨fresh, distinct⟩ := List.nodup_cons.mp distinct
      rw [List.foldl_cons]
      rcases List.mem_cons.mp member with rfl | later
      · rw [foldl_take_of_notMem fresh]
        simp [take]
      · exact ih distinct later

/-- Together the items have all numbers from the first to the next free one. -/
theorem flatMap_foldl_take (distinct : items.Nodup) :
    items.flatMap (items.foldl (take count) state).numbers =
      List.range' state.next (items.map count).sum := by
  induction items generalizing state with
  | nil => rfl
  | cons item items ih =>
      obtain ⟨fresh, distinct⟩ := List.nodup_cons.mp distinct
      have own : (take count state item).numbers item = List.range' state.next (count item) :=
        Function.update_self _ _ _
      rw [List.foldl_cons, List.flatMap_cons, foldl_take_of_notMem fresh, ih distinct, own,
        List.map_cons, List.sum_cons]
      exact List.range'_append_1

end Numbered

/-- Where lists put together have no repetition, an item and a place in it are determined. -/
theorem eq_of_getElem?_flatMap {items : List α} {numbers : α → List ℕ}
    (distinct : (items.flatMap numbers).Nodup) {first second : α} (inFirst : first ∈ items)
    (inSecond : second ∈ items) {i j number : ℕ} (atFirst : (numbers first)[i]? = some number)
    (atSecond : (numbers second)[j]? = some number) : first = second ∧ i = j := by
  obtain ⟨each, apart⟩ := List.nodup_flatMap.mp distinct
  have symmetric : Std.Symm (Function.onFun List.Disjoint numbers) :=
    ⟨fun _ _ disjoint _ inFirst inSecond => disjoint inSecond inFirst⟩
  have same : first = second := by
    by_contra different
    exact apart.forall inFirst inSecond different (List.mem_of_getElem? atFirst)
      (List.mem_of_getElem? atSecond)
  subst same
  obtain ⟨bound, _⟩ := List.getElem?_eq_some_iff.mp atFirst
  exact ⟨rfl, (List.getElem?_inj bound (each first inFirst)).mp (atFirst.trans atSecond.symm)⟩

end Flow123d.Library

/-!
## Numberings ordered by a key

Items are numbered so that a smaller key has a smaller number. The numbers of the items of one
key are consecutive.
-/

namespace Flow123d.Library

/-- A numbering of the items below `size` that goes up with the key. -/
structure OrderedNumbering (size : ℕ) (key number : ℕ → ℕ) : Prop where
  below : ∀ i < size, number i < size
  injective : ∀ i < size, ∀ j < size, number i = number j → i = j
  ordered : ∀ i < size, ∀ j < size, key i < key j → number i < number j

namespace OrderedNumbering

variable {size : ℕ} {key number : ℕ → ℕ}

theorem exists_number_eq (numbering : OrderedNumbering size key number) {k : ℕ}
    (bound : k < size) : ∃ i < size, number i = k := by
  have whole : (Finset.range size).image number = Finset.range size := by
    refine Finset.eq_of_subset_of_card_le ?_ ?_
    · intro k member
      obtain ⟨i, inside, rfl⟩ := Finset.mem_image.mp member
      exact Finset.mem_range.mpr (numbering.below i (Finset.mem_range.mp inside))
    · rw [Finset.card_image_of_injOn]
      intro i first j second same
      exact numbering.injective i (by simpa using first) j (by simpa using second) same
  rw [← Finset.mem_range, ← whole, Finset.mem_image] at bound
  obtain ⟨i, inside, equal⟩ := bound
  exact ⟨i, Finset.mem_range.mp inside, equal⟩

/-- The items with smaller keys have the first numbers. -/
theorem number_lt_card_iff (numbering : OrderedNumbering size key number) (bound : ℕ) {i : ℕ}
    (inside : i < size) :
    number i < ((Finset.range size).filter (key · < bound)).card ↔ key i < bound := by
  let smaller := (Finset.range size).filter (key · < bound)
  have cardinality : (smaller.image number).card = smaller.card := by
    refine Finset.card_image_of_injOn fun i first j second same => ?_
    have inFirst := (Finset.mem_filter.mp first).1
    have inSecond := (Finset.mem_filter.mp second).1
    exact numbering.injective i (Finset.mem_range.mp inFirst) j (Finset.mem_range.mp inSecond) same
  -- the numbers of the smaller keys have no gap below them
  have closed : ∀ k ∈ smaller.image number, ∀ l < k, l ∈ smaller.image number := by
    intro k member l less
    obtain ⟨i, isSmaller, rfl⟩ := Finset.mem_image.mp member
    obtain ⟨inSize, inBound⟩ := Finset.mem_filter.mp isSmaller
    rw [Finset.mem_range] at inSize
    obtain ⟨j, bounded, rfl⟩ :=
      numbering.exists_number_eq (less.trans (numbering.below i inSize))
    refine Finset.mem_image_of_mem _ (Finset.mem_filter.mpr ⟨Finset.mem_range.mpr bounded, ?_⟩)
    by_contra large
    have after := numbering.ordered i inSize j bounded (by omega)
    omega
  have initial : smaller.image number = Finset.range smaller.card := by
    refine Finset.eq_of_subset_of_card_le ?_ (by rw [Finset.card_range, cardinality])
    intro k member
    have segment : Finset.range (k + 1) ⊆ smaller.image number := by
      intro l inSegment
      rcases Nat.lt_succ_iff_lt_or_eq.mp (Finset.mem_range.mp inSegment) with less | rfl
      · exact closed k member l less
      · exact member
    have counted := Finset.card_le_card segment
    rw [Finset.card_range, cardinality] at counted
    exact Finset.mem_range.mpr counted
  change number i < smaller.card ↔ _
  rw [← Finset.mem_range, ← initial, Finset.mem_image]
  constructor
  · intro listed
    obtain ⟨j, isSmaller, same⟩ := listed
    obtain ⟨inSize, inBound⟩ := Finset.mem_filter.mp isSmaller
    rw [← numbering.injective j (Finset.mem_range.mp inSize) i inside same]
    exact inBound
  · intro inBound
    exact ⟨i, Finset.mem_filter.mpr ⟨Finset.mem_range.mpr inside, inBound⟩, rfl⟩

end OrderedNumbering

theorem card_filter_lt_succ (size : ℕ) (key : ℕ → ℕ) (bound : ℕ) :
    ((Finset.range size).filter (key · < bound + 1)).card =
      ((Finset.range size).filter (key · < bound)).card +
        ((Finset.range size).filter (key · = bound)).card := by
  rw [← Finset.card_union_of_disjoint]
  · congr 1
    ext i
    simp only [Finset.mem_filter, Finset.mem_union, ← and_or_left, Nat.lt_succ_iff_lt_or_eq]
  · rw [Finset.disjoint_filter]
    intro i _ less equal
    omega

end Flow123d.Library

/-!
## Tables filled by numbered turns

Each turn of a loop writes to the place that a key names. Where no key is repeated, all writes
stand.
-/

namespace Flow123d.Library

/-! ## Inverse numberings -/

/-- Every turn writes its own number. -/
def fillPositions (n : ℕ) (key : ℕ → ℕ) (table : List (Option ℕ)) : List (Option ℕ) :=
  (List.range n).foldl (fun table i => table.set (key i) (some i)) table

section Positions

variable {n size : ℕ} {key : ℕ → ℕ} {table : List (Option ℕ)}

theorem fillPositions_succ (n : ℕ) (key : ℕ → ℕ) (table : List (Option ℕ)) :
    fillPositions (n + 1) key table = (fillPositions n key table).set (key n) (some n) := by
  simp only [fillPositions, List.range_succ, List.foldl_append, List.foldl_cons, List.foldl_nil]

@[simp] theorem length_fillPositions (n : ℕ) (key : ℕ → ℕ) (table : List (Option ℕ)) :
    (fillPositions n key table).length = table.length := by
  induction n with
  | zero => rfl
  | succ n ih => rw [fillPositions_succ, List.length_set, ih]

theorem getElem?_fillPositions (distinct : ∀ i < n, ∀ j < n, key i = key j → i = j) {i : ℕ}
    (inside : i < n) (room : key i < table.length) :
    (fillPositions n key table)[key i]? = some (some i) := by
  induction n with
  | zero => exact absurd inside (Nat.not_lt_zero i)
  | succ n ih =>
      rw [fillPositions_succ]
      by_cases last : i = n
      · subst last
        exact List.getElem?_set_self (by simpa using room)
      · have apart : key n ≠ key i := by
          intro same
          exact last (distinct n (Nat.lt_succ_self n) i inside same).symm
        rw [List.getElem?_set_ne apart]
        exact ih (fun i first j second => distinct i (Nat.lt_succ_of_lt first) j
          (Nat.lt_succ_of_lt second)) (by omega)

/-- A place of an empty table that holds a number has been written by that turn. -/
theorem key_of_getElem?_fillPositions {place i : ℕ}
    (filled : (fillPositions n key (List.replicate size none))[place]? = some (some i)) :
    i < n ∧ key i = place := by
  induction n with
  | zero =>
      have empty : (List.replicate size (none : Option ℕ))[place]? = some (some i) := filled
      rw [List.getElem?_replicate] at empty
      split_ifs at empty
      cases empty
  | succ n ih =>
      rw [fillPositions_succ] at filled
      by_cases here : key n = place
      · subst here
        rw [List.getElem?_set, if_pos rfl] at filled
        split_ifs at filled with inside
        cases filled
        exact ⟨Nat.lt_succ_self _, rfl⟩
      · rw [List.getElem?_set_ne here] at filled
        obtain ⟨before, same⟩ := ih filled
        exact ⟨Nat.lt_succ_of_lt before, same⟩

/-- Keys that fill an empty table of their number are not repeated. -/
theorem nodup_of_fillPositions {values : List ℕ}
    (filled : fillPositions n key (List.replicate n none) = values.map some) :
    ((List.range n).map key).Nodup := by
  have length : values.length = n := by
    have lengths := congrArg List.length filled
    simpa using lengths.symm
  have covered : List.range n ⊆ (List.range n).map key := by
    intro place inside
    have bound : place < values.length := length ▸ List.mem_range.mp inside
    have here : (fillPositions n key (List.replicate n none))[place]? =
        some (some values[place]) := by
      rw [filled, List.getElem?_map, List.getElem?_eq_getElem bound]
      rfl
    obtain ⟨turn, same⟩ := key_of_getElem?_fillPositions here
    exact List.mem_map.mpr ⟨_, List.mem_range.mpr turn, same⟩
  have perm := (List.nodup_range.subperm covered).perm_of_length_le (by simp)
  exact perm.nodup_iff.mp List.nodup_range

end Positions

/-! ## Sums of the entries -/

/-- A table of zeros with one entry for each turn. -/
theorem foldl_update_eq_sum {ι K : Type} [DecidableEq ι] [AddCommMonoid K] {n : ℕ}
    {key : ℕ → ι} (value : ℕ → K) (distinct : ∀ i < n, ∀ j < n, key i = key j → i = j)
    (place : ι) :
    (List.range n).foldl (fun table i => Function.update table (key i) (value i))
        (0 : ι → K) place =
      ∑ i ∈ Finset.range n, if key i = place then value i else 0 := by
  induction n with
  | zero => rfl
  | succ n ih =>
      have before := ih fun i first j second => distinct i (Nat.lt_succ_of_lt first) j
        (Nat.lt_succ_of_lt second)
      rw [List.range_succ, List.foldl_append, List.foldl_cons, List.foldl_nil,
        Finset.sum_range_succ]
      by_cases here : key n = place
      · subst here
        have others : ∑ i ∈ Finset.range n, (if key i = key n then value i else 0) = 0 := by
          refine Finset.sum_eq_zero fun i inside => if_neg fun same => ?_
          have less := Finset.mem_range.mp inside
          have equal := distinct i (Nat.lt_succ_of_lt less) n (Nat.lt_succ_self n) same
          omega
        rw [Function.update_self, if_pos rfl, others, zero_add]
      · rw [Function.update_of_ne (Ne.symm here), if_neg here, add_zero, before]

end Flow123d.Library
