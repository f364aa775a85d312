import Mathlib.Logic.Function.Basic
import Mathlib.Order.WellFounded
import Flow123d.Library.Numerals

/-!
# Linear probing

A table in which every item lies behind its home, with no free place between. A search goes from
the home of a key to the first place that is free or holds an item with the key.
-/

set_option autoImplicit false

namespace Flow123d.Library

variable {ι α : Type} [LinearOrder ι]

/-- The first place from `start` on that has a property. -/
structure FirstFrom (property : ι → Prop) (start first : ι) : Prop where
  le : start ≤ first
  holds : property first
  before : ∀ between, start ≤ between → between < first → ¬ property between

theorem exists_firstFrom [WellFoundedLT ι] {property : ι → Prop} {start place : ι}
    (le : start ≤ place) (holds : property place) : ∃ first, FirstFrom property start first := by
  obtain ⟨first, ⟨fromStart, isFirst⟩, minimal⟩ :=
    WellFounded.has_min wellFounded_lt {place | start ≤ place ∧ property place} ⟨place, le, holds⟩
  exact ⟨first, fromStart, isFirst, fun between after before has =>
    minimal between ⟨after, has⟩ before⟩

/-- Every item lies behind its home, with no free place between. -/
def Probed (home : α → ι) (slots : ι → Option α) : Prop :=
  ∀ place item, slots place = some item →
    home item ≤ place ∧ ∀ between, home item ≤ between → between < place → slots between ≠ none

namespace Probed

variable {home : α → ι} {slots : ι → Option α}

/-- The homes matter only for the items of the table. -/
theorem congr {other : α → ι} (probed : Probed home slots)
    (same : ∀ place item, slots place = some item → other item = home item) :
    Probed other slots := by
  intro place item stored
  rw [same place item stored]
  exact probed place item stored

/-- An item may be put at the first free place from its home on. -/
theorem insert (probed : Probed home slots) {item : α} {free : ι}
    (first : FirstFrom (slots · = none) (home item) free) :
    Probed home (Function.update slots free (some item)) := by
  have stays : ∀ between, slots between ≠ none →
      Function.update slots free (some item) between ≠ none := by
    intro between taken
    rw [Function.update_apply]
    split_ifs
    · exact Option.some_ne_none item
    · exact taken
  intro place stored isStored
  by_cases here : place = free
  · subst here
    rw [Function.update_self] at isStored
    cases isStored
    exact ⟨first.le, fun between after before => stays between (first.before between after before)⟩
  · rw [Function.update_of_ne here] at isStored
    obtain ⟨after, taken⟩ := probed place stored isStored
    exact ⟨after, fun between fromHome before => stays between (taken between fromHome before)⟩

/-- If the search for a key ends at a free place, no item with the key is in the table. -/
theorem not_stored {key : α → Prop} {start first : ι} (probed : Probed home slots)
    (homes : ∀ place item, slots place = some item → key item → home item = start)
    (ends : FirstFrom (fun place => slots place = none ∨ ∃ item, slots place = some item ∧ key item)
      start first) (free : slots first = none) {place : ι} {item : α}
    (stored : slots place = some item) : ¬ key item := by
  intro hasKey
  obtain ⟨after, taken⟩ := probed place item stored
  rw [homes place item stored hasKey] at after taken
  rcases lt_trichotomy place first with before | here | behind
  · exact ends.before place after before (Or.inr ⟨item, stored, hasKey⟩)
  · rw [here, free] at stored
    cases stored
  · exact taken first ends.le behind free

end Probed

end Flow123d.Library
