import Mathlib.Logic.Relation
import Flow123d.Library.Numerals

/-!
# Depth first search

What a search from a source has marked, stated without the search: everything new is reached
from the source, and the neighbours of what is new are marked. Rules follow for its loop over the
neighbours, and for a search that starts outside of a closed set in a symmetric relation: it marks
the component of its source.
-/

set_option autoImplicit false

namespace Flow123d.Library

open Relation

variable {α : Type} {adj : α → α → Prop} {source : α} {seen now : α → Prop}

/-- A search from an item that was not marked is over. -/
structure Searched (adj : α → α → Prop) (source : α) (seen after : α → Prop) : Prop where
  begun : after source
  grows : ∀ item, seen item → after item
  reached : ∀ item, after item → seen item ∨ ReflTransGen adj source item
  closed : ∀ item, after item → ¬ seen item → ∀ next, adj item next → after next

/-- The source is marked, and some of its neighbours have been tried. -/
structure Searching (adj : α → α → Prop) (source : α) (seen : α → Prop) (tried : List α)
    (now : α → Prop) : Prop where
  begun : now source
  grows : ∀ item, seen item → now item
  reached : ∀ item, now item → seen item ∨ ReflTransGen adj source item
  closed : ∀ item, now item → ¬ seen item → item ≠ source → ∀ next, adj item next → now next
  tried : ∀ item ∈ tried, adj source item → now item

namespace Searching

theorem start (adj : α → α → Prop) (source : α) (seen : α → Prop) :
    Searching adj source seen [] fun item => seen item ∨ item = source where
  begun := .inr rfl
  grows := fun _ => .inl
  reached := by
    rintro item (before | rfl)
    · exact .inl before
    · exact .inr .refl
  closed := by
    rintro item (before | same) fresh other
    · exact absurd before fresh
    · exact absurd same other
  tried := nofun

variable {tried : List α} {item : α}

theorem congr {other : α → Prop} (searching : Searching adj source seen tried now)
    (same : ∀ item, other item ↔ now item) : Searching adj source seen tried other := by
  have equal : other = now := funext fun item => propext (same item)
  rwa [equal]

/-- A neighbour that is marked, or an item that is none, is passed over. -/
theorem skip (searching : Searching adj source seen tried now)
    (passed : adj source item → now item) :
    Searching adj source seen (tried ++ [item]) now :=
  { searching with
    tried := by
      intro other member beside
      rcases List.mem_append.mp member with before | last
      · exact searching.tried other before beside
      · rw [List.mem_singleton.mp last] at beside ⊢
        exact passed beside }

theorem visit (searching : Searching adj source seen tried now) (beside : adj source item)
    {after : α → Prop} (searched : Searched adj item now after) :
    Searching adj source seen (tried ++ [item]) after where
  begun := searched.grows source searching.begun
  grows := fun other before => searched.grows other (searching.grows other before)
  reached := by
    intro other marked
    rcases searched.reached other marked with before | path
    · exact searching.reached other before
    · exact .inr (.head beside path)
  closed := by
    intro other marked fresh notSource next step
    by_cases before : now other
    · exact searched.grows next (searching.closed other before fresh notSource next step)
    · exact searched.closed other marked before next step
  tried := by
    intro other member step
    rcases List.mem_append.mp member with before | last
    · exact searched.grows other (searching.tried other before step)
    · rw [List.mem_singleton.mp last]
      exact searched.begun

/-- The search is over when all neighbours have been tried. -/
theorem finish (searching : Searching adj source seen tried now)
    (complete : ∀ next, adj source next → next ∈ tried) : Searched adj source seen now where
  begun := searching.begun
  grows := searching.grows
  reached := searching.reached
  closed := by
    intro item marked fresh next step
    by_cases same : item = source
    · rw [same] at step
      exact searching.tried next (complete next step) step
    · exact searching.closed item marked fresh same next step

end Searching

theorem Searched.congr {after other : α → Prop} (searched : Searched adj source seen after)
    (same : ∀ item, other item ↔ after item) : Searched adj source seen other := by
  have equal : other = after := funext fun item => propext (same item)
  rwa [equal]

/-- What was marked before is not reached from an item outside of it. -/
theorem not_reached_of_closed (symmetric : ∀ item next, adj item next → adj next item)
    (closed : ∀ item next, seen item → adj item next → seen next) (fresh : ¬ seen source)
    {item : α} (path : ReflTransGen adj source item) : ¬ seen item := by
  induction path with
  | refl => exact fresh
  | tail _ step ih => exact fun marked => ih (closed _ _ marked (symmetric _ _ step))

/-- Outside of a closed set a search marks the component of its source. -/
theorem Searched.component {after : α → Prop} (searched : Searched adj source seen after)
    (symmetric : ∀ item next, adj item next → adj next item)
    (closed : ∀ item next, seen item → adj item next → seen next)
    (fresh : ¬ seen source) (item : α) :
    after item ↔ seen item ∨ ReflTransGen adj source item := by
  refine ⟨searched.reached item, ?_⟩
  rintro (before | path)
  · exact searched.grows item before
  · induction path with
    | refl => exact searched.begun
    | @tail last next path step ih =>
        have outside := not_reached_of_closed symmetric closed fresh path
        exact searched.closed last ih outside next step

end Flow123d.Library
