import Mathlib.Data.List.Forall2
import Mathlib.Data.Nat.Notation
import Flow123d.Library.Numerals

/-!
# Outcomes of computations that may fail

What holds of the result of a computation if it returns, and of its error if it fails. The
rules follow the way in which the computation is composed.
-/

set_option autoImplicit false

namespace Flow123d.Library

variable {ε α β σ : Type}

theorem forall₂_getElem? {relation : α → β → Prop} {items : List α} {values : List β}
    (related : List.Forall₂ relation items values) {i : ℕ} {item : α} {value : β}
    (isItem : items[i]? = some item) (isValue : values[i]? = some value) :
    relation item value := by
  obtain ⟨inItems, rfl⟩ := List.getElem?_eq_some_iff.mp isItem
  obtain ⟨inValues, rfl⟩ := List.getElem?_eq_some_iff.mp isValue
  exact related.get inItems inValues

/-- The computation returns a value as in `post` or fails with one of some errors. -/
def Meets (errors : ε → Prop) (post : α → Prop) : Except ε α → Prop
  | .ok value => post value
  | .error error => errors error

namespace Meets

variable {errors : ε → Prop}

theorem mono {weaker : α → Prop} {post : α → Prop} {computation : Except ε α}
    (meets : Meets errors post computation) (weakens : ∀ value, post value → weaker value) :
    Meets errors weaker computation := by
  cases computation with
  | error error => exact meets
  | ok value => exact weakens value meets

theorem mono_errors {weaker : ε → Prop} {post : α → Prop} {computation : Except ε α}
    (meets : Meets errors post computation) (weakens : ∀ error, errors error → weaker error) :
    Meets weaker post computation := by
  cases computation with
  | error error => exact weakens error meets
  | ok value => exact meets

theorem bind {post : α → Prop} {final : β → Prop} {computation : Except ε α}
    {next : α → Except ε β} (first : Meets errors post computation)
    (rest : ∀ value, post value → Meets errors final (next value)) :
    Meets errors final (computation >>= next) := by
  cases computation with
  | error error => exact first
  | ok value => exact rest value first

/-- Nothing is asked for. -/
theorem any (computation : Except ε α) :
    Meets (fun _ => True) (fun _ => True) computation := by
  cases computation <;> trivial

theorem of_ok {post : α → Prop} {computation : Except ε α} {value : α}
    (meets : Meets errors post computation) (returned : computation = .ok value) :
    post value := by
  subst returned
  exact meets

theorem of_error {post : α → Prop} {computation : Except ε α} {error : ε}
    (meets : Meets errors post computation) (failed : computation = .error error) :
    errors error := by
  subst failed
  exact meets

/-- What holds for each of several reasons holds for all of them. -/
theorem all {ι : Type} {applies : ι → Prop} {post : ι → α → Prop} {computation : Except ε α}
    (exist : ∃ i, applies i)
    (each : ∀ i, applies i → Meets errors (post i) computation) :
    Meets errors (fun value => ∀ i, applies i → post i value) computation := by
  cases computation with
  | ok value => exact each
  | error error =>
      obtain ⟨i, one⟩ := exist
      exact each i one

/-! ## Loops -/

/-- A loop keeps an invariant that every step keeps. -/
theorem foldlM {invariant : σ → Prop} {step : σ → α → Except ε σ} {items : List α} {start : σ}
    (holds : invariant start)
    (each : ∀ state, invariant state → ∀ item ∈ items,
      Meets errors invariant (step state item)) :
    Meets errors invariant (items.foldlM step start) := by
  induction items generalizing start with
  | nil => exact holds
  | cons item rest ih =>
      rw [List.foldlM_cons]
      refine bind (each start holds item List.mem_cons_self) fun state kept => ?_
      exact ih kept fun state kept item member =>
        each state kept item (List.mem_cons_of_mem _ member)

theorem foldlM_from {invariant : List α → σ → Prop} {step : σ → α → Except ε σ}
    {seen items : List α} {start : σ} (holds : invariant seen start)
    (each : ∀ seen item state, invariant seen state → item ∈ items →
      Meets errors (invariant (seen ++ [item])) (step state item)) :
    Meets errors (invariant (seen ++ items)) (items.foldlM step start) := by
  induction items generalizing seen start with
  | nil =>
      rw [List.append_nil]
      exact holds
  | cons item rest ih =>
      rw [List.foldlM_cons, List.append_cons]
      refine bind (each seen item start holds List.mem_cons_self) fun state kept => ?_
      exact ih kept fun seen other state kept member =>
        each seen other state kept (List.mem_cons_of_mem _ member)

/-- The invariant may speak of the items that the loop has gone through. -/
theorem foldlM_seen (invariant : List α → σ → Prop) {step : σ → α → Except ε σ}
    {items : List α} {start : σ} (holds : invariant [] start)
    (each : ∀ seen item state, invariant seen state → item ∈ items →
      Meets errors (invariant (seen ++ [item])) (step state item)) :
    Meets errors (invariant items) (items.foldlM step start) :=
  foldlM_from holds each

/-- What each item gives is related to the item. -/
theorem mapM {relation : α → β → Prop} {transform : α → Except ε β} {items : List α}
    (each : ∀ item ∈ items, Meets errors (relation item) (transform item)) :
    Meets errors (List.Forall₂ relation items) (items.mapM transform) := by
  induction items with
  | nil => exact .nil
  | cons item rest ih =>
      rw [List.mapM_cons]
      refine bind (each item List.mem_cons_self) fun value related => ?_
      refine bind (ih fun other member => each other (List.mem_cons_of_mem _ member)) ?_
      exact fun values others => .cons related others

/-- As before, for the items at each position. -/
theorem mapM_getElem? {relation : α → β → Prop} {transform : α → Except ε β} {items : List α}
    (each : ∀ item ∈ items, Meets errors (relation item) (transform item)) :
    Meets errors (fun values : List β => ∀ (i : ℕ) value, values[i]? = some value →
      ∃ item, items[i]? = some item ∧ relation item value) (items.mapM transform) := by
  refine (mapM each).mono fun values related i value known => ?_
  obtain ⟨inside, same⟩ := List.getElem?_eq_some_iff.mp known
  have before : i < items.length := related.length_eq.symm ▸ inside
  refine ⟨items[i], List.getElem?_eq_getElem before, ?_⟩
  rw [← same]
  exact related.get before inside

end Meets

end Flow123d.Library
