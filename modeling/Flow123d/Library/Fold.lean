import Mathlib.Data.List.Basic
import Mathlib.Data.List.Nodup
import Mathlib.Logic.Function.Basic
import Flow123d.Library.Numerals

/-!
# Loops and runs

Induction rules for loops that are written as folds, for loops over functions that may fail, and
for the steps of a run.
-/

set_option autoImplicit false

/-!
## Invariants of loops

Induction rules for loops written as folds. The invariant sees the items that
are done, so that it can speak about each of them.
-/

namespace Flow123d.Library

theorem bind_ok {α β ε : Type} {computation : Except ε α} {next : α → Except ε β}
    {result : β} (accepted : (computation >>= next) = .ok result) :
    ∃ value, computation = .ok value ∧ next value = .ok result := by
  cases computation with
  | error error => cases accepted
  | ok value => exact ⟨value, rfl, accepted⟩

theorem ok_of_mem_toOption {α ε : Type} {computation : Except ε α} {result : α}
    (accepted : result ∈ computation.toOption) : computation = .ok result := by
  cases computation with
  | error error => cases accepted
  | ok value =>
      cases accepted
      rfl

/-- The computation returns no value. -/
def Fails {α ε : Type} (computation : Except ε α) : Prop :=
  ∃ error, computation = .error error

theorem fails_error {α ε : Type} (error : ε) : Fails (.error error : Except ε α) := ⟨error, rfl⟩

theorem Fails.bind {α β ε : Type} {computation : Except ε α} (fails : Fails computation)
    (next : α → Except ε β) : Fails (computation >>= next) := by
  obtain ⟨error, rfl⟩ := fails
  exact ⟨error, rfl⟩

theorem Fails.not_ok {α ε : Type} {computation : Except ε α} (fails : Fails computation)
    (value : α) : computation ≠ .ok value := by
  obtain ⟨error, rfl⟩ := fails
  exact nofun

/-- A loop fails if one of its turns fails in every state. -/
theorem foldlM_fails {α β ε : Type} {items : List α} {step : β → α → Except ε β} {item : α}
    (member : item ∈ items) (fails : ∀ state, Fails (step state item)) (initial : β) :
    Fails (items.foldlM step initial) := by
  induction items generalizing initial with
  | nil => cases member
  | cons first items ih =>
      rw [List.foldlM_cons]
      rcases List.mem_cons.mp member with rfl | later
      · exact (fails initial).bind _
      · cases step initial first with
        | error error => exact fails_error error
        | ok next => exact ih later next

theorem foldlM_unchanged {α β ε : Type} {items : List α} {step : β → α → Except ε β} {state : β}
    (unchanged : ∀ item ∈ items, step state item = .ok state) :
    items.foldlM step state = .ok state := by
  induction items with
  | nil => rfl
  | cons item items ih =>
      rw [List.foldlM_cons, unchanged item List.mem_cons_self]
      exact ih fun other member => unchanged other (List.mem_cons_of_mem _ member)

/-- One more turn. -/
theorem foldlM_concat {α β ε : Type} {items : List α} {item : α} {step : β → α → Except ε β}
    {initial state after : β} (ran : items.foldlM step initial = .ok state)
    (stepped : step state item = .ok after) :
    (items ++ [item]).foldlM step initial = .ok after := by
  rw [List.foldlM_append, ran]
  change step state item >>= pure = .ok after
  rw [stepped]
  rfl

/-- What holds at the start and is kept by every turn holds after the loop. -/
theorem foldl_preserves {α β : Type} (items : List α) (step : β → α → β)
    (initial : β) (invariant : List α → β → Prop) (start : invariant [] initial)
    (next : ∀ seen item remaining state, items = seen ++ item :: remaining →
      invariant seen state → invariant (seen ++ [item]) (step state item)) :
    invariant items (items.foldl step initial) := by
  have loop : ∀ remaining seen state, items = seen ++ remaining →
      invariant seen state → invariant items (remaining.foldl step state) := by
    intro remaining
    induction remaining with
    | nil =>
        intro seen state split valid
        simpa [split] using valid
    | cons item remaining ih =>
        intro seen state split valid
        exact ih (seen ++ [item]) (step state item) (by simpa using split)
          (next seen item remaining state split valid)
  exact loop items [] initial rfl start

/-- The same for loops that can fail, along their successful runs. -/
theorem foldlM_preserves {α β ε : Type} {items : List α} {step : β → α → Except ε β}
    {initial final : β} (finished : items.foldlM step initial = .ok final)
    (invariant : List α → β → Prop) (start : invariant [] initial)
    (next : ∀ seen item remaining state after, items = seen ++ item :: remaining →
      invariant seen state → step state item = .ok after →
      invariant (seen ++ [item]) after) :
    invariant items final := by
  have loop : ∀ remaining seen state, items = seen ++ remaining →
      invariant seen state → remaining.foldlM step state = .ok final →
      invariant items final := by
    intro remaining
    induction remaining with
    | nil =>
        intro seen state split valid ran
        cases ran
        simpa [split] using valid
    | cons item remaining ih =>
        intro seen state split valid ran
        rw [List.foldlM_cons] at ran
        obtain ⟨after, stepped, rest⟩ := bind_ok ran
        exact ih (seen ++ [item]) after (by simpa using split)
          (next seen item remaining state after split valid stepped) rest
  exact loop items [] initial rfl start finished

/-- A loop that replaces the entries of a table one by one. -/
theorem foldlM_update {ι α ε : Type} [DecidableEq ι] {items : List ι} (distinct : items.Nodup)
    {step : ι → α → Except ε α} {table final : ι → α}
    (finished : items.foldlM
      (fun table i => do
        let made ← step i (table i)
        .ok (Function.update table i made)) table = .ok final) :
    (∀ i ∈ items, step i (table i) = .ok (final i)) ∧ ∀ i, i ∉ items → final i = table i := by
  refine foldlM_preserves finished
    (fun seen state => (∀ i ∈ seen, step i (table i) = .ok (state i)) ∧
      ∀ i, i ∉ seen → state i = table i) ⟨by simp, fun _ _ => rfl⟩ ?_
  rintro seen item remaining state after split ⟨done, open_⟩ stepped
  have unseen : item ∉ seen := by
    intro before
    rw [split, List.nodup_append] at distinct
    exact distinct.2.2 item before item List.mem_cons_self rfl
  obtain ⟨made, computed, rest⟩ := bind_ok stepped
  cases rest
  constructor
  · intro i member
    rcases List.mem_append.mp member with before | here
    · have other : i ≠ item := fun same => unseen (same ▸ before)
      rw [Function.update_of_ne other]
      exact done i before
    · rw [List.mem_singleton.mp here, Function.update_self, ← computed, open_ item unseen]
  · intro i absent
    have other : i ≠ item := fun same => absent (by simp [same])
    rw [Function.update_of_ne other]
    exact open_ i fun before => absent (List.mem_append_left _ before)

end Flow123d.Library

/-!
## Loops over functions that may fail

A loop that applies a partial function to every item has a result exactly when the function has
one for every item.
-/

namespace Flow123d.Library

variable {α β : Type} {transform : α → Option β} {items : List α} {values : List β}

theorem mapM_cons_eq_some {item : α}
    (ran : (item :: items).mapM transform = some values) :
    ∃ value rest, transform item = some value ∧ items.mapM transform = some rest ∧
      values = value :: rest := by
  rw [List.mapM_cons] at ran
  obtain ⟨value, applied, ran⟩ := Option.bind_eq_some_iff.mp ran
  obtain ⟨rest, others, ran⟩ := Option.bind_eq_some_iff.mp ran
  cases ran
  exact ⟨value, rest, applied, others, rfl⟩

theorem exists_mapM (transform : α → Option β) (items : List α)
    (each : ∀ item ∈ items, (transform item).isSome) :
    ∃ values, items.mapM transform = some values := by
  induction items with
  | nil => exact ⟨[], rfl⟩
  | cons item items ih =>
      obtain ⟨value, applied⟩ := Option.isSome_iff_exists.mp (each item List.mem_cons_self)
      obtain ⟨rest, ran⟩ := ih fun other member => each other (List.mem_cons_of_mem _ member)
      exact ⟨value :: rest, by rw [List.mapM_cons, applied, ran]; rfl⟩

theorem getElem?_mapM (ran : items.mapM transform = some values) (i : ℕ) :
    values[i]? = items[i]?.bind transform := by
  induction items generalizing values i with
  | nil =>
      cases ran
      rfl
  | cons item items ih =>
      obtain ⟨value, rest, applied, others, rfl⟩ := mapM_cons_eq_some ran
      cases i with
      | zero => exact applied.symm
      | succ i => exact ih others i

theorem length_mapM (ran : items.mapM transform = some values) :
    values.length = items.length := by
  induction items generalizing values with
  | nil =>
      cases ran
      rfl
  | cons item items ih =>
      obtain ⟨value, rest, -, others, rfl⟩ := mapM_cons_eq_some ran
      exact congrArg Nat.succ (ih others)

theorem mem_mapM (ran : items.mapM transform = some values) {value : β} :
    value ∈ values ↔ ∃ item ∈ items, transform item = some value := by
  simp only [List.mem_iff_getElem?, getElem?_mapM ran, Option.bind_eq_some_iff]
  exact ⟨fun ⟨i, item, lookup, applied⟩ => ⟨item, ⟨i, lookup⟩, applied⟩,
    fun ⟨item, ⟨i, lookup⟩, applied⟩ => ⟨i, item, lookup, applied⟩⟩

theorem mapM_id_eq_some {items : List (Option α)} {values : List α} :
    items.mapM id = some values ↔ items = values.map some := by
  constructor
  · intro ran
    induction items generalizing values with
    | nil =>
        cases ran
        rfl
    | cons item items ih =>
        obtain ⟨value, rest, applied, others, rfl⟩ := mapM_cons_eq_some ran
        rw [List.map_cons, ← ih others]
        exact congrArg (· :: items) applied
  · rintro rfl
    induction values with
    | nil => rfl
    | cons value values ih =>
        rw [List.map_cons, List.mapM_cons, ih]
        rfl

/-- Every turn of a loop that has a result has one. -/
theorem exists_step_of_foldlM {σ : Type} {step : σ → α → Option σ} {state final : σ}
    (ran : items.foldlM step state = some final) {item : α} (member : item ∈ items) :
    ∃ before after, step before item = some after := by
  induction items generalizing state with
  | nil => cases member
  | cons first items ih =>
      rw [List.foldlM_cons] at ran
      obtain ⟨next, stepped, rest⟩ := Option.bind_eq_some_iff.mp ran
      rcases List.mem_cons.mp member with rfl | later
      · exact ⟨state, next, stepped⟩
      · exact ih rest later

/-- A loop that may fail has a result if each step of it keeps an invariant and has one. -/
theorem exists_foldlM {σ : Type} {step : σ → α → Option σ} (invariant : List α → σ → Prop)
    (items : List α)
    (each : ∀ done item state, item ∈ items → invariant done state →
      ∃ next, step state item = some next ∧ invariant (done ++ [item]) next)
    {done : List α} {state : σ} (now : invariant done state) :
    ∃ final, items.foldlM step state = some final ∧ invariant (done ++ items) final := by
  induction items generalizing done state with
  | nil => exact ⟨state, rfl, by rwa [List.append_nil]⟩
  | cons item items ih =>
      obtain ⟨next, stepped, kept⟩ := each done item state List.mem_cons_self now
      obtain ⟨final, ran, holds⟩ :=
        ih (fun before other state member => each before other state
          (List.mem_cons_of_mem _ member)) kept
      refine ⟨final, ?_, ?_⟩
      · rw [List.foldlM_cons, stepped]
        exact ran
      · rwa [List.append_assoc, List.singleton_append] at holds

end Flow123d.Library

/-!
## Properties of the steps of a run

A run starts in a state and takes one step for each input. What is said about a
step sees the state before it and its input.
-/

namespace Flow123d.Library

variable {σ ι : Type}

/-- Every step of the run has the property. -/
def AlongRun (step : σ → ι → σ) (property : σ → ι → Prop) : σ → List ι → Prop
  | _, [] => True
  | state, input :: inputs =>
      property state input ∧ AlongRun step property (step state input) inputs

namespace AlongRun

variable {step : σ → ι → σ} {condition property : σ → ι → Prop}

/-- An invariant that every step keeps under its condition gives, with the
condition, a property of every step. -/
theorem of_invariant (invariant : σ → Prop)
    (kept : ∀ state input, invariant state → condition state input →
      invariant (step state input))
    (holds : ∀ state input, invariant state → condition state input → property state input)
    {state : σ} {inputs : List ι} (start : invariant state)
    (conditions : AlongRun step condition state inputs) :
    AlongRun step property state inputs := by
  induction inputs generalizing state with
  | nil => trivial
  | cons input inputs ih =>
      obtain ⟨first, later⟩ := conditions
      exact ⟨holds state input start first, ih (kept state input start first) later⟩

end AlongRun

/-- A sequence of states whose rank decreases until it is finished gets there. -/
theorem exists_finished_of_rank (states : ℕ → σ) (finished : σ → Prop) (rank : σ → ℕ)
    (decreases : ∀ k, ¬finished (states k) → rank (states (k + 1)) < rank (states k)) :
    ∃ k, finished (states k) := by
  by_contra never
  push Not at never
  have bound : ∀ k, rank (states k) + k ≤ rank (states 0) := by
    intro k
    induction k with
    | zero => exact Nat.le_refl _
    | succ k ih =>
        have less := decreases k (never k)
        omega
  have last := bound (rank (states 0) + 1)
  omega

end Flow123d.Library
