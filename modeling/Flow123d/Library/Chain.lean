import Mathlib.Data.Nat.Notation
import Mathlib.Data.Option.Basic
import Flow123d.Library.Numerals

/-!
# Chains of a partial function

The chain from a start follows a partial function until it is not defined. It may return to
something that is already on it.
-/

set_option autoImplicit false

namespace Flow123d.Library

variable {α : Type}

def chain (next : α → Option α) (start : α) : ℕ → Option α
  | 0 => some start
  | count + 1 => (next start).bind fun after => chain next after count

/-- The chain returns to an item that is already on it. -/
def ChainReturns (next : α → Option α) (start : α) : Prop :=
  ∃ first second item, first < second ∧ chain next start first = some item ∧
    chain next start second = some item

variable {next : α → Option α} {start after : α}

theorem chain_succ_of_next (stepped : next start = some after) (count : ℕ) :
    chain next start (count + 1) = chain next after count := by
  rw [chain, stepped, Option.bind_some]

theorem chain_succ_of_last (last : next start = none) (count : ℕ) :
    chain next start (count + 1) = none := by
  rw [chain, last, Option.bind_none]

theorem chain_add {item : α} {first : ℕ} (reached : chain next start first = some item)
    (count : ℕ) : chain next start (first + count) = chain next item count := by
  induction first generalizing start with
  | zero =>
      cases reached
      rw [Nat.zero_add]
  | succ first ih =>
      cases stepped : next start with
      | none =>
          rw [chain_succ_of_last stepped] at reached
          cases reached
      | some after =>
          rw [chain_succ_of_next stepped] at reached
          rw [Nat.add_right_comm, chain_succ_of_next stepped]
          exact ih reached

namespace ChainReturns

theorem exists_next (returns : ChainReturns next start) : ∃ after, next start = some after := by
  obtain ⟨first, second, item, later, _, again⟩ := returns
  cases stepped : next start with
  | some after => exact ⟨after, rfl⟩
  | none =>
      obtain ⟨count, rfl⟩ := Nat.exists_eq_add_of_lt later
      rw [chain_succ_of_last stepped] at again
      cases again

/-- The chain from the next item returns too. -/
theorem of_next (returns : ChainReturns next start) (stepped : next start = some after) :
    ChainReturns next after := by
  obtain ⟨first, second, item, later, reached, again⟩ := returns
  obtain ⟨count, rfl⟩ := Nat.exists_eq_add_of_lt later
  rw [chain_succ_of_next stepped] at again
  cases first with
  | zero =>
      cases reached
      refine ⟨0, 0 + count + 1, after, by omega, rfl, ?_⟩
      rw [chain_add again, chain_succ_of_next stepped]
      rfl
  | succ first =>
      rw [chain_succ_of_next stepped] at reached
      exact ⟨first, first + 1 + count, item, by omega, reached, again⟩

/-- A chain that returns never ends. -/
theorem chain_ne_none (returns : ChainReturns next start) (count : ℕ) :
    chain next start count ≠ none := by
  induction count generalizing start with
  | zero => exact nofun
  | succ count ih =>
      obtain ⟨after, stepped⟩ := returns.exists_next
      rw [chain_succ_of_next stepped]
      exact ih (returns.of_next stepped)

end ChainReturns

end Flow123d.Library
