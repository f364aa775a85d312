import Mathlib.Algebra.BigOperators.Intervals
import Mathlib.Data.Matrix.Mul
import Flow123d.Library.Numerals

/-!
# Matrices of blocks along the diagonal

Blocks of consecutive rows cover an initial part of the rows one after another. A product of two
matrices that vanish outside the blocks is computed block by block.
-/

set_option autoImplicit false

namespace Flow123d.Library

open Matrix

/-- The blocks cover the numbers from the first to before the last one after another. -/
inductive Tiles {α : Type} (start size : α → ℕ) : ℕ → List α → ℕ → Prop where
  | nil (first : ℕ) : Tiles start size first [] first
  | cons {block : α} {blocks : List α} {last : ℕ}
      (rest : Tiles start size (start block + size block) blocks last) :
      Tiles start size (start block) (block :: blocks) last

namespace Tiles

variable {α : Type} {start size : α → ℕ} {first middle last : ℕ} {blocks later : List α}

theorem append (tiles : Tiles start size first blocks middle)
    (next : Tiles start size middle later last) :
    Tiles start size first (blocks ++ later) last := by
  induction tiles with
  | nil first => exact next
  | cons _ previous => exact .cons (previous next)

theorem le (tiles : Tiles start size first blocks last) : first ≤ last := by
  induction tiles with
  | nil first => exact le_rfl
  | cons _ previous => exact (Nat.le_add_right _ _).trans previous

theorem bounds (tiles : Tiles start size first blocks last) {block : α}
    (member : block ∈ blocks) : first ≤ start block ∧ start block + size block ≤ last := by
  induction tiles with
  | nil first => cases member
  | cons rest previous =>
      rcases List.mem_cons.mp member with rfl | later
      · exact ⟨le_rfl, rest.le⟩
      · have inside := previous later
        exact ⟨(Nat.le_add_right _ _).trans inside.1, inside.2⟩

theorem exists_block (tiles : Tiles start size first blocks last) {i : ℕ} (after : first ≤ i)
    (before : i < last) : ∃ block ∈ blocks, ∃ x < size block, start block + x = i := by
  induction tiles with
  | nil first => omega
  | @cons block blocks last rest previous =>
      by_cases here : i < start block + size block
      · exact ⟨block, List.mem_cons_self, i - start block, by omega, by omega⟩
      · obtain ⟨other, member, inside⟩ := previous (Nat.le_of_not_lt here) before
        exact ⟨other, List.mem_cons_of_mem _ member, inside⟩

/-- A number is in one block. -/
theorem unique (tiles : Tiles start size first blocks last) {block other : α}
    (member : block ∈ blocks) (otherMember : other ∈ blocks) {i : ℕ}
    (inside : start block ≤ i ∧ i < start block + size block)
    (otherInside : start other ≤ i ∧ i < start other + size other) : block = other := by
  induction tiles with
  | nil first => cases member
  | cons rest previous =>
      rcases List.mem_cons.mp member with rfl | later
      · rcases List.mem_cons.mp otherMember with rfl | otherLater
        · rfl
        · have bounds := rest.bounds otherLater
          omega
      · rcases List.mem_cons.mp otherMember with rfl | otherLater
        · have bounds := rest.bounds later
          omega
        · exact previous later otherLater

theorem flatMap_range' (tiles : Tiles start size first blocks last) :
    blocks.flatMap (fun block => List.range' (start block) (size block)) =
      List.range' first (last - first) := by
  induction tiles with
  | nil first => simp
  | @cons block blocks last rest previous =>
      have after := rest.le
      rw [List.flatMap_cons, previous, List.range'_append_1]
      congr 1
      omega

end Tiles

section Product

variable {α R : Type} [CommRing R] {start size : α → ℕ} {n : ℕ} {blocks : List α}

def square (n start : ℕ) (M : ℕ → ℕ → R) : Matrix (Fin n) (Fin n) R :=
  of fun i j => M (start + i) (start + j)

/-- The entries from the rows of a block to the columns of no block, or of another, are zero. -/
def VanishesOutside (start size : α → ℕ) (blocks : List α) (n : ℕ) (M : ℕ → ℕ → R) : Prop :=
  ∀ block ∈ blocks, ∀ x < size block, ∀ j < n,
    ¬(start block ≤ j ∧ j < start block + size block) → M (start block + x) j = 0

variable {M N : ℕ → ℕ → R}

theorem VanishesOutside.sum_eq (tiles : Tiles start size 0 blocks n)
    (vanishes : VanishesOutside start size blocks n M) {block : α} (member : block ∈ blocks)
    {x : ℕ} (inside : x < size block) (j : ℕ) :
    ∑ k : Fin n, M (start block + x) k * N k j =
      ∑ z : Fin (size block), M (start block + x) (start block + z) * N (start block + z) j := by
  have bound := (tiles.bounds member).2
  rw [Fin.sum_univ_eq_sum_range (fun k => M (start block + x) k * N k j) n,
    Fin.sum_univ_eq_sum_range
      (fun z => M (start block + x) (start block + z) * N (start block + z) j) (size block)]
  have shifted : ∑ z ∈ Finset.range (size block),
      M (start block + x) (start block + z) * N (start block + z) j =
        ∑ k ∈ Finset.Ico (start block) (start block + size block),
          M (start block + x) k * N k j := by
    rw [Finset.sum_Ico_eq_sum_range, Nat.add_sub_cancel_left]
  rw [shifted]
  symm
  refine Finset.sum_subset ?_ fun k isColumn outside => ?_
  · intro k isInside
    rw [Finset.mem_Ico] at isInside
    exact Finset.mem_range.mpr (isInside.2.trans_le bound)
  · rw [Finset.mem_Ico] at outside
    rw [vanishes block member x inside k (Finset.mem_range.mp isColumn) outside, zero_mul]

theorem mul_eq_one_iff_blocks (tiles : Tiles start size 0 blocks n)
    (vanishesM : VanishesOutside start size blocks n M)
    (vanishesN : VanishesOutside start size blocks n N) :
    square n 0 M * square n 0 N = 1 ↔ ∀ block ∈ blocks,
      square (size block) (start block) M * square (size block) (start block) N = 1 := by
  constructor
  · intro inverse block member
    have bound := (tiles.bounds member).2
    ext x y
    have entry := congrFun₂ inverse ⟨start block + x, by omega⟩ ⟨start block + y, by omega⟩
    simp only [mul_apply, square, of_apply, Nat.zero_add] at entry ⊢
    rw [vanishesM.sum_eq tiles member x.isLt] at entry
    rw [entry, one_apply, one_apply]
    simp [Fin.ext_iff]
  · intro inverses
    ext i j
    obtain ⟨block, member, x, inside, isRow⟩ := tiles.exists_block (Nat.zero_le i.val) i.isLt
    simp only [mul_apply, square, of_apply, Nat.zero_add, one_apply]
    rw [← isRow, vanishesM.sum_eq tiles member inside]
    by_cases here : start block ≤ j.val ∧ j.val < start block + size block
    · have entry := congrFun₂ (inverses block member) ⟨x, inside⟩
        ⟨j.val - start block, by omega⟩
      simp only [mul_apply, square, of_apply, one_apply, Nat.add_sub_cancel' here.1] at entry
      rw [entry]
      refine if_congr ?_ rfl rfl
      simp only [Fin.ext_iff]
      omega
    · have different : i ≠ j := by
        intro same
        rw [Fin.ext_iff] at same
        omega
      rw [if_neg different]
      refine Finset.sum_eq_zero fun z _ => ?_
      rw [vanishesN block member z z.isLt j.val j.isLt here, mul_zero]

end Product

end Flow123d.Library
