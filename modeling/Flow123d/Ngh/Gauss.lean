import Flow123d.Library.Fold
import Flow123d.Library.RowOperations
import Mathlib.Algebra.BigOperators.Fin
import Mathlib.Algebra.Order.Group.Abs
import Mathlib.LinearAlgebra.Matrix.Block
import Mathlib.Order.Interval.Finset.Fin
import Mathlib.Tactic.FieldSimp
import Mathlib.Tactic.LinearCombination

/-!
# Gauss elimination

The solver of the intersection library for small systems, without rounding: the tests against
`epsilon` are tests for zero.
-/

set_option autoImplicit false

namespace Flow123d.Ngh

open Flow123d.Library Matrix

inductive TNSolutions where
  | noSolution
  | oneSolution
  | infSolutions
  | badconditioned
  | singular
  deriving DecidableEq

variable {K : Type} [Field K] [LinearOrder K] {n : ℕ}

abbrev TSystem (n : ℕ) (K : Type) := LinearSystem (Fin (n + 1)) K

/-- The indices of the loops from `i + 1` on. -/
def after (i : Fin (n + 1)) : List (Fin (n + 1)) := (List.finRange (n + 1)).filter (i < ·)

/-- The largest entry of the column, and its row unless it is the row `i`. -/
def findPivot (M : Matrix (Fin (n + 1)) (Fin (n + 1)) K) (i : Fin (n + 1)) :
    K × Option (Fin (n + 1)) :=
  (after i).foldl
    (fun best j => if best.1 < |M j i| then (|M j i|, some j) else best) (|M i i|, none)

def swapPivot (system : TSystem n K) (i : Fin (n + 1)) : Option (Fin (n + 1)) → TSystem n K
  | some row => system.swapRows i row
  | none => system

def eliminateRow (i : Fin (n + 1)) (system : TSystem n K) (j : Fin (n + 1)) : TSystem n K :=
  let tmp := system.matrix j i / system.matrix i i
  { matrix := system.matrix.updateRow j fun k =>
      if i ≤ k then system.matrix j k - tmp * system.matrix i k else system.matrix j k
    rhs := Function.update system.rhs j (system.rhs j - tmp * system.rhs i) }

/-- A column without a pivot is skipped. -/
def eliminateColumn (system : TSystem n K) (i : Fin (n + 1)) : TSystem n K :=
  let best := findPivot system.matrix i
  if best.1 = 0 then system
  else (after i).foldl (eliminateRow i) (swapPivot system i best.2)

def eliminate (system : TSystem n K) : TSystem n K :=
  ((List.finRange n).map Fin.castSucc).foldl eliminateColumn system

def backSubstitute (system : TSystem n K) :
    List (Fin (n + 1)) → (Fin (n + 1) → K) → TNSolutions × (Fin (n + 1) → K)
  | [], X => (.oneSolution, X)
  | i :: rest, X =>
      let tmp := (after i).foldl (fun tmp k => tmp - system.matrix i k * X k) (system.rhs i)
      if system.matrix i i = 0 then
        if tmp = 0 then (.infSolutions, X) else (.noSolution, X)
      else backSubstitute system rest (Function.update X i (tmp / system.matrix i i))

/-- The result and what is stored in `X`. -/
def gauss (A : Matrix (Fin (n + 1)) (Fin (n + 1)) K) (X B : Fin (n + 1) → K) :
    TNSolutions × (Fin (n + 1) → K) :=
  backSubstitute (eliminate ⟨A, B⟩) (List.finRange (n + 1)).reverse X

/-! ## Pivots -/

omit [Field K] [LinearOrder K] in
@[simp] theorem mem_after {i j : Fin (n + 1)} : j ∈ after i ↔ i < j := by
  simp [after]

omit [Field K] [LinearOrder K] in
theorem nodup_after (i : Fin (n + 1)) : (after i).Nodup :=
  (List.nodup_finRange _).filter _

/-- What the search for a pivot knows after the rows `seen`. -/
structure LargestOf (M : Matrix (Fin (n + 1)) (Fin (n + 1)) K) (i : Fin (n + 1))
    (seen : List (Fin (n + 1))) (best : K × Option (Fin (n + 1))) : Prop where
  here : best.2 = none → best.1 = |M i i|
  below : ∀ row, best.2 = some row → i < row ∧ best.1 = |M row i|
  bounds : ∀ j ∈ seen, |M j i| ≤ best.1

theorem findPivot_largest (M : Matrix (Fin (n + 1)) (Fin (n + 1)) K) (i : Fin (n + 1)) :
    LargestOf M i (after i) (findPivot M i) := by
  refine foldl_preserves _ _ _ (LargestOf M i) ⟨fun _ => rfl, nofun, nofun⟩ ?_
  intro seen j remaining best split largest
  have later : i < j := mem_after.mp (split ▸ List.mem_append_right _ List.mem_cons_self)
  by_cases larger : best.1 < |M j i|
  · rw [if_pos larger]
    refine ⟨nofun, ?_, ?_⟩
    · intro row same
      cases same
      exact ⟨later, rfl⟩
    · intro k member
      obtain before | rfl := List.mem_append.mp member |>.imp_right List.mem_singleton.mp
      · exact (largest.bounds k before).trans larger.le
      · exact le_rfl
  · rw [if_neg larger]
    refine ⟨largest.here, largest.below, ?_⟩
    intro k member
    obtain before | rfl := List.mem_append.mp member |>.imp_right List.mem_singleton.mp
    · exact largest.bounds k before
    · exact not_lt.mp larger

/-! ## Elimination -/

/-- The columns before the index `r` are zero below the diagonal. -/
def Cleared (r : ℕ) (M : Matrix (Fin (n + 1)) (Fin (n + 1)) K) : Prop :=
  ∀ i j : Fin (n + 1), j.val < r → j < i → M i j = 0

section Column

variable {system : TSystem n K} {i : Fin (n + 1)}

omit [LinearOrder K] in
theorem swapPivot_equivalent (row : Option (Fin (n + 1))) :
    system.Equivalent (swapPivot system i row) := by
  cases row with
  | none => exact .refl system
  | some row => exact system.swapRows_equivalent i row

omit [LinearOrder K] in
/-- The rows from `i` on, which are exchanged, are zero in the columns before `i`. -/
theorem Cleared.swapPivot (cleared : Cleared i system.matrix) {row : Option (Fin (n + 1))}
    (below : ∀ j, row = some j → i < j) : Cleared i (swapPivot system i row).matrix := by
  cases row with
  | none => exact cleared
  | some row =>
      have later := below row rfl
      intro j k before less
      change system.matrix (Equiv.swap i row j) k = 0
      apply cleared _ _ before
      by_cases first : j = i
      · rw [first, Equiv.swap_apply_left]
        exact (Fin.lt_def.mpr before).trans later
      · by_cases second : j = row
        · rw [second, Equiv.swap_apply_right]
          exact Fin.lt_def.mpr before
        · rwa [Equiv.swap_apply_of_ne_of_ne first second]

omit [LinearOrder K] in
theorem eliminateRow_eq (cleared : Cleared i system.matrix) (j : Fin (n + 1)) :
    eliminateRow i system j =
      system.subtractRow j i (system.matrix j i / system.matrix i i) := by
  have row : (fun k => if i ≤ k then
        system.matrix j k - system.matrix j i / system.matrix i i * system.matrix i k
      else system.matrix j k) =
      system.matrix j - (system.matrix j i / system.matrix i i) • system.matrix i := by
    funext k
    rw [Pi.sub_apply, Pi.smul_apply, smul_eq_mul]
    split_ifs with from_
    · rfl
    · rw [cleared i k (not_le.mp from_) (not_le.mp from_), mul_zero, sub_zero]
  unfold eliminateRow LinearSystem.subtractRow
  simp only [row]

/-- The rows `seen` are zero up to the column `i`, the others are those of the system at the
start. -/
structure RowsCleared (start : TSystem n K) (i : Fin (n + 1)) (seen : List (Fin (n + 1)))
    (system : TSystem n K) : Prop where
  equivalent : start.Equivalent system
  cleared : ∀ j ∈ seen, ∀ k ≤ i, system.matrix j k = 0
  rows : ∀ j, j ∉ seen → system.matrix j = start.matrix j

omit [LinearOrder K] in
theorem RowsCleared.cleared_before {start : TSystem n K} {seen : List (Fin (n + 1))}
    (rowsCleared : RowsCleared start i seen system) (cleared : Cleared i start.matrix) :
    Cleared i system.matrix := by
  intro j k before less
  by_cases member : j ∈ seen
  · exact rowsCleared.cleared j member k (Fin.le_def.mpr before.le)
  · rw [rowsCleared.rows j member]
    exact cleared j k before less

omit [LinearOrder K] in
theorem foldl_eliminateRow (cleared : Cleared i system.matrix)
    (pivot : system.matrix i i ≠ 0) :
    RowsCleared system i (after i) ((after i).foldl (eliminateRow i) system) := by
  refine foldl_preserves _ _ _ (RowsCleared system i) ⟨.refl system, nofun, fun _ _ => rfl⟩ ?_
  intro seen j remaining state split done
  have distinct := split ▸ nodup_after i
  have later : i < j := mem_after.mp (split ▸ List.mem_append_right _ List.mem_cons_self)
  have unseen : j ∉ seen := fun before =>
    (List.nodup_append.mp distinct).2.2 j before j List.mem_cons_self rfl
  have pivotUnseen : i ∉ seen := fun before =>
    lt_irrefl i (mem_after.mp (split ▸ List.mem_append_left _ before))
  rw [eliminateRow_eq (done.cleared_before cleared) j]
  have pivotRow := done.rows i pivotUnseen
  refine ⟨done.equivalent.trans (state.subtractRow_equivalent _ later.ne'), ?_, ?_⟩
  · intro l member k upTo
    obtain before | rfl := List.mem_append.mp member |>.imp_right List.mem_singleton.mp
    · have other : l ≠ j := fun same => unseen (same ▸ before)
      rw [state.subtractRow_matrix_of_ne _ other]
      exact done.cleared l before k upTo
    · rw [state.subtractRow_matrix_self, Pi.sub_apply, Pi.smul_apply, smul_eq_mul]
      obtain less | rfl := lt_or_eq_of_le upTo
      · rw [done.cleared_before cleared l k less (less.trans later),
          done.cleared_before cleared i k less less, mul_zero, sub_zero]
      · rw [div_mul_cancel₀ _ (by rwa [pivotRow]), sub_self]
  · intro l absent
    rw [List.mem_append, List.mem_singleton, not_or] at absent
    rw [state.subtractRow_matrix_of_ne _ absent.2]
    exact done.rows l absent.1

theorem eliminateColumn_spec [IsStrictOrderedRing K] (cleared : Cleared i system.matrix) :
    system.Equivalent (eliminateColumn system i) ∧
      Cleared (i + 1) (eliminateColumn system i).matrix := by
  have largest := findPivot_largest system.matrix i
  unfold eliminateColumn
  by_cases zero : (findPivot system.matrix i).1 = 0
  · simp only [zero, if_true]
    refine ⟨.refl system, ?_⟩
    intro j k before less
    obtain earlier | same := Nat.lt_succ_iff_lt_or_eq.mp before
    · exact cleared j k earlier less
    · obtain rfl := Fin.ext same
      have bound := largest.bounds j (mem_after.mpr less)
      rw [zero] at bound
      exact abs_eq_zero.mp (le_antisymm bound (abs_nonneg _))
  · simp only [zero, if_false]
    have pivot : (swapPivot system i (findPivot system.matrix i).2).matrix i i ≠ 0 := by
      cases found : (findPivot system.matrix i).2 with
      | none =>
          intro vanishes
          change system.matrix i i = 0 at vanishes
          rw [largest.here found, vanishes, abs_zero] at zero
          exact zero rfl
      | some row =>
          intro vanishes
          change system.matrix (Equiv.swap i row i) i = 0 at vanishes
          rw [Equiv.swap_apply_left] at vanishes
          rw [(largest.below row found).2, vanishes, abs_zero] at zero
          exact zero rfl
    have swapped := cleared.swapPivot fun j found => (largest.below j found).1
    have done := foldl_eliminateRow swapped pivot
    refine ⟨(swapPivot_equivalent _).trans done.equivalent, ?_⟩
    intro j k before less
    obtain earlier | same := Nat.lt_succ_iff_lt_or_eq.mp before
    · exact done.cleared_before swapped j k earlier less
    · obtain rfl := Fin.ext same
      exact done.cleared j (mem_after.mpr less) k le_rfl

end Column

theorem eliminate_spec [IsStrictOrderedRing K] (system : TSystem n K) :
    system.Equivalent (eliminate system) ∧ Cleared n (eliminate system).matrix := by
  have loop := foldl_preserves ((List.finRange n).map Fin.castSucc) eliminateColumn system
    (fun seen state => system.Equivalent state ∧ Cleared seen.length state.matrix)
    ⟨.refl system, fun _ _ before => absurd before (Nat.not_lt_zero _)⟩ ?_
  · rwa [List.length_map, List.length_finRange] at loop
  · rintro seen i remaining state split ⟨equivalent, cleared⟩
    have place : ((List.finRange n).map Fin.castSucc)[seen.length]? = some i := by
      rw [split, List.getElem?_append_right le_rfl, Nat.sub_self, List.getElem?_cons_zero]
    rw [List.getElem?_map] at place
    obtain ⟨k, found, rfl⟩ := Option.map_eq_some_iff.mp place
    have index : (k.castSucc : Fin (n + 1)).val = seen.length := by
      obtain ⟨_, rfl⟩ := List.getElem?_eq_some_iff.mp found
      simp
    rw [← index] at cleared
    obtain ⟨next, later⟩ := eliminateColumn_spec cleared
    rw [List.length_append, List.length_singleton, ← index]
    exact ⟨equivalent.trans next, later⟩

/-! ## Back substitution -/

section Back

variable {system : TSystem n K} {i : Fin (n + 1)} {X : Fin (n + 1) → K}

omit [LinearOrder K] in
theorem regular_iff (triangular : system.matrix.IsUpperTriangular) :
    system.Regular ↔ ∀ i, system.matrix i i ≠ 0 := by
  unfold LinearSystem.Regular
  rw [det_of_isUpperTriangular triangular, Finset.prod_ne_zero_iff]
  exact forall_congr' fun i => by simp

omit [LinearOrder K] in
theorem foldl_sub_eq (entry : Fin (n + 1) → K) (items : List (Fin (n + 1))) (start : K) :
    items.foldl (fun tmp k => tmp - entry k) start = start - (items.map entry).sum := by
  induction items generalizing start with
  | nil => simp
  | cons k rest ih =>
      rw [List.foldl_cons, ih, List.map_cons, List.sum_cons]
      ring

omit [LinearOrder K] in
/-- The columns from the diagonal on make up the row. -/
theorem mulVec_eq (triangular : system.matrix.IsUpperTriangular) (i : Fin (n + 1))
    (X : Fin (n + 1) → K) : (system.matrix *ᵥ X) i = system.matrix i i * X i +
      ((after i).map fun k => system.matrix i k * X k).sum := by
  have rest : (after i).toFinset = Finset.Ioi i := by
    ext k
    simp
  have whole : ∑ k ∈ insert i (Finset.Ioi i), system.matrix i k * X k =
      system.matrix i i * X i + ∑ k ∈ Finset.Ioi i, system.matrix i k * X k :=
    Finset.sum_insert (by simp)
  rw [← List.sum_toFinset _ (nodup_after i), rest, ← whole]
  refine (Finset.sum_subset (Finset.subset_univ (insert i (Finset.Ioi i))) ?_).symm
  intro k _ absent
  have before : k < i := by
    rw [Finset.mem_insert, Finset.mem_Ioi, not_or, not_lt] at absent
    exact lt_of_le_of_ne absent.2 absent.1
  exact mul_eq_zero_of_left (triangular before) _

omit [LinearOrder K] in
theorem mulVec_update (M : Matrix (Fin (n + 1)) (Fin (n + 1)) K) (X : Fin (n + 1) → K)
    (i k : Fin (n + 1)) (value : K) :
    (M *ᵥ Function.update X i value) k = (M *ᵥ X) k + M k i * (value - X i) := by
  have split : Function.update X i value = X + Pi.single i (value - X i) := by
    funext l
    by_cases same : l = i
    · subst same
      simp
    · simp [same]
  rw [split, mulVec_add, mulVec_single]
  simp

/-- The indices `rest` are to do, in descending order; the equations of the others hold. -/
structure Substituted (system : TSystem n K) (rest : List (Fin (n + 1)))
    (X : Fin (n + 1) → K) : Prop where
  descending : rest.Pairwise (· > ·)
  later : ∀ k, k ∉ rest → ∀ i ∈ rest, i < k
  pivots : ∀ k, k ∉ rest → system.matrix k k ≠ 0
  solved : ∀ k, k ∉ rest → (system.matrix *ᵥ X) k = system.rhs k

omit [LinearOrder K] in
theorem Substituted.next (triangular : system.matrix.IsUpperTriangular)
    {rest : List (Fin (n + 1))} (done : Substituted system (i :: rest) X)
    (pivot : system.matrix i i ≠ 0) :
    Substituted system rest (Function.update X i
      ((after i).foldl (fun tmp k => tmp - system.matrix i k * X k) (system.rhs i) /
        system.matrix i i)) := by
  obtain ⟨greatest, descending⟩ := List.pairwise_cons.mp done.descending
  refine ⟨descending, ?_, ?_, ?_⟩
  · intro k absent j member
    by_cases same : k = i
    · exact same ▸ greatest j member
    · exact done.later k (by simp [same, absent]) j (List.mem_cons_of_mem _ member)
  · intro k absent
    by_cases same : k = i
    · exact same ▸ pivot
    · exact done.pivots k (by simp [same, absent])
  · intro k absent
    rw [mulVec_update]
    by_cases same : k = i
    · subst same
      rw [mulVec_eq triangular k X, foldl_sub_eq]
      field_simp
      ring
    · have other : k ∉ i :: rest := by simp [same, absent]
      rw [triangular (done.later k other i List.mem_cons_self), zero_mul, add_zero]
      exact done.solved k other

theorem backSubstitute_spec (triangular : system.matrix.IsUpperTriangular)
    {rest : List (Fin (n + 1))} (done : Substituted system rest X) :
    ((backSubstitute system rest X).1 = .oneSolution ↔ ∀ i, system.matrix i i ≠ 0) ∧
      ((backSubstitute system rest X).1 = .oneSolution →
        system.Solves (backSubstitute system rest X).2) := by
  induction rest generalizing X with
  | nil =>
      refine ⟨iff_of_true rfl fun i => done.pivots i List.not_mem_nil, fun _ => ?_⟩
      funext i
      exact done.solved i List.not_mem_nil
  | cons i rest ih =>
      unfold backSubstitute
      by_cases zero : system.matrix i i = 0
      · simp only [zero, if_true]
        have singular : ¬ ∀ k, system.matrix k k ≠ 0 := fun pivots => pivots i zero
        split_ifs
        · exact ⟨iff_of_false nofun singular, nofun⟩
        · exact ⟨iff_of_false nofun singular, nofun⟩
      · simp only [zero, if_false]
        exact ih (done.next triangular zero)

theorem backSubstitute_ne_oneSolution {rest : List (Fin (n + 1))}
    (other : (backSubstitute system rest X).1 ≠ .oneSolution) :
    (backSubstitute system rest X).1 = .noSolution ∨
      (backSubstitute system rest X).1 = .infSolutions := by
  induction rest generalizing X with
  | nil => exact absurd rfl other
  | cons i rest ih =>
      unfold backSubstitute at other ⊢
      by_cases zero : system.matrix i i = 0
      · simp only [zero, if_true]
        split_ifs
        · exact .inr rfl
        · exact .inl rfl
      · simp only [zero, if_false] at other ⊢
        exact ih other

theorem gauss_ne_oneSolution {A : Matrix (Fin (n + 1)) (Fin (n + 1)) K} {B : Fin (n + 1) → K}
    (other : (gauss A X B).1 ≠ .oneSolution) :
    (gauss A X B).1 = .noSolution ∨ (gauss A X B).1 = .infSolutions :=
  backSubstitute_ne_oneSolution other

end Back

/-! ## The result -/

section Result

variable [IsStrictOrderedRing K]

theorem eliminate_isUpperTriangular (system : TSystem n K) :
    (eliminate system).matrix.IsUpperTriangular := by
  intro i j less
  refine (eliminate_spec system).2 i j ?_ less
  have inside := i.isLt
  simp only [id] at less
  omega

omit [LinearOrder K] [IsStrictOrderedRing K] in
theorem substituted_all (system : TSystem n K) (X : Fin (n + 1) → K) :
    Substituted system (List.finRange (n + 1)).reverse X where
  descending := List.pairwise_reverse.mpr (List.pairwise_lt_finRange _)
  later k absent := absurd (by simp) absent
  pivots k absent := absurd (by simp) absent
  solved k absent := absurd (by simp) absent

theorem gauss_iff_regular (A : Matrix (Fin (n + 1)) (Fin (n + 1)) K) (X B : Fin (n + 1) → K) :
    (gauss A X B).1 = .oneSolution ↔ A.det ≠ 0 := by
  have triangular := eliminate_isUpperTriangular (⟨A, B⟩ : TSystem n K)
  calc (gauss A X B).1 = .oneSolution
      ↔ ∀ i, (eliminate (⟨A, B⟩ : TSystem n K)).matrix i i ≠ 0 :=
        (backSubstitute_spec triangular (substituted_all _ X)).1
    _ ↔ (eliminate (⟨A, B⟩ : TSystem n K)).Regular := (regular_iff triangular).symm
    _ ↔ A.det ≠ 0 := (eliminate_spec (⟨A, B⟩ : TSystem n K)).1.regular.symm

theorem gauss_solves (A : Matrix (Fin (n + 1)) (Fin (n + 1)) K) (X B : Fin (n + 1) → K)
    (one : (gauss A X B).1 = .oneSolution) : A *ᵥ (gauss A X B).2 = B := by
  have triangular := eliminate_isUpperTriangular (⟨A, B⟩ : TSystem n K)
  have solves := (backSubstitute_spec triangular (substituted_all _ X)).2 one
  exact ((eliminate_spec (⟨A, B⟩ : TSystem n K)).1.solves _).mpr solves

/-- Gauss elimination finds the solution of the regular systems. -/
theorem gauss_oneSolution (A : Matrix (Fin (n + 1)) (Fin (n + 1)) K) (X B : Fin (n + 1) → K) :
    ((gauss A X B).1 = .oneSolution ↔ A.det ≠ 0) ∧
      ((gauss A X B).1 = .oneSolution → A *ᵥ (gauss A X B).2 = B) :=
  ⟨gauss_iff_regular A X B, gauss_solves A X B⟩

end Result

def exchanged : Matrix (Fin 2) (Fin 2) ℚ := !![0, 1; 1, 0]

theorem gauss_oneSolution_exchanged :
    (gauss exchanged 0 ![2, 3]).1 = .oneSolution ∧
      exchanged *ᵥ (gauss exchanged 0 ![2, 3]).2 = ![2, 3] := by
  have one : (gauss exchanged 0 ![2, 3]).1 = .oneSolution := by decide +kernel
  exact ⟨one, (gauss_oneSolution exchanged 0 ![2, 3]).2 one⟩

end Flow123d.Ngh
