import Flow123d.System.MathFce
import Mathlib.Algebra.BigOperators.Intervals
import Mathlib.Data.Fin.VecNotation
import Mathlib.LinearAlgebra.Matrix.Block
import Mathlib.LinearAlgebra.Matrix.NonsingularInverse
import Mathlib.Order.Interval.Finset.Fin
import Mathlib.Tactic.Abel
import Mathlib.Tactic.LinearCombination

/-!
# Inverses in place

The forward run of `MatInverse` stores the triangular factors of the inverse. The backward run
reads back entries to which it has added parts of the inverse already.
-/

set_option autoImplicit false

namespace Flow123d.MatInverse

open Matrix

variable {K : Type} [Field K] {n : ℕ}

/-! ## One row -/

@[simp] theorem divideRow_self (a : Matrix (Fin (n + 1)) (Fin (n + 1)) K) (row : Fin (n + 1)) :
    divideRow a row row = fun col => Function.update (a row) row 1 col / a row row :=
  updateRow_self

theorem divideRow_of_ne {row i : Fin (n + 1)} (a : Matrix (Fin (n + 1)) (Fin (n + 1)) K)
    (other : i ≠ row) : divideRow a row i = a i :=
  updateRow_ne other

/-- What the elimination with a row of the matrix makes of another row. -/
def cleared (by_row : Fin (n + 1) → K) (row : Fin (n + 1)) (v : Fin (n + 1) → K) :
    Fin (n + 1) → K :=
  v - v row • (Pi.single row 1 + by_row)

theorem eliminate_self (a : Matrix (Fin (n + 1)) (Fin (n + 1)) K) (row subrow : Fin (n + 1)) :
    eliminate row a subrow subrow = cleared (a row) row (a subrow) := by
  unfold eliminate cleared
  rw [updateRow_self]
  funext col
  by_cases same : col = row
  · subst same
    simp [mul_comm]
  · simp [same, mul_comm]

theorem eliminate_of_ne {row subrow i : Fin (n + 1)}
    (a : Matrix (Fin (n + 1)) (Fin (n + 1)) K) (other : i ≠ subrow) :
    eliminate row a subrow i = a i :=
  updateRow_ne other

/-- The loop over the rows to clear reads the row it clears with, and no cleared row. -/
theorem foldl_eliminate {row : Fin (n + 1)} {subrows : List (Fin (n + 1))}
    (distinct : subrows.Nodup) (others : row ∉ subrows)
    (a : Matrix (Fin (n + 1)) (Fin (n + 1)) K) (i : Fin (n + 1)) :
    subrows.foldl (eliminate row) a i =
      if i ∈ subrows then cleared (a row) row (a i) else a i := by
  induction subrows generalizing a with
  | nil => simp
  | cons subrow subrows ih =>
      obtain ⟨fresh, distinct⟩ := List.nodup_cons.mp distinct
      rw [List.mem_cons, not_or] at others
      rw [List.foldl_cons, ih distinct others.2, eliminate_of_ne a others.1]
      by_cases here : i = subrow
      · subst here
        rw [if_neg fresh, if_pos List.mem_cons_self, eliminate_self]
      · simp [eliminate_of_ne a here, here]

theorem forwardStep_apply (a : Matrix (Fin (n + 1)) (Fin (n + 1)) K) (row i : Fin (n + 1)) :
    forwardStep a row i = if row < i then cleared (divideRow a row row) row (a i)
      else divideRow a row i := by
  unfold forwardStep
  rw [foldl_eliminate ((List.nodup_finRange _).filter _) (by simp)]
  simp only [List.mem_filter, List.mem_finRange, decide_eq_true_eq, true_and]
  split_ifs with below
  · rw [divideRow_of_ne a below.ne']
  · rfl

theorem backwardStep_apply (a : Matrix (Fin (n + 1)) (Fin (n + 1)) K) (row i : Fin (n + 1)) :
    backwardStep a row i = if i < row then cleared (a row) row (a i) else a i := by
  unfold backwardStep
  rw [foldl_eliminate (List.nodup_reverse.mpr ((List.nodup_finRange _).filter _)) (by simp)]
  simp

/-! ## The forward run -/

/-- The row of the eliminated matrix, where the columns before `t` belong to the inverse. -/
def systemPart (t : ℕ) (i : Fin (n + 1)) (v : Fin (n + 1) → K) : Fin (n + 1) → K :=
  fun col => if col.val < t then (if col = i then 1 else 0) else v col

/-- The row of the growing inverse. -/
def inversePart (t : ℕ) (i : Fin (n + 1)) (v : Fin (n + 1) → K) : Fin (n + 1) → K :=
  fun col => if col.val < t then v col else if col = i then 1 else 0

/-- After the rows before `r`, each row holds a row of the system and one of the transformation
that made it. -/
def Transformed (a : Matrix (Fin (n + 1)) (Fin (n + 1)) K) (r : ℕ)
    (stored : Matrix (Fin (n + 1)) (Fin (n + 1)) K) : Prop :=
  ∀ i : Fin (n + 1), inversePart (min (i + 1) r) i (stored i) ᵥ* a =
    systemPart (min (i + 1) r) i (stored i)

theorem systemPart_divided {row : Fin (n + 1)} {v : Fin (n + 1) → K} (nonzero : v row ≠ 0) :
    systemPart (row + 1) row (fun col => Function.update v row 1 col / v row) =
      (v row)⁻¹ • systemPart row row v := by
  funext col
  simp only [systemPart, Pi.smul_apply, smul_eq_mul]
  rcases lt_trichotomy col row with before | same | after
  · simp [before, Nat.lt_succ_of_lt before, before.ne]
  · simp [same, nonzero]
  · simp [after.not_gt, Nat.not_lt.mpr (Nat.succ_le_of_lt after), after.ne', div_eq_inv_mul]

theorem inversePart_divided {row : Fin (n + 1)} {v : Fin (n + 1) → K} :
    inversePart (row + 1) row (fun col => Function.update v row 1 col / v row) =
      (v row)⁻¹ • inversePart row row v := by
  funext col
  simp only [inversePart, Pi.smul_apply, smul_eq_mul]
  rcases lt_trichotomy col row with before | same | after
  · simp [before, Nat.lt_succ_of_lt before, before.ne, div_eq_inv_mul]
  · simp [same]
  · simp [after.not_gt, Nat.not_lt.mpr (Nat.succ_le_of_lt after), after.ne']

theorem systemPart_cleared {row i : Fin (n + 1)} (below : row < i) (v w : Fin (n + 1) → K) :
    systemPart (row + 1) i (cleared w row v) =
      systemPart row i v - v row • systemPart (row + 1) row w := by
  funext col
  simp only [systemPart, cleared, Pi.sub_apply, Pi.smul_apply, Pi.add_apply, smul_eq_mul]
  rcases lt_trichotomy col row with before | same | after
  · simp [before, Nat.lt_succ_of_lt before, before.ne, (before.trans below).ne]
  · simp [same, below.ne]
  · simp [after.not_gt, Nat.not_lt.mpr (Nat.succ_le_of_lt after), after.ne']

theorem inversePart_cleared {row i : Fin (n + 1)} (below : row < i) (v w : Fin (n + 1) → K) :
    inversePart (row + 1) i (cleared w row v) =
      inversePart row i v - v row • inversePart (row + 1) row w := by
  funext col
  simp only [inversePart, cleared, Pi.sub_apply, Pi.smul_apply, Pi.add_apply, smul_eq_mul]
  rcases lt_trichotomy col row with before | same | after
  · simp [before, Nat.lt_succ_of_lt before, before.ne]
  · simp [same, below.ne, mul_add]
  · simp [after.not_gt, Nat.not_lt.mpr (Nat.succ_le_of_lt after), after.ne']

theorem Transformed.initial (a : Matrix (Fin (n + 1)) (Fin (n + 1)) K) : Transformed a 0 a := by
  intro i
  have inverse : inversePart (min (i + 1) 0) i (a i) = Pi.single i 1 := by
    funext col
    simp [inversePart, Pi.single_apply]
  have system : systemPart (min (i + 1) 0) i (a i) = a i := by
    funext col
    simp [systemPart]
  rw [inverse, system, single_one_vecMul]
  rfl

/-- Division of a row, and whatever the elimination does below it, keeps the transformation. -/
theorem Transformed.step {a stored next : Matrix (Fin (n + 1)) (Fin (n + 1)) K}
    (row : Fin (n + 1)) (transformed : Transformed a row stored)
    (nonzero : stored row row ≠ 0)
    (rows : ∀ i, next i = if row < i then cleared (divideRow stored row row) row (stored i)
      else divideRow stored row i) : Transformed a (row + 1) next := by
  have divided : inversePart (row + 1) row (divideRow stored row row) ᵥ* a =
      systemPart (row + 1) row (divideRow stored row row) := by
    have here := transformed row
    rw [min_eq_right (Nat.le_succ _)] at here
    rw [divideRow_self, inversePart_divided, systemPart_divided nonzero, smul_vecMul, here]
  intro i
  rw [rows]
  rcases lt_trichotomy i row with before | same | after
  · have here := transformed i
    rw [min_eq_left (Nat.succ_le_of_lt before)] at here
    rw [if_neg before.not_gt, divideRow_of_ne _ before.ne,
      min_eq_left (Nat.succ_le_succ before.le)]
    exact here
  · subst same
    rw [if_neg (lt_irrefl _), min_self]
    exact divided
  · have here := transformed i
    rw [min_eq_right (Nat.le_succ_of_le (Fin.le_def.mp after.le))] at here
    rw [if_pos after, min_eq_right (Nat.succ_le_succ after.le), inversePart_cleared after,
      systemPart_cleared after, sub_vecMul, smul_vecMul, here, divided]

theorem forwardStep_transformed {a stored : Matrix (Fin (n + 1)) (Fin (n + 1)) K}
    (row : Fin (n + 1)) (transformed : Transformed a row stored)
    (nonzero : stored row row ≠ 0) : Transformed a (row + 1) (forwardStep stored row) :=
  transformed.step row nonzero (forwardStep_apply stored row)

theorem foldl_forwardStep_transformed {a : Matrix (Fin (n + 1)) (Fin (n + 1)) K}
    (pivots : NonzeroPivots a) {r : ℕ} (within : r ≤ n) :
    Transformed a r ((((List.finRange n).map Fin.castSucc).take r).foldl forwardStep a) := by
  induction r with
  | zero => exact Transformed.initial a
  | succ r ih =>
      have inside : r < ((List.finRange n).map Fin.castSucc).length := by simpa using within
      have next : ((List.finRange n).map Fin.castSucc)[r] = ⟨r, by omega⟩ := by simp
      rw [List.take_add_one, List.getElem?_eq_getElem inside, next, Option.toList_some,
        List.foldl_append]
      exact forwardStep_transformed ⟨r, by omega⟩ (ih (by omega)) (pivots ⟨r, by omega⟩)

theorem forwardRun_transformed {a : Matrix (Fin (n + 1)) (Fin (n + 1)) K}
    (pivots : NonzeroPivots a) : Transformed a (n + 1) (forwardRun a) := by
  have whole : (((List.finRange n).map Fin.castSucc).take n) =
      (List.finRange n).map Fin.castSucc := List.take_of_length_le (by simp)
  have before := foldl_forwardStep_transformed pivots le_rfl
  have pivot := pivots (Fin.last n)
  rw [Fin.val_last, whole] at pivot
  rw [whole] at before
  refine Transformed.step (Fin.last n) before pivot fun i => ?_
  rw [if_neg (Fin.le_last i).not_gt]
  rfl

/-- The lower triangular transformation that the forward run stores. -/
def transform (a : Matrix (Fin (n + 1)) (Fin (n + 1)) K) : Matrix (Fin (n + 1)) (Fin (n + 1)) K :=
  of fun i => inversePart (i + 1) i (forwardRun a i)

/-- The upper triangular matrix that the forward run leaves. -/
def upperFactor (a : Matrix (Fin (n + 1)) (Fin (n + 1)) K) :
    Matrix (Fin (n + 1)) (Fin (n + 1)) K :=
  of fun i => systemPart (i + 1) i (forwardRun a i)

theorem transform_mul {a : Matrix (Fin (n + 1)) (Fin (n + 1)) K} (pivots : NonzeroPivots a) :
    transform a * a = upperFactor a := by
  ext i col
  have row := forwardRun_transformed pivots i
  rw [min_eq_left (Nat.succ_le_succ (Nat.le_of_lt_succ i.isLt))] at row
  exact congrFun row col

theorem transform_lower (a : Matrix (Fin (n + 1)) (Fin (n + 1)) K) :
    (transform a).IsLowerTriangular := by
  intro i col before
  have after : i < col := before
  simp [transform, inversePart, Nat.not_lt.mpr (Nat.succ_le_of_lt after), after.ne']

theorem upperFactor_upper (a : Matrix (Fin (n + 1)) (Fin (n + 1)) K) :
    (upperFactor a).IsUpperTriangular := by
  intro i col before
  have left : col < i := before
  simp [upperFactor, systemPart, Nat.lt_succ_of_lt left, left.ne]

theorem upperFactor_diagonal (a : Matrix (Fin (n + 1)) (Fin (n + 1)) K) (i : Fin (n + 1)) :
    upperFactor a i i = 1 := by
  simp [upperFactor, systemPart]

theorem det_upperFactor (a : Matrix (Fin (n + 1)) (Fin (n + 1)) K) : (upperFactor a).det = 1 := by
  rw [det_of_isUpperTriangular (upperFactor_upper a)]
  simp [upperFactor_diagonal]

theorem upperFactor_of_lt {a : Matrix (Fin (n + 1)) (Fin (n + 1)) K} {i k : Fin (n + 1)}
    (after : i < k) : upperFactor a i k = forwardRun a i k := by
  simp [upperFactor, systemPart, Nat.not_lt.mpr (Nat.succ_le_of_lt after)]

theorem det_mul_transform {a : Matrix (Fin (n + 1)) (Fin (n + 1)) K} (pivots : NonzeroPivots a) :
    (transform a).det * a.det = 1 := by
  rw [← det_mul, transform_mul pivots, det_upperFactor]

theorem isUnit_det {a : Matrix (Fin (n + 1)) (Fin (n + 1)) K} (pivots : NonzeroPivots a) :
    IsUnit a.det := by
  have product := det_mul_transform pivots
  rw [mul_comm] at product
  exact IsUnit.of_mul_eq_one _ product

/-- Where the pivots are not zero, the forward run finds the triangular factors. -/
theorem exists_lower_mul_upperFactor {a : Matrix (Fin (n + 1)) (Fin (n + 1)) K}
    (pivots : NonzeroPivots a) :
    ∃ lower : Matrix (Fin (n + 1)) (Fin (n + 1)) K,
      lower.IsLowerTriangular ∧ lower * upperFactor a = a := by
  have unit : IsUnit (transform a).det := IsUnit.of_mul_eq_one _ (det_mul_transform pivots)
  let _ : Invertible (transform a) := invertibleOfIsUnitDet _ unit
  refine ⟨(transform a)⁻¹, blockTriangular_inv_of_blockTriangular (transform_lower a), ?_⟩
  rw [← transform_mul pivots, ← Matrix.mul_assoc, nonsing_inv_mul _ unit, Matrix.one_mul]

/-- A row of the forward run is one of the transformation and one of the factor. -/
theorem forwardRun_row (a : Matrix (Fin (n + 1)) (Fin (n + 1)) K) (i : Fin (n + 1)) :
    forwardRun a i = transform a i +
      ∑ k ∈ Finset.Ioi i, upperFactor a i k • (Pi.single k 1 : Fin (n + 1) → K) := by
  funext col
  rw [Pi.add_apply, Finset.sum_apply]
  simp only [Pi.smul_apply, smul_eq_mul, Pi.single_apply, mul_ite, mul_one, mul_zero,
    Finset.sum_ite_eq, Finset.mem_Ioi]
  split_ifs with after
  · rw [upperFactor_of_lt after]
    have zero := transform_lower a (show OrderDual.toDual col < OrderDual.toDual i from after)
    rw [zero, zero_add]
  · have stored : transform a i col = forwardRun a i col := by
      simp [transform, inversePart, Nat.lt_succ_of_le (Fin.le_def.mp (not_lt.mp after))]
    rw [stored, add_zero]

/-- A row of the inverse by those below it. -/
theorem inverse_row {a : Matrix (Fin (n + 1)) (Fin (n + 1)) K} (pivots : NonzeroPivots a)
    (i : Fin (n + 1)) :
    transform a i = a⁻¹ i + ∑ k ∈ Finset.Ioi i, upperFactor a i k • a⁻¹ k := by
  have unit := isUnit_det pivots
  have whole : transform a = upperFactor a * a⁻¹ := by
    rw [← transform_mul pivots, Matrix.mul_assoc, mul_nonsing_inv _ unit, Matrix.mul_one]
  funext col
  rw [whole, mul_apply, Pi.add_apply, Finset.sum_apply]
  have lower : ∀ k ∈ Finset.univ, k ∉ Finset.Ici i → upperFactor a i k * a⁻¹ k col = 0 := by
    intro k _ outside
    rw [Finset.mem_Ici, not_le] at outside
    rw [upperFactor_upper a outside, zero_mul]
  rw [← Finset.sum_subset (Finset.subset_univ (Finset.Ici i)) lower, ← Finset.Ioi_insert,
    Finset.sum_insert (by simp), upperFactor_diagonal, one_mul]
  rfl

/-! ## The backward run -/

theorem foldl_backwardStep {rows : List (Fin (n + 1))} (descending : rows.Pairwise (· > ·))
    (a : Matrix (Fin (n + 1)) (Fin (n + 1)) K) (i : Fin (n + 1)) :
    rows.foldl backwardStep a i = (rows.filter (i < ·)).foldl
      (fun v row => cleared (rows.foldl backwardStep a row) row v) (a i) := by
  induction rows generalizing a i with
  | nil => rfl
  | cons row rows ih =>
      obtain ⟨first, descending⟩ := List.pairwise_cons.mp descending
      rw [List.foldl_cons]
      have kept : rows.foldl backwardStep (backwardStep a row) row = a row := by
        have none : rows.filter (row < ·) = [] := by
          rw [List.filter_eq_nil_iff]
          intro other member
          simpa using (first other member).le
        rw [ih descending, none, List.foldl_nil, backwardStep_apply, if_neg (lt_irrefl row)]
      by_cases above : i < row
      · rw [List.filter_cons_of_pos (by simpa using above), List.foldl_cons, kept,
          ih descending, backwardStep_apply, if_pos above]
      · rw [List.filter_cons_of_neg (by simpa using above), ih descending, backwardStep_apply,
          if_neg above]

/-- The entries that the clearing of a row reads, when it clears with the rows of `x`. -/
def Readings (x : Matrix (Fin (n + 1)) (Fin (n + 1)) K) (i : Fin (n + 1))
    (u m : Fin (n + 1) → K) : Prop :=
  ∀ k, i < k → m k + ∑ l ∈ Finset.Ioi k, m l * x l k = u k

theorem foldl_cleared (x : Matrix (Fin (n + 1)) (Fin (n + 1)) K) {rows : List (Fin (n + 1))}
    (descending : rows.Pairwise (· > ·)) (v : Fin (n + 1) → K) :
    ∃ m : Fin (n + 1) → K,
      rows.foldl (fun v row => cleared (x row) row v) v =
        v - (rows.map fun k => m k • (Pi.single k 1 + x k)).sum ∧
      ∀ k ∈ rows, m k + ((rows.filter (k < ·)).map fun l => m l * x l k).sum = v k := by
  induction rows generalizing v with
  | nil => exact ⟨0, by simp, by simp⟩
  | cons row rows ih =>
      obtain ⟨first, descending⟩ := List.pairwise_cons.mp descending
      obtain ⟨m, result, read⟩ := ih descending (cleared (x row) row v)
      have others : ∀ k ∈ rows, Function.update m row (v row) k = m k :=
        fun k member => Function.update_of_ne (first k member).ne _ _
      refine ⟨Function.update m row (v row), ?_, fun k member => ?_⟩
      · have rest : (rows.map fun k => Function.update m row (v row) k •
            (Pi.single k 1 + x k)) = rows.map fun k => m k • (Pi.single k 1 + x k) :=
          List.map_congr_left fun k member => by rw [others k member]
        rw [List.foldl_cons, result, List.map_cons, List.sum_cons, rest, Function.update_self]
        unfold cleared
        abel
      · rcases List.mem_cons.mp member with rfl | later
        · -- the first entry is read before anything is subtracted
          have none : (k :: rows).filter (k < ·) = [] := by
            rw [List.filter_eq_nil_iff]
            intro other member
            rcases List.mem_cons.mp member with rfl | later
            · simp
            · simpa using (first other later).le
          rw [none, Function.update_self]
          simp
        · have above : (row :: rows).filter (k < ·) = row :: rows.filter (k < ·) :=
            List.filter_cons_of_pos (by simpa using first k later)
          have rest : ((rows.filter (k < ·)).map fun l =>
              Function.update m row (v row) l * x l k) =
                (rows.filter (k < ·)).map fun l => m l * x l k :=
            List.map_congr_left fun l member => by rw [others l (List.mem_of_mem_filter member)]
          have here := read k later
          rw [cleared, Pi.sub_apply, Pi.smul_apply, Pi.add_apply,
            Pi.single_eq_of_ne (first k later).ne, zero_add, smul_eq_mul] at here
          rw [above, List.map_cons, List.sum_cons, rest, Function.update_self, others k later]
          linear_combination here

theorem Readings.unique {x : Matrix (Fin (n + 1)) (Fin (n + 1)) K} {i : Fin (n + 1)}
    {u m other : Fin (n + 1) → K} (first : Readings x i u m) (second : Readings x i u other)
    {k : Fin (n + 1)} (after : i < k) : m k = other k := by
  induction k using WellFoundedGT.induction with
  | ind k ih =>
      have below : ∑ l ∈ Finset.Ioi k, m l * x l k = ∑ l ∈ Finset.Ioi k, other l * x l k :=
        Finset.sum_congr rfl fun l member => by
          rw [ih l (Finset.mem_Ioi.mp member) (after.trans (Finset.mem_Ioi.mp member))]
      have here := (first k after).trans (second k after).symm
      rw [below] at here
      exact add_right_cancel here

/-- The rows of the inverse that the backward run leaves, by those below them. -/
theorem backwardRun_row (a : Matrix (Fin (n + 1)) (Fin (n + 1)) K) (i : Fin (n + 1)) :
    ∃ m, Readings (backwardRun a) i (a i) m ∧ backwardRun a i =
      a i - ∑ k ∈ Finset.Ioi i, m k • (Pi.single k 1 + backwardRun a k) := by
  let rows : List (Fin (n + 1)) := ((List.finRange n).map Fin.succ).reverse
  have descending : rows.Pairwise (· > ·) := by
    rw [List.pairwise_reverse, List.pairwise_map]
    exact (List.pairwise_lt_finRange n).imp fun less => Fin.succ_lt_succ_iff.mpr less
  have listed : ∀ j, (rows.filter (j < ·)).toFinset = Finset.Ioi j := by
    intro j
    ext k
    simp only [rows, List.mem_toFinset, List.mem_filter, List.mem_reverse, List.mem_map,
      List.mem_finRange, true_and, decide_eq_true_eq, Finset.mem_Ioi]
    refine and_iff_right_of_imp fun after => ?_
    exact ⟨k.pred (Fin.ne_zero_of_lt after), Fin.succ_pred _ _⟩
  have distinct : ∀ j, (rows.filter (j < ·)).Nodup := fun j =>
    (descending.imp fun less => ne_of_gt less).filter _
  obtain ⟨m, result, read⟩ := foldl_cleared (backwardRun a) (descending.filter (i < ·)) (a i)
  refine ⟨m, fun k after => ?_, ?_⟩
  · have member : k ∈ rows.filter (i < ·) := by
      rw [← List.mem_toFinset, listed, Finset.mem_Ioi]
      exact after
    have inner : (rows.filter (i < ·)).filter (k < ·) = rows.filter (k < ·) := by
      rw [List.filter_filter]
      refine List.filter_congr fun l _ => ?_
      simp only [← Bool.decide_and, decide_eq_decide]
      exact and_iff_left_of_imp after.trans
    have here := read k member
    rwa [inner, ← List.sum_toFinset _ (distinct k), listed] at here
  · rw [← List.sum_toFinset _ (distinct i), listed] at result
    exact (foldl_backwardStep descending a i).trans result

/-- What the backward run reads back beside the factor does not change the inverse. -/
def ReadsFactor (upper inverse : Matrix (Fin (n + 1)) (Fin (n + 1)) K) : Prop :=
  ∀ i, ∃ m, Readings inverse i (upper i) m ∧
    ∑ k ∈ Finset.Ioi i, (upper i k - m k) • (Pi.single k 1 + inverse k) = 0

theorem Readings.of_eq {x y : Matrix (Fin (n + 1)) (Fin (n + 1)) K} {i : Fin (n + 1)}
    {u v m : Fin (n + 1) → K} (readings : Readings x i u m)
    (rows : ∀ k, i < k → x k = y k) (entries : ∀ k, i < k → u k = v k) : Readings y i v m := by
  intro k after
  rw [← entries k after, ← readings k after]
  refine congrArg _ (Finset.sum_congr rfl fun l member => ?_)
  rw [rows l (after.trans (Finset.mem_Ioi.mp member))]

/-- A row comes out right when those below it do and the false readings cancel. -/
theorem row_eq_inverse_iff {a : Matrix (Fin (n + 1)) (Fin (n + 1)) K} (pivots : NonzeroPivots a)
    {i : Fin (n + 1)} {m : Fin (n + 1) → K} :
    forwardRun a i - ∑ k ∈ Finset.Ioi i, m k • (Pi.single k 1 + a⁻¹ k) = a⁻¹ i ↔
      ∑ k ∈ Finset.Ioi i, (upperFactor a i k - m k) • (Pi.single k 1 + a⁻¹ k) = 0 := by
  have factor : ∑ k ∈ Finset.Ioi i, (upperFactor a i k - m k) • (Pi.single k 1 + a⁻¹ k) =
      ∑ k ∈ Finset.Ioi i, upperFactor a i k • (Pi.single k 1 : Fin (n + 1) → K) +
        ∑ k ∈ Finset.Ioi i, upperFactor a i k • a⁻¹ k -
          ∑ k ∈ Finset.Ioi i, m k • (Pi.single k 1 + a⁻¹ k) := by
    rw [← Finset.sum_add_distrib, ← Finset.sum_sub_distrib]
    refine Finset.sum_congr rfl fun k _ => ?_
    rw [sub_smul, smul_add]
  rw [factor, forwardRun_row, inverse_row pivots, ← sub_eq_zero]
  refine Eq.congr_left ?_
  abel

theorem matInverse_eq_inverse_iff {a : Matrix (Fin (n + 1)) (Fin (n + 1)) K}
    (pivots : NonzeroPivots a) : matInverse a = a⁻¹ ↔ ReadsFactor (upperFactor a) a⁻¹ := by
  constructor
  · intro inverted i
    obtain ⟨m, readings, row⟩ := backwardRun_row (forwardRun a) i
    change matInverse a i = _ - ∑ k ∈ _, m k • (_ + matInverse a k) at row
    change Readings (matInverse a) _ _ _ at readings
    rw [inverted] at row readings
    exact ⟨m, readings.of_eq (fun _ _ => rfl) fun k after => (upperFactor_of_lt after).symm,
      (row_eq_inverse_iff pivots).mp row.symm⟩
  · intro reads
    funext i
    induction i using WellFoundedGT.induction with
    | ind i below =>
        obtain ⟨m, readings, row⟩ := backwardRun_row (forwardRun a) i
        obtain ⟨other, expected, cancels⟩ := reads i
        have same : ∀ k, i < k → m k = other k := fun k after =>
          (readings.of_eq below fun k after => (upperFactor_of_lt after).symm).unique
            expected after
        refine row.trans ?_
        rw [← (row_eq_inverse_iff pivots).mpr cancels]
        refine congrArg _ (Finset.sum_congr rfl fun k member => ?_)
        have here : backwardRun (forwardRun a) k = a⁻¹ k := below k (Finset.mem_Ioi.mp member)
        rw [same k (Finset.mem_Ioi.mp member), here]

/-- Both products are the identity when nothing read back spoils a row. -/
theorem matInverse_inverts_iff {a : Matrix (Fin (n + 1)) (Fin (n + 1)) K}
    (pivots : NonzeroPivots a) :
    ∃ lower upper : Matrix (Fin (n + 1)) (Fin (n + 1)) K,
      lower.IsLowerTriangular ∧ upper.IsUpperTriangular ∧ (∀ i, upper i i = 1) ∧
        lower * upper = a ∧
          (matInverse a * a = 1 ∧ a * matInverse a = 1 ↔ ReadsFactor upper a⁻¹) := by
  obtain ⟨lower, triangular, product⟩ := exists_lower_mul_upperFactor pivots
  refine ⟨lower, upperFactor a, triangular, upperFactor_upper a, upperFactor_diagonal a, product,
    ?_⟩
  rw [← matInverse_eq_inverse_iff pivots]
  constructor
  · intro inverts
    exact (inv_eq_left_inv inverts.1).symm
  · intro inverted
    have unit := isUnit_det pivots
    rw [inverted]
    exact ⟨nonsing_inv_mul _ unit, mul_nonsing_inv _ unit⟩

theorem matInverse_inverts_iff_two : ∃ lower upper : Matrix (Fin 2) (Fin 2) ℚ,
    lower.IsLowerTriangular ∧ upper.IsUpperTriangular ∧ (∀ i, upper i i = 1) ∧
      lower * upper = !![2, 1; 1, 3] ∧
        (matInverse !![2, 1; 1, 3] * !![2, 1; 1, 3] = (1 : Matrix (Fin 2) (Fin 2) ℚ) ∧
            !![2, 1; 1, 3] * matInverse !![2, 1; 1, 3] = (1 : Matrix (Fin 2) (Fin 2) ℚ) ↔
          ReadsFactor upper (!![2, 1; 1, 3] : Matrix (Fin 2) (Fin 2) ℚ)⁻¹) :=
  matInverse_inverts_iff (by unfold NonzeroPivots; decide +kernel)

def threeRows : Matrix (Fin 3) (Fin 3) ℚ := !![1, 1, 1; 1, 2, 2; 1, 2, 3]

/-- With three rows the last entry of the first row is eliminated first, and this changes the
entry that is read next. -/
theorem not_always_inverts :
    ¬ ∀ (n : ℕ) (a : Matrix (Fin (n + 1)) (Fin (n + 1)) ℚ), NonzeroPivots a →
      matInverse a * a = 1 ∧ a * matInverse a = 1 := by
  intro inverts
  have pivots : NonzeroPivots threeRows := by
    unfold NonzeroPivots
    decide +kernel
  have entry : (matInverse threeRows * threeRows) 0 1 ≠ 0 := by decide +kernel
  exact entry (congrFun (congrFun (inverts 2 _ pivots).1 0) 1)

end Flow123d.MatInverse
