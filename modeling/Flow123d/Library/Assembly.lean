import Flow123d.Library.GroupedSums
import Mathlib.Data.Matrix.Basis

/-!
# Matrices and vectors assembled from entries

Each entry is added to what its place holds already. A row of an assembled matrix times a
vector, and the sum of an assembled vector, are sums over the entries.
-/

set_option autoImplicit false

namespace Flow123d.Library

variable {α ρ R : Type} [DecidableEq ρ] [CommRing R]

def addValue (vector : ρ → R) (entry : ρ × R) : ρ → R := vector + Pi.single entry.1 entry.2

def addValues (vector : ρ → R) (entries : List (ρ × R)) : ρ → R :=
  entries.foldl addValue vector

/-- What the entries add to one place. -/
def placeSum (entries : List (ρ × R)) (place : ρ) : R :=
  (entries.map fun entry => if entry.1 = place then entry.2 else 0).sum

def addMatrixValue (matrix : Matrix ρ ρ R) (entry : ρ × ρ × R) : Matrix ρ ρ R :=
  matrix + Matrix.single entry.1 entry.2.1 entry.2.2

def addMatrixValues (matrix : Matrix ρ ρ R) (entries : List (ρ × ρ × R)) : Matrix ρ ρ R :=
  entries.foldl addMatrixValue matrix

/-- What the entries add to one row of the product with a vector. -/
def rowSum (entries : List (ρ × ρ × R)) (x : ρ → R) (row : ρ) : R :=
  (entries.map fun entry => if entry.1 = row then entry.2.2 * x entry.2.1 else 0).sum

/-- What the entries add to one place of the matrix. -/
def entrySum (entries : List (ρ × ρ × R)) (row col : ρ) : R :=
  (entries.map fun entry => if entry.1 = row ∧ entry.2.1 = col then entry.2.2 else 0).sum

/-- The entries of a full submatrix. -/
def blockEntries {m n : ℕ} (rows : Fin m → ρ) (cols : Fin n → ρ)
    (values : Fin m → Fin n → R) : List (ρ × ρ × R) :=
  (List.finRange m).flatMap fun i => (List.finRange n).map fun j =>
    (rows i, cols j, values i j)

/-- The entries of a subvector. -/
def partEntries {m : ℕ} (rows : Fin m → ρ) (values : Fin m → R) : List (ρ × R) :=
  (List.finRange m).map fun i => (rows i, values i)

/-! ## Vectors -/

theorem placeSum_append (entries others : List (ρ × R)) (place : ρ) :
    placeSum (entries ++ others) place = placeSum entries place + placeSum others place := by
  unfold placeSum
  rw [List.map_append, List.sum_append]

theorem placeSum_flatMap (items : List α) (parts : α → List (ρ × R)) (place : ρ) :
    placeSum (items.flatMap parts) place =
      (items.map fun item => placeSum (parts item) place).sum :=
  sum_map_flatMap items parts _

theorem placeSum_of_forall_ne {entries : List (ρ × R)} {place : ρ}
    (elsewhere : ∀ entry ∈ entries, entry.1 ≠ place) : placeSum entries place = 0 := by
  unfold placeSum
  refine List.sum_eq_zero ?_
  intro value member
  obtain ⟨entry, isEntry, rfl⟩ := List.mem_map.mp member
  exact if_neg (elsewhere entry isEntry)

/-- Items that add something to each of their places. -/
theorem placeSum_visits (items : List α) (places : α → List ρ) (value : α × ρ → R) (place : ρ) :
    placeSum ((items.flatMap fun item => (places item).map fun p => (item, p)).map
      fun visit => (visit.2, value visit)) place =
        (items.map fun item => (places item).count place * value (item, place)).sum := by
  have each : ∀ (item : α) (visited : List ρ),
      placeSum (visited.map fun p => (p, value (item, p))) place =
        visited.count place * value (item, place) := by
    intro item visited
    induction visited with
    | nil => simp [placeSum]
    | cons first rest ih =>
        have split : placeSum ((first :: rest).map fun p => (p, value (item, p))) place =
            (if first = place then value (item, first) else 0) +
              placeSum (rest.map fun p => (p, value (item, p))) place := rfl
        rw [split, ih, List.count_cons]
        by_cases here : first = place
        · subst here
          simp only [if_true, beq_self_eq_true, Nat.cast_add, Nat.cast_one]
          ring
        · simp [here]
  rw [List.map_flatMap, placeSum_flatMap]
  refine congrArg List.sum (List.map_congr_left fun item _ => ?_)
  rw [List.map_map]
  exact each item (places item)

theorem addValues_apply (vector : ρ → R) (entries : List (ρ × R)) (place : ρ) :
    addValues vector entries place = vector place + placeSum entries place := by
  induction entries generalizing vector with
  | nil => exact (add_zero _).symm
  | cons entry rest ih =>
      have first : addValue vector entry place =
          vector place + if entry.1 = place then entry.2 else 0 := by
        unfold addValue
        rw [Pi.add_apply, Pi.single_apply]
        simp only [eq_comm]
      change addValues (addValue vector entry) rest place = _
      rw [ih, first, add_assoc]
      rfl

theorem sum_addValues [Fintype ρ] (vector : ρ → R) (entries : List (ρ × R)) :
    ∑ place, addValues vector entries place =
      ∑ place, vector place + (entries.map fun entry => entry.2).sum := by
  calc ∑ place, addValues vector entries place
      = ∑ place, (vector place + placeSum entries place) :=
        Finset.sum_congr rfl fun place _ => addValues_apply vector entries place
    _ = ∑ place, vector place + ∑ place, placeSum entries place := Finset.sum_add_distrib
    _ = _ := by
        congr 1
        unfold placeSum
        rw [sum_sum_map]
        simp

/-! ## Matrices -/

theorem rowSum_append (entries others : List (ρ × ρ × R)) (x : ρ → R) (row : ρ) :
    rowSum (entries ++ others) x row = rowSum entries x row + rowSum others x row := by
  unfold rowSum
  rw [List.map_append, List.sum_append]

theorem rowSum_cons (entry : ρ × ρ × R) (entries : List (ρ × ρ × R)) (x : ρ → R) (row : ρ) :
    rowSum (entry :: entries) x row =
      (if entry.1 = row then entry.2.2 * x entry.2.1 else 0) + rowSum entries x row := rfl

@[simp] theorem rowSum_nil (x : ρ → R) (row : ρ) :
    rowSum ([] : List (ρ × ρ × R)) x row = 0 := rfl

theorem rowSum_flatMap (items : List α) (parts : α → List (ρ × ρ × R)) (x : ρ → R) (row : ρ) :
    rowSum (items.flatMap parts) x row =
      (items.map fun item => rowSum (parts item) x row).sum :=
  sum_map_flatMap items parts _

theorem rowSum_of_forall_ne {entries : List (ρ × ρ × R)} {row : ρ} (x : ρ → R)
    (elsewhere : ∀ entry ∈ entries, entry.1 ≠ row) : rowSum entries x row = 0 := by
  unfold rowSum
  refine List.sum_eq_zero ?_
  intro value member
  obtain ⟨entry, isEntry, rfl⟩ := List.mem_map.mp member
  exact if_neg (elsewhere entry isEntry)

theorem addMatrixValues_mulVec [Fintype ρ] (matrix : Matrix ρ ρ R)
    (entries : List (ρ × ρ × R)) (x : ρ → R) (row : ρ) :
    (addMatrixValues matrix entries).mulVec x row =
      matrix.mulVec x row + rowSum entries x row := by
  induction entries generalizing matrix with
  | nil => exact (add_zero _).symm
  | cons entry rest ih =>
      have first : (addMatrixValue matrix entry).mulVec x row = matrix.mulVec x row +
          if entry.1 = row then entry.2.2 * x entry.2.1 else 0 := by
        unfold addMatrixValue
        rw [Matrix.add_mulVec, Pi.add_apply, Matrix.single_mulVec, Function.update_apply]
        simp only [eq_comm, Pi.zero_apply]
      change (addMatrixValues (addMatrixValue matrix entry) rest).mulVec x row = _
      rw [ih, first, add_assoc]
      rfl

theorem entrySum_append (entries others : List (ρ × ρ × R)) (row col : ρ) :
    entrySum (entries ++ others) row col =
      entrySum entries row col + entrySum others row col := by
  unfold entrySum
  rw [List.map_append, List.sum_append]

theorem entrySum_flatMap (items : List α) (parts : α → List (ρ × ρ × R)) (row col : ρ) :
    entrySum (items.flatMap parts) row col =
      (items.map fun item => entrySum (parts item) row col).sum :=
  sum_map_flatMap items parts _

theorem entrySum_of_forall_ne {entries : List (ρ × ρ × R)} {row col : ρ}
    (elsewhere : ∀ entry ∈ entries, ¬(entry.1 = row ∧ entry.2.1 = col)) :
    entrySum entries row col = 0 := by
  unfold entrySum
  refine List.sum_eq_zero ?_
  intro value member
  obtain ⟨entry, isEntry, rfl⟩ := List.mem_map.mp member
  exact if_neg (elsewhere entry isEntry)

theorem addMatrixValues_apply (matrix : Matrix ρ ρ R) (entries : List (ρ × ρ × R))
    (row col : ρ) :
    addMatrixValues matrix entries row col = matrix row col + entrySum entries row col := by
  induction entries generalizing matrix with
  | nil => exact (add_zero _).symm
  | cons entry rest ih =>
      have first : addMatrixValue matrix entry row col =
          matrix row col + if entry.1 = row ∧ entry.2.1 = col then entry.2.2 else 0 := rfl
      change addMatrixValues (addMatrixValue matrix entry) rest row col = _
      rw [ih, first, add_assoc]
      rfl

/-! ## Weighted sums of rows -/

/-- What the entries add to the rows of the product with a vector, summed with weights. -/
def weightedSum (weight x : ρ → R) (entries : List (ρ × ρ × R)) : R :=
  (entries.map fun entry => weight entry.1 * (entry.2.2 * x entry.2.1)).sum

def weightedPlaces (weight : ρ → R) (entries : List (ρ × R)) : R :=
  (entries.map fun entry => weight entry.1 * entry.2).sum

section Weighted

omit [DecidableEq ρ]

theorem weightedSum_append (weight x : ρ → R) (entries others : List (ρ × ρ × R)) :
    weightedSum weight x (entries ++ others) =
      weightedSum weight x entries + weightedSum weight x others := by
  unfold weightedSum
  rw [List.map_append, List.sum_append]

theorem weightedSum_flatMap (weight x : ρ → R) (items : List α)
    (parts : α → List (ρ × ρ × R)) :
    weightedSum weight x (items.flatMap parts) =
      (items.map fun item => weightedSum weight x (parts item)).sum :=
  sum_map_flatMap items parts _

theorem weightedSum_of_forall {weight x : ρ → R} {entries : List (ρ × ρ × R)}
    (zero : ∀ entry ∈ entries, weight entry.1 = 0) : weightedSum weight x entries = 0 := by
  refine List.sum_eq_zero fun value member => ?_
  obtain ⟨entry, isEntry, rfl⟩ := List.mem_map.mp member
  rw [zero entry isEntry, zero_mul]

theorem weightedSum_blockEntries {m n : ℕ} (weight x : ρ → R) (rows : Fin m → ρ)
    (cols : Fin n → ρ) (values : Fin m → Fin n → R) :
    weightedSum weight x (blockEntries rows cols values) =
      ∑ i, ∑ j, weight (rows i) * (values i j * x (cols j)) := by
  unfold blockEntries
  rw [weightedSum_flatMap, sum_finRange]
  refine Finset.sum_congr rfl fun i _ => ?_
  unfold weightedSum
  rw [List.map_map, ← sum_finRange]
  rfl

theorem weightedPlaces_partEntries {m : ℕ} (weight : ρ → R) (rows : Fin m → ρ)
    (values : Fin m → R) :
    weightedPlaces weight (partEntries rows values) = ∑ i, weight (rows i) * values i := by
  unfold weightedPlaces partEntries
  rw [List.map_map, ← sum_finRange]
  rfl

theorem weightedPlaces_append (weight : ρ → R) (entries others : List (ρ × R)) :
    weightedPlaces weight (entries ++ others) =
      weightedPlaces weight entries + weightedPlaces weight others := by
  unfold weightedPlaces
  rw [List.map_append, List.sum_append]

theorem weightedPlaces_flatMap (weight : ρ → R) (items : List α) (parts : α → List (ρ × R)) :
    weightedPlaces weight (items.flatMap parts) =
      (items.map fun item => weightedPlaces weight (parts item)).sum :=
  sum_map_flatMap items parts _

theorem weightedPlaces_of_forall {weight : ρ → R} {entries : List (ρ × R)}
    (zero : ∀ entry ∈ entries, weight entry.1 = 0) : weightedPlaces weight entries = 0 := by
  refine List.sum_eq_zero fun value member => ?_
  obtain ⟨entry, isEntry, rfl⟩ := List.mem_map.mp member
  rw [zero entry isEntry, zero_mul]

end Weighted

theorem sum_weight_mulVec [Fintype ρ] (weight x : ρ → R) (entries : List (ρ × ρ × R)) :
    ∑ row, weight row * (addMatrixValues 0 entries).mulVec x row =
      weightedSum weight x entries := by
  have perRow : ∀ row, weight row * (addMatrixValues 0 entries).mulVec x row =
      (entries.map fun entry => if entry.1 = row then
        weight entry.1 * (entry.2.2 * x entry.2.1) else 0).sum := by
    intro row
    rw [addMatrixValues_mulVec, Matrix.zero_mulVec, Pi.zero_apply, zero_add, rowSum,
      ← List.sum_map_mul_left]
    refine congrArg List.sum (List.map_congr_left fun entry _ => ?_)
    split_ifs with here
    · rw [here]
    · rw [mul_zero]
  rw [Finset.sum_congr rfl fun row _ => perRow row, sum_sum_map]
  unfold weightedSum
  simp

theorem sum_weight_addValues [Fintype ρ] (weight : ρ → R) (entries : List (ρ × R)) :
    ∑ row, weight row * addValues 0 entries row = weightedPlaces weight entries := by
  have perRow : ∀ row, weight row * addValues 0 entries row =
      (entries.map fun entry => if entry.1 = row then weight entry.1 * entry.2 else 0).sum := by
    intro row
    rw [addValues_apply, Pi.zero_apply, zero_add, placeSum, ← List.sum_map_mul_left]
    refine congrArg List.sum (List.map_congr_left fun entry _ => ?_)
    split_ifs with here
    · rw [here]
    · rw [mul_zero]
  rw [Finset.sum_congr rfl fun row _ => perRow row, sum_sum_map]
  unfold weightedPlaces
  simp

/-! ## Symmetric entries -/

/-- The entries add the same to a place and to the one across the diagonal. -/
def Mirrored (entries : List (ρ × ρ × R)) : Prop :=
  ∀ row col, entrySum entries row col = entrySum entries col row

namespace Mirrored

theorem append {entries others : List (ρ × ρ × R)} (first : Mirrored entries)
    (second : Mirrored others) : Mirrored (entries ++ others) := by
  intro row col
  rw [entrySum_append, entrySum_append, first, second]

theorem flatMap {items : List α} {parts : α → List (ρ × ρ × R)}
    (each : ∀ item, Mirrored (parts item)) : Mirrored (items.flatMap parts) := by
  intro row col
  rw [entrySum_flatMap, entrySum_flatMap]
  exact congrArg List.sum (List.map_congr_left fun item _ => each item row col)

theorem of_diagonal {entries : List (ρ × ρ × R)}
    (diagonal : ∀ entry ∈ entries, entry.1 = entry.2.1) : Mirrored entries := by
  intro row col
  unfold entrySum
  refine congrArg List.sum (List.map_congr_left fun entry member => ?_)
  rw [diagonal entry member]
  exact if_congr and_comm rfl rfl

theorem pairs (items : List α) (places : α → ρ × ρ) (value : α → R) :
    Mirrored ((items.map fun item => ((places item).1, (places item).2, value item)) ++
      items.map fun item => ((places item).2, (places item).1, value item)) := by
  intro row col
  rw [entrySum_append, entrySum_append, add_comm]
  unfold entrySum
  rw [List.map_map, List.map_map, List.map_map, List.map_map]
  congr 2 <;> refine List.map_congr_left fun item _ => if_congr and_comm rfl rfl

theorem addMatrixValues {matrix : Matrix ρ ρ R} {entries : List (ρ × ρ × R)}
    (mirrored : Mirrored entries) (symmetric : matrix.transpose = matrix) :
    (addMatrixValues matrix entries).transpose = addMatrixValues matrix entries := by
  ext row col
  rw [Matrix.transpose_apply, addMatrixValues_apply, addMatrixValues_apply, mirrored]
  exact congrArg (· + _) (congrFun (congrFun symmetric row) col)

end Mirrored

end Flow123d.Library
