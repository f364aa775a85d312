import Flow123d.Library.Fold
import Mathlib.Algebra.BigOperators.Fin
import Mathlib.Algebra.BigOperators.Intervals
import Mathlib.LinearAlgebra.Matrix.Symmetric
import Mathlib.Order.Interval.Finset.Fin

/-!
# Values of tensor fields

The initialisation of a tensor from the arrays of the input. The shape of the input of a square
tensor is taken from the number of its rows and the first row.
-/

set_option autoImplicit false

namespace Flow123d.Fields

open Flow123d.Library

variable {ET : Type} {NRows NCols N : ℕ}

/-- An array of an input type that asks for at least one item. -/
structure InputArray (α : Type) where
  items : List α
  nonempty : items ≠ []

namespace InputArray

variable {α : Type}

def size (rec : InputArray α) : ℕ := rec.items.length

def first (rec : InputArray α) : α := rec.items.head rec.nonempty

end InputArray

abbrev TensorInput (ET : Type) := InputArray (InputArray ET)

def TensorInput.rows (rec : TensorInput ET) : List (List ET) := rec.items.map InputArray.items

/-- `ExcFV_Input`, with its message if it gets one. -/
structure ExcFVInput where
  message : Option String

abbrev Tensor (NRows NCols : ℕ) (ET : Type) := Matrix (Fin NRows) (Fin NCols) ET

def Tensor.set (value : Tensor NRows NCols ET) (row : Fin NRows) (col : Fin NCols) (x : ET) :
    Tensor NRows NCols ET :=
  fun i j => if i = row ∧ j = col then x else value i j

/-- The value, and the rows of the input from the iterator on. -/
structure Filling (N : ℕ) (ET : Type) where
  value : Tensor N N ET
  it : List (InputArray ET)

namespace Filling

/-- `value_.at(row, col) = *(it->begin()); ++it`. -/
def read (state : Filling N ET) (row col : Fin N) : Filling N ET :=
  match state.it with
  | it :: rest => ⟨state.value.set row col it.first, rest⟩
  -- The numbers of rows that are accepted keep the iterator inside of the array.
  | [] => state

def readUpper (state : Filling N ET) (row col : Fin N) : Filling N ET :=
  if row ≤ col then state.read row col
  else { state with value := state.value.set row col (state.value col row) }

end Filling

def zeros (zero : ET) : Tensor NRows NCols ET := fun _ _ => zero

def scalarTensor (zero scalar : ET) : Tensor N N ET :=
  (List.finRange N).foldl (fun value i => Tensor.set value i i scalar) (zeros zero)

def diagonalTensor (zero : ET) (rec : TensorInput ET) : Tensor N N ET :=
  ((List.finRange N).foldl (fun state i => Filling.read state i i) ⟨zeros zero, rec.items⟩).value

def symmetricTensor (value : Tensor N N ET) (rec : TensorInput ET) : Tensor N N ET :=
  ((List.finRange N).foldl (fun state row =>
    (List.finRange N).foldl (fun state col => Filling.readUpper state row col) state)
    ⟨value, rec.items⟩).value

def initSquareTensor (zero : ET) (value : Tensor N N ET) (rec : TensorInput ET) :
    Except ExcFVInput (Tensor N N ET) :=
  if rec.first.size = 1 then
    if rec.size = 1 then .ok (scalarTensor zero rec.first.first)
    else if rec.size = N then .ok (diagonalTensor zero rec)
    else if rec.size = (N + 1) * N / 2 then .ok (symmetricTensor value rec)
    else .error ⟨some (s!"Initializing symmetric matrix {N}x{N} by vector of wrong size " ++
      s!"{rec.size}, should be 1, {N}, or {(N + 1) * N / 2}.")⟩
  else .ok value

def readRow (value : Tensor NRows NCols ET) (row : Fin NRows) (it : InputArray ET) :
    Tensor NRows NCols ET :=
  ((List.finRange NCols).zip it.items).foldl (fun value item => value.set row item.1 item.2) value

/-- Only the full tensor is accepted. -/
def initFullTensor (value : Tensor NRows NCols ET) (rec : TensorInput ET) :
    Except ExcFVInput (Tensor NRows NCols ET) :=
  if rec.size = NRows ∧ rec.first.size = NCols then
    ((List.finRange NRows).zip rec.items).foldlM (fun value item =>
      if item.2.size ≠ NCols then .error ⟨none⟩ else .ok (readRow value item.1 item.2)) value
  else .error ⟨some (s!"Initializing matrix {NRows}x{NCols} by matrix of wrong size " ++
    s!"{rec.size}x{rec.first.size}.")⟩

def initFromInput (zero : ET) (value : Tensor NRows NCols ET) (rec : TensorInput ET) :
    Except ExcFVInput (Tensor NRows NCols ET) :=
  if square : NRows = NCols then
    match NCols, square, value with
    | _, rfl, value => initSquareTensor zero value rec
  else initFullTensor value rec

/-! ## What the input stands for -/

def Tensor.rows (M : Tensor NRows NCols ET) : List (List ET) :=
  List.ofFn fun row => List.ofFn (M row)

def upperPositions (N : ℕ) : List (Fin N × Fin N) :=
  (List.finRange N ×ˢ List.finRange N).filter fun position => position.1 ≤ position.2

/-- The upper triangle, row by row. -/
def Tensor.upperTriangle (M : Tensor N N ET) : List ET :=
  (upperPositions N).map fun position => M position.1 position.2

/-- The rows that a square tensor can be given by. -/
inductive Documents (zero : ET) : List (List ET) → Tensor N N ET → Prop
  | scalar (x : ET) : Documents zero [[x]] fun i j => if i = j then x else zero
  | diagonal (d : Fin N → ET) :
      Documents zero ((List.ofFn d).map ([·])) fun i j => if i = j then d i else zero
  | symmetric (M : Tensor N N ET) (symmetric : M.IsSymm) :
      Documents zero (M.upperTriangle.map ([·])) M
  | full (M : Tensor N N ET) : Documents zero M.rows M

/-- Either the exception is thrown or the value is what the input stands for. -/
def InitCorrect (zero : ET) (rec : TensorInput ET) :
    Except ExcFVInput (Tensor N N ET) → Prop
  | .error _ => True
  | .ok M => Documents zero rec.rows M

/-! ## Loops over the entries -/

@[simp] theorem Tensor.set_self (value : Tensor NRows NCols ET) (row : Fin NRows)
    (col : Fin NCols) (x : ET) : value.set row col x row col = x :=
  if_pos ⟨rfl, rfl⟩

theorem Tensor.set_of_ne (value : Tensor NRows NCols ET) {row i : Fin NRows} {col j : Fin NCols}
    (x : ET) (other : (i, j) ≠ (row, col)) : value.set row col x i j = value i j :=
  if_neg fun ⟨sameRow, sameCol⟩ => other (by rw [sameRow, sameCol])

/-- The entries at the positions. -/
def Tensor.entries (value : Tensor N N ET) (positions : List (Fin N × Fin N)) : List ET :=
  positions.map fun position => value position.1 position.2

theorem Tensor.entries_set {value : Tensor N N ET} {positions : List (Fin N × Fin N)}
    {row col : Fin N} (x : ET) (unseen : (row, col) ∉ positions) :
    (value.set row col x).entries positions = value.entries positions := by
  apply List.map_congr_left
  intro position member
  apply Tensor.set_of_ne
  intro same
  exact unseen (same ▸ member)

theorem scalarTensor_eq (zero scalar : ET) :
    (scalarTensor zero scalar : Tensor N N ET) = fun i j => if i = j then scalar else zero := by
  have loop := foldl_preserves (List.finRange N) (fun value i => Tensor.set value i i scalar)
    (zeros zero) (fun seen value =>
      ∀ i j, value i j = if i = j ∧ i ∈ seen then scalar else zero) (by simp [zeros]) ?_
  · funext i j
    rw [scalarTensor, loop]
    simp
  · intro seen k remaining value split done i j
    rw [Tensor.set, done i j]
    by_cases here : i = k ∧ j = k
    · obtain ⟨rfl, rfl⟩ := here
      simp
    · rw [if_neg here]
      refine if_congr ?_ rfl rfl
      simp only [List.mem_append, List.mem_singleton, and_congr_right_iff]
      rintro rfl
      simp only [and_self] at here
      simp [here]

namespace Filling

/-- The rows are read in the order of the positions. -/
def Listed (heads : List ET) (positions : List (Fin N × Fin N)) (state : Filling N ET) : Prop :=
  state.value.entries positions ++ state.it.map InputArray.first = heads

variable {heads : List ET} {positions : List (Fin N × Fin N)} {state : Filling N ET}
  {row col : Fin N}

theorem Listed.entries_eq (listed : Listed heads positions state)
    (all : positions.length = heads.length) : state.value.entries positions = heads := by
  have total := congrArg List.length listed
  rw [List.length_append, Tensor.entries, List.length_map, all] at total
  have finished : state.it.map InputArray.first = [] := List.length_eq_zero_iff.mp (by omega)
  rw [← listed, finished, List.append_nil]

theorem Listed.read (listed : Listed heads positions state) (unseen : (row, col) ∉ positions)
    (left : positions.length < heads.length) :
    Listed heads (positions ++ [(row, col)]) (state.read row col) := by
  obtain ⟨value, it⟩ := state
  cases it with
  | nil =>
      have total := congrArg List.length listed
      simp [Tensor.entries] at total
      omega
  | cons first rest =>
      rw [← listed]
      simp only [Listed, Filling.read, Tensor.entries, List.map_append, List.map_cons,
        List.map_nil, Tensor.set_self, List.append_assoc, List.singleton_append]
      congr 1
      exact Tensor.entries_set first.first unseen

theorem read_of_ne (state : Filling N ET) {i j : Fin N} (other : (i, j) ≠ (row, col)) :
    (state.read row col).value i j = state.value i j := by
  obtain ⟨value, it⟩ := state
  cases it with
  | nil => rfl
  | cons first rest => exact Tensor.set_of_ne value first.first other

end Filling

/-! ## Diagonal tensors -/

def TensorInput.heads (rec : TensorInput ET) : List ET := rec.items.map InputArray.first

theorem TensorInput.length_heads (rec : TensorInput ET) : rec.heads.length = rec.size :=
  List.length_map _

theorem diagonalTensor_spec (zero : ET) (rec : TensorInput ET) (size : rec.size = N) :
    (List.finRange N).map (fun i => diagonalTensor zero rec i i) = rec.heads ∧
      ∀ i j : Fin N, i ≠ j → diagonalTensor zero rec i j = zero := by
  have loop := foldl_preserves (List.finRange N) (fun state i => Filling.read state i i)
    ⟨zeros zero, rec.items⟩ (fun seen state =>
      Filling.Listed rec.heads (seen.map fun i => (i, i)) state ∧
        ∀ i j, i ≠ j → state.value i j = zero) ⟨rfl, fun _ _ _ => rfl⟩ ?_
  · have entries := loop.1.entries_eq (by simp [rec.length_heads, size])
    rw [Tensor.entries, List.map_map] at entries
    exact ⟨entries, loop.2⟩
  · intro seen i remaining state split ⟨listed, outside⟩
    have distinct : (seen ++ i :: remaining).Nodup := split ▸ List.nodup_finRange N
    have count := congrArg List.length split
    rw [List.length_append, List.length_cons, List.length_finRange] at count
    refine ⟨?_, ?_⟩
    · rw [List.map_append]
      apply listed.read
      · intro member
        obtain ⟨k, before, same⟩ := List.mem_map.mp member
        obtain rfl : k = i := congrArg Prod.fst same
        exact (List.nodup_append.mp distinct).2.2 k before k List.mem_cons_self rfl
      · rw [List.length_map, rec.length_heads]
        omega
    · intro j k different
      rw [state.read_of_ne]
      · exact outside j k different
      · intro same
        rw [Prod.mk.injEq] at same
        exact different (same.1.trans same.2.symm)

/-! ## Symmetric tensors -/

theorem length_upperPositions (N : ℕ) : (upperPositions N).length = (N + 1) * N / 2 := by
  have row : ∀ i : Fin N, ((List.finRange N).filter (i ≤ ·)).length = N - i := by
    intro i
    rw [← Fin.card_Ici, ← List.toFinset_card_of_nodup ((List.nodup_finRange N).filter _)]
    congr 1
    ext j
    simp
  calc (upperPositions N).length = ∑ i : Fin N, (N - i.val) := by
        simp only [upperPositions, SProd.sprod, List.product, List.filter_flatMap,
          List.filter_map, List.length_flatMap, List.length_map, Function.comp_def, row]
        exact Fin.sum_univ_def _ |>.symm
    _ = ∑ i ∈ Finset.range N, (N - i) := Fin.sum_univ_eq_sum_range (fun i => N - i) N
    _ = ∑ i ∈ Finset.range N, (i + 1) := by
        rw [← Finset.sum_range_reflect]
        apply Finset.sum_congr rfl
        intro i member
        have bound := Finset.mem_range.mp member
        omega
    _ = ∑ i ∈ Finset.range (N + 1), i := by rw [Finset.sum_range_succ' _ N, add_zero]
    _ = (N + 1) * N / 2 := Finset.sum_range_id (N + 1)

def positions (N : ℕ) : List (Fin N × Fin N) := List.finRange N ×ˢ List.finRange N

theorem symmetricTensor_eq_foldl (value : Tensor N N ET) (rec : TensorInput ET) :
    symmetricTensor value rec = ((positions N).foldl
      (fun state position => Filling.readUpper state position.1 position.2)
      ⟨value, rec.items⟩).value := by
  simp only [symmetricTensor, positions, SProd.sprod, List.product, List.foldl_flatMap,
    List.foldl_map]

/-- The rows are visited in order. -/
theorem pairwise_positions (N : ℕ) : (positions N).Pairwise fun p q => p.1 ≤ q.1 := by
  simp only [positions, SProd.sprod, List.product]
  rw [List.pairwise_flatMap]
  refine ⟨?_, ?_⟩
  · intro i _
    rw [List.pairwise_map]
    exact List.pairwise_of_forall fun _ _ => le_rfl
  · refine (List.pairwise_lt_finRange N).imp fun less p first q second => ?_
    obtain ⟨_, _, rfl⟩ := List.mem_map.mp first
    obtain ⟨_, _, rfl⟩ := List.mem_map.mp second
    exact less.le

theorem nodup_positions (N : ℕ) : (positions N).Nodup :=
  (List.nodup_finRange N).product (List.nodup_finRange N)

/-- The upper triangle of the entries that are visited is read, the lower one is mirrored. -/
structure Mirrored (heads : List ET) (seen : List (Fin N × Fin N)) (state : Filling N ET) :
    Prop where
  listed : state.Listed heads (seen.filter fun p => p.1 ≤ p.2)
  mirrored : ∀ i j, (i, j) ∈ seen → j < i → state.value i j = state.value j i

namespace Mirrored

variable {heads : List ET} {seen remaining : List (Fin N × Fin N)} {state : Filling N ET}
  {row col : Fin N}

theorem mem_seen (split : positions N = seen ++ (row, col) :: remaining) {i j : Fin N}
    (earlier : i < row) : (i, j) ∈ seen := by
  have member : (i, j) ∈ seen ++ (row, col) :: remaining := by
    rw [← split]
    simp [positions]
  obtain before | here := List.mem_append.mp member
  · exact before
  · have ordered := (List.pairwise_append.mp (split ▸ pairwise_positions N)).2.1
    obtain same | later := List.mem_cons.mp here
    · exact absurd (congrArg Prod.fst same) earlier.ne
    · exact absurd ((List.pairwise_cons.mp ordered).1 _ later) (not_le.mpr earlier)

theorem fst_le (split : positions N = seen ++ (row, col) :: remaining) {i j : Fin N}
    (member : (i, j) ∈ seen) : i ≤ row :=
  (List.pairwise_append.mp (split ▸ pairwise_positions N)).2.2 _ member _ List.mem_cons_self

theorem notMem_seen (split : positions N = seen ++ (row, col) :: remaining) :
    (row, col) ∉ seen := fun member =>
  (List.nodup_append.mp (split ▸ nodup_positions N)).2.2 _ member _ List.mem_cons_self rfl

/-- The mirror images of the entries that are visited are visited. -/
theorem ne_mirror (split : positions N = seen ++ (row, col) :: remaining) {i j : Fin N}
    (member : (i, j) ∈ seen) (lower : j < i) : (j, i) ≠ (row, col) := by
  intro same
  exact notMem_seen split (same ▸ mem_seen split (lower.trans_le (fst_le split member)))

theorem readUpper (split : positions N = seen ++ (row, col) :: remaining)
    (count : heads.length = (upperPositions N).length) (done : Mirrored heads seen state) :
    Mirrored heads (seen ++ [(row, col)]) (state.readUpper row col) := by
  have other : ∀ {i j}, (i, j) ∈ seen → (i, j) ≠ (row, col) := fun member same =>
    notMem_seen split (same ▸ member)
  unfold Filling.readUpper
  by_cases upper : row ≤ col
  · rw [if_pos upper]
    refine ⟨?_, ?_⟩
    · rw [List.filter_append, List.filter_cons_of_pos (by simpa using upper), List.filter_nil]
      apply done.listed.read
      · intro member
        exact notMem_seen split (List.mem_filter.mp member).1
      · rw [count, upperPositions]
        change _ < ((positions N).filter _).length
        rw [split, List.filter_append, List.filter_cons_of_pos (by simpa using upper),
          List.length_append, List.length_cons]
        omega
    · intro i j member lower
      rw [List.mem_append, List.mem_singleton] at member
      obtain before | here := member
      · rw [state.read_of_ne (other before), state.read_of_ne (ne_mirror split before lower)]
        exact done.mirrored i j before lower
      · rw [Prod.mk.injEq] at here
        obtain ⟨rfl, rfl⟩ := here
        exact absurd upper (not_le.mpr lower)
  · rw [if_neg upper]
    refine ⟨?_, ?_⟩
    · rw [List.filter_append, List.filter_cons_of_neg (by simpa using upper), List.filter_nil,
        List.append_nil]
      have unseen : (row, col) ∉ seen.filter fun p => p.1 ≤ p.2 := fun member =>
        notMem_seen split (List.mem_filter.mp member).1
      rw [Filling.Listed, Tensor.entries_set _ unseen]
      exact done.listed
    · intro i j member lower
      rw [List.mem_append, List.mem_singleton] at member
      obtain before | here := member
      · change state.value.set row col _ i j = state.value.set row col _ j i
        rw [Tensor.set_of_ne _ _ (other before),
          Tensor.set_of_ne _ _ (ne_mirror split before lower)]
        exact done.mirrored i j before lower
      · rw [Prod.mk.injEq] at here
        obtain ⟨rfl, rfl⟩ := here
        change state.value.set i j _ i j = state.value.set i j _ j i
        rw [Tensor.set_self, Tensor.set_of_ne]
        intro same
        exact lower.ne (congrArg Prod.fst same)

end Mirrored

theorem symmetricTensor_spec (value : Tensor N N ET) (rec : TensorInput ET)
    (size : rec.size = (N + 1) * N / 2) :
    (symmetricTensor value rec).upperTriangle = rec.heads ∧
      (symmetricTensor value rec).IsSymm := by
  have count : rec.heads.length = (upperPositions N).length := by
    rw [rec.length_heads, size, length_upperPositions]
  have done : Mirrored rec.heads (positions N) _ :=
    foldl_preserves (positions N)
      (fun state position => Filling.readUpper state position.1 position.2) ⟨value, rec.items⟩
      (Mirrored rec.heads) ⟨rfl, fun _ _ member => absurd member List.not_mem_nil⟩
      fun _ _ _ _ split mirrored => mirrored.readUpper split count
  rw [symmetricTensor_eq_foldl]
  refine ⟨done.listed.entries_eq count.symm, ?_⟩
  ext i j
  have everywhere : ∀ i j, (i, j) ∈ positions N := fun i j => by simp [positions]
  rw [Matrix.transpose_apply]
  obtain less | rfl | greater := lt_trichotomy i j
  · exact done.mirrored j i (everywhere _ _) less
  · rfl
  · exact (done.mirrored i j (everywhere _ _) greater).symm

/-! ## Full tensors -/

theorem readRow_of_ne (value : Tensor NRows NCols ET) (it : InputArray ET) {row i : Fin NRows}
    (other : i ≠ row) : readRow value row it i = value i := by
  refine foldl_preserves _ _ _ (fun _ (value' : Tensor NRows NCols ET) => value' i = value i)
    rfl ?_
  intro seen item remaining state split same
  rw [← same]
  funext j
  exact Tensor.set_of_ne state _ fun here => other (congrArg Prod.fst here)

theorem readRow_self (value : Tensor NRows NCols ET) (row : Fin NRows) {it : InputArray ET}
    (size : it.size = NCols) : List.ofFn (readRow value row it row) = it.items := by
  have lengths : (List.finRange NCols).length = it.items.length := by
    rw [List.length_finRange, ← size, InputArray.size]
  have columns : (((List.finRange NCols).zip it.items).map Prod.fst).Nodup := by
    rw [List.map_fst_zip lengths.le]
    exact List.nodup_finRange NCols
  have loop := foldl_preserves ((List.finRange NCols).zip it.items)
    (fun value item => Tensor.set value row item.1 item.2) value
    (fun seen state => seen.map (fun item => state row item.1) = seen.map Prod.snd) rfl ?_
  · change _ = List.map _ _ at loop
    rw [List.map_snd_zip lengths.ge] at loop
    rw [List.ofFn_eq_map, ← loop]
    conv_lhs => rw [← List.map_fst_zip lengths.le, List.map_map]
    rfl
  · intro seen item remaining state split done
    rw [List.map_append, List.map_append, ← done]
    congr 1
    · apply List.map_congr_left
      intro earlier member
      apply Tensor.set_of_ne
      intro here
      have column : earlier.1 = item.1 := congrArg Prod.snd here
      rw [split, List.map_append, List.map_cons] at columns
      exact (List.nodup_append.mp columns).2.2 _ (List.mem_map_of_mem member) _
        List.mem_cons_self column
    · exact congrArg (fun x => [x]) (Tensor.set_self state row item.1 item.2)

/-- A full tensor that is not refused is taken over. -/
theorem initFullTensor_ok {value M : Tensor NRows NCols ET} {rec : TensorInput ET}
    (accepted : initFullTensor value rec = .ok M) : rec.rows = M.rows := by
  unfold initFullTensor at accepted
  split_ifs at accepted with sizes
  have lengths : (List.finRange NRows).length = rec.items.length := by
    rw [List.length_finRange, ← sizes.1, InputArray.size]
  have distinct : (((List.finRange NRows).zip rec.items).map Prod.fst).Nodup := by
    rw [List.map_fst_zip lengths.le]
    exact List.nodup_finRange NRows
  have loop := foldlM_preserves accepted
    (fun seen state => seen.map (fun item => List.ofFn (state item.1)) =
      seen.map fun item => item.2.items) rfl ?_
  · rw [TensorInput.rows, Tensor.rows, List.ofFn_eq_map]
    conv_lhs => rw [← List.map_snd_zip lengths.ge, List.map_map]
    conv_rhs => rw [← List.map_fst_zip lengths.le, List.map_map]
    exact loop.symm
  · intro seen item remaining state after split done ran
    split_ifs at ran with size
    cases ran
    rw [List.map_append, List.map_append, ← done]
    congr 1
    · apply List.map_congr_left
      intro earlier member
      rw [readRow_of_ne]
      intro row
      rw [split, List.map_append, List.map_cons] at distinct
      exact (List.nodup_append.mp distinct).2.2 _ (List.mem_map_of_mem member) _
        List.mem_cons_self row
    · exact congrArg (fun x => [x]) (readRow_self state item.1 (not_not.mp size))

/-! ## Square tensors -/

theorem Tensor.rows_injective : Function.Injective (Tensor.rows : Tensor NRows NCols ET → _) := by
  intro M M' same
  funext row
  exact List.ofFn_injective (congrFun (List.ofFn_injective same) row)

theorem Documents.lengths {zero : ET} {rows : List (List ET)} {M : Tensor N N ET}
    (documents : Documents zero rows M) :
    (∀ row ∈ rows, row.length = 1) ∨ (rows = M.rows ∧ ∀ row ∈ rows, row.length = N) := by
  have singletons : ∀ values : List ET, ∀ row ∈ values.map ([·]), row.length = 1 := by
    intro values row member
    obtain ⟨value, _, rfl⟩ := List.mem_map.mp member
    rfl
  cases documents with
  | scalar x => exact .inl (singletons [x])
  | diagonal d => exact .inl (singletons _)
  | symmetric M symmetric => exact .inl (singletons _)
  | full M =>
      refine .inr ⟨rfl, ?_⟩
      intro row member
      obtain ⟨i, rfl⟩ := List.mem_ofFn.mp member
      exact List.length_ofFn

namespace TensorInput

variable {rec : TensorInput ET}

theorem first_mem_items (rec : TensorInput ET) : rec.first ∈ rec.items :=
  List.head_mem rec.nonempty

theorem rows_eq_heads (single : ∀ row ∈ rec.items, row.size = 1) :
    rec.rows = rec.heads.map ([·]) := by
  rw [rows, heads, List.map_map]
  apply List.map_congr_left
  intro row member
  obtain ⟨items, nonempty⟩ := row
  obtain ⟨value, rfl⟩ := List.length_eq_one_iff.mp (single _ member)
  rfl

/-- What is not one value for each row is a full tensor. -/
theorem first_size_of_documents {zero : ET} {M : Tensor N N ET}
    (documents : Documents zero rec.rows M) :
    (∀ row ∈ rec.items, row.size = 1) ∨ (rec.rows = M.rows ∧ rec.first.size = N) := by
  refine documents.lengths.imp (fun all row member => ?_) fun ⟨same, all⟩ => ⟨same, ?_⟩
  · exact all _ (List.mem_map_of_mem member)
  · exact all _ (List.mem_map_of_mem rec.first_mem_items)

theorem documents_scalar (zero : ET) (one : rec.size = 1) (single : rec.first.size = 1) :
    Documents zero rec.rows (scalarTensor zero rec.first.first : Tensor N N ET) := by
  obtain ⟨items, nonempty⟩ := rec
  obtain ⟨⟨row, filled⟩, rfl⟩ := List.length_eq_one_iff.mp one
  obtain ⟨value, rfl⟩ := List.length_eq_one_iff.mp single
  rw [scalarTensor_eq]
  exact .scalar value

theorem documents_diagonal (zero : ET) (size : rec.size = N)
    (single : ∀ row ∈ rec.items, row.size = 1) :
    Documents zero rec.rows (diagonalTensor zero rec : Tensor N N ET) := by
  obtain ⟨entries, outside⟩ := diagonalTensor_spec zero rec size
  have tensor : (diagonalTensor zero rec : Tensor N N ET) =
      fun i j => if i = j then diagonalTensor zero rec i i else zero := by
    funext i j
    by_cases same : i = j
    · rw [if_pos same, same]
    · rw [if_neg same, outside i j same]
  rw [rows_eq_heads single, ← entries, ← List.ofFn_eq_map, tensor]
  have documents : Documents zero _ _ :=
    Documents.diagonal fun i : Fin N => diagonalTensor zero rec i i
  simpa using documents

theorem documents_symmetric (zero : ET) (value : Tensor N N ET)
    (size : rec.size = (N + 1) * N / 2) (single : ∀ row ∈ rec.items, row.size = 1) :
    Documents zero rec.rows (symmetricTensor value rec) := by
  obtain ⟨entries, symmetric⟩ := symmetricTensor_spec value rec size
  rw [rows_eq_heads single, ← entries]
  exact .symmetric _ symmetric

end TensorInput

/-- The numbers of rows that are refused. -/
def Refused (N : ℕ) (rec : TensorInput ET) : Prop :=
  rec.size ≠ 1 ∧ rec.size ≠ N ∧ rec.size ≠ (N + 1) * N / 2

/-- The first row has one value, and either the number of rows is refused or all rows have one
value. -/
def OneValueRows (N : ℕ) (rec : TensorInput ET) : Prop :=
  rec.first.size = 1 ∧ (Refused N rec ∨ ∀ row ∈ rec.items, row.size = 1)

section Square

variable {zero : ET} {rec : TensorInput ET}

theorem initFromInput_square (previous : Tensor N N ET) :
    initFromInput zero previous rec = initSquareTensor zero previous rec :=
  dif_pos rfl

/-- What happens when the first row has one value. -/
theorem initSquareTensor_cases (previous : Tensor N N ET) (single : rec.first.size = 1) :
    (Refused N rec ∧ ∃ e, initSquareTensor zero previous rec = .error e) ∨
      (¬ Refused N rec ∧ ∃ M, initSquareTensor zero previous rec = .ok M ∧
        ((∀ row ∈ rec.items, row.size = 1) → Documents zero rec.rows M)) := by
  unfold initSquareTensor
  rw [if_pos single]
  by_cases one : rec.size = 1
  · rw [if_pos one]
    exact .inr ⟨fun refused => refused.1 one, _, rfl, fun _ => rec.documents_scalar zero one single⟩
  · rw [if_neg one]
    by_cases diagonal : rec.size = N
    · rw [if_pos diagonal]
      exact .inr ⟨fun refused => refused.2.1 diagonal, _, rfl, rec.documents_diagonal zero diagonal⟩
    · rw [if_neg diagonal]
      by_cases symmetric : rec.size = (N + 1) * N / 2
      · rw [if_pos symmetric]
        exact .inr ⟨fun refused => refused.2.2 symmetric, _, rfl,
          rec.documents_symmetric zero previous symmetric⟩
      · rw [if_neg symmetric]
        exact .inl ⟨⟨one, diagonal, symmetric⟩, _, rfl⟩

theorem initCorrect_of_single (previous : Tensor N N ET) (dimension : 2 ≤ N)
    (single : rec.first.size = 1) :
    InitCorrect zero rec (initSquareTensor zero previous rec) ↔
      Refused N rec ∨ ∀ row ∈ rec.items, row.size = 1 := by
  have handled : (Refused N rec ∧ ∃ e, initSquareTensor zero previous rec = .error e) ∨ _ :=
    initSquareTensor_cases previous single
  obtain ⟨refused, e, outcome⟩ | ⟨taken, M, outcome, documented⟩ := handled
  · rw [outcome]
    exact iff_of_true trivial (.inl refused)
  · rw [outcome]
    constructor
    · intro documents
      obtain all | ⟨_, size⟩ := rec.first_size_of_documents documents
      · exact .inr all
      · omega
    · rintro (refused | all)
      · exact absurd refused taken
      · exact documented all

/-- A value that is left alone is not what the input stands for, except by chance. -/
theorem not_initCorrect_of_unset [Nontrivial ET] (dimension : 2 ≤ N)
    (several : rec.first.size ≠ 1) :
    ¬ ∀ previous : Tensor N N ET, InitCorrect zero rec (initSquareTensor zero previous rec) := by
  intro all
  have unset : ∀ previous : Tensor N N ET, rec.rows = previous.rows := by
    intro previous
    have correct := all previous
    unfold initSquareTensor at correct
    rw [if_neg several] at correct
    obtain single | ⟨same, _⟩ := rec.first_size_of_documents correct
    · exact absurd (single _ rec.first_mem_items) several
    · exact same
  obtain ⟨a, b, different⟩ := exists_pair_ne ET
  have same := Tensor.rows_injective ((unset fun _ _ => a).symm.trans (unset fun _ _ => b))
  exact different (congrFun (congrFun same ⟨0, by omega⟩) ⟨0, by omega⟩)

end Square

/-- The input of a square tensor is taken over or refused if and only if it has one value in each
row, apart from numbers of rows that are refused anyway. -/
theorem initFromInput_correct_iff [Nontrivial ET] (zero : ET) (rec : TensorInput ET)
    (dimension : 2 ≤ N) :
    (∀ previous : Tensor N N ET, InitCorrect zero rec (initFromInput zero previous rec)) ↔
      OneValueRows N rec := by
  simp only [initFromInput_square, OneValueRows]
  by_cases single : rec.first.size = 1
  · simp only [initCorrect_of_single _ dimension single, single, true_and]
    exact ⟨fun all => all (zeros zero), fun condition _ => condition⟩
  · exact iff_of_false (not_initCorrect_of_unset dimension single) fun condition =>
      single condition.1

/-- The input `[[1, 2], [3, 4]]`. -/
def fullInput : TensorInput ℚ :=
  ⟨[⟨[1, 2], List.cons_ne_nil _ _⟩, ⟨[3, 4], List.cons_ne_nil _ _⟩], List.cons_ne_nil _ _⟩

def diagonalInput : TensorInput ℚ :=
  ⟨[⟨[1], List.cons_ne_nil _ _⟩, ⟨[2], List.cons_ne_nil _ _⟩], List.cons_ne_nil _ _⟩

theorem initFromInput_correct_iff_diagonal :
    InitCorrect 0 diagonalInput (initFromInput 0 (zeros 0 : Tensor 2 2 ℚ) diagonalInput) :=
  (initFromInput_correct_iff 0 diagonalInput le_rfl).mpr
    ⟨rfl, .inr (by simp [diagonalInput, InputArray.size])⟩ _

theorem not_always_initCorrect :
    ¬ ∀ previous : Tensor 2 2 ℚ, InitCorrect 0 fullInput (initFromInput 0 previous fullInput) := by
  simp only [initFromInput_square]
  exact not_initCorrect_of_unset le_rfl (by decide)

end Flow123d.Fields
