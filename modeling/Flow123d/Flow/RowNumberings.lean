import Flow123d.Library.Fold
import Flow123d.Mesh.Partitioning
import Mathlib.Data.List.Perm.Subperm
import Mathlib.Order.Interval.Set.Basic

/-!
# Numbering of the rows

`DarcyFlowMH_Steady::make_row_numberings`. The numberings of sides, elements and edges, each with
a distribution of its own, are shifted so that the rows of a processor follow one another. The
rows fit into integers, as the indices of the matrix do.
-/

set_option autoImplicit false

namespace Flow123d

open Flow123d.Library

namespace DarcyFlowMHSteady

/-- The numberings that `prepare_parallel` has made: each goes over the indices of its
distribution, and all distributions are over the same processors. -/
structure Renumbering where
  side_ds : Distribution
  el_ds : Distribution
  edge_ds : Distribution
  side_row_4_id : List ℤ
  row_4_el : List ℤ
  row_4_edge : List ℤ
  sideProcs : side_ds.np = edge_ds.np
  elProcs : el_ds.np = edge_ds.np
  sides : side_row_4_id.Perm ((List.range side_ds.size).map (↑))
  elements : row_4_el.Perm ((List.range el_ds.size).map (↑))
  edges : row_4_edge.Perm ((List.range edge_ds.size).map (↑))

structure RowShifts where
  shift : ℕ
  side_shift : ℕ → ℤ
  el_shift : ℕ → ℤ
  edge_shift : ℕ → ℤ
  rows_starts : ℕ → ℕ

structure RowNumbering where
  side_row_4_id : List ℤ
  row_4_el : List ℤ
  row_4_edge : List ℤ
  rows_ds : Distribution

/-- One turn of the loop over the processors. -/
def shiftStep (side_ds el_ds edge_ds : Distribution) (shifts : RowShifts) (i : ℕ) : RowShifts :=
  let afterSides := shifts.shift + side_ds.lsize i
  let afterElements := afterSides + el_ds.lsize i
  let afterEdges := afterElements + edge_ds.lsize i
  { shift := afterEdges
    side_shift := Function.update shifts.side_shift i ((shifts.shift : ℤ) - side_ds.begin_ i)
    el_shift := Function.update shifts.el_shift i ((afterSides : ℤ) - el_ds.begin_ i)
    edge_shift := Function.update shifts.edge_shift i ((afterElements : ℤ) - edge_ds.begin_ i)
    rows_starts := Function.update shifts.rows_starts i afterEdges }

def rowShifts (side_ds el_ds edge_ds : Distribution) (np : ℕ) : RowShifts :=
  (List.range np).foldl (shiftStep side_ds el_ds edge_ds)
    ⟨0, fun _ => 0, fun _ => 0, fun _ => 0, fun _ => 0⟩

/-- There is no shift for the processor `-1` that an index without an owner has. -/
def applyShift (distr : Distribution) (shift : ℕ → ℤ) (what : ℤ) : Option ℤ :=
  if 0 ≤ what then (distr.getProc what.toNat).map fun proc => what + shift proc else some what

/-- The loop from the last processor down to the second. -/
def localSizes (np : ℕ) (rows_starts : ℕ → ℕ) : ℕ → ℕ :=
  (List.range' 1 (np - 1)).reverse.foldl
    (fun starts i => Function.update starts i (starts i - starts (i - 1))) rows_starts

def makeRowNumberings (numbering : Renumbering) : Option RowNumbering := do
  let np := numbering.edge_ds.np
  let shifts := rowShifts numbering.side_ds numbering.el_ds numbering.edge_ds np
  let side_row_4_id ←
    numbering.side_row_4_id.mapM (applyShift numbering.side_ds shifts.side_shift)
  let row_4_el ← numbering.row_4_el.mapM (applyShift numbering.el_ds shifts.el_shift)
  let row_4_edge ← numbering.row_4_edge.mapM (applyShift numbering.edge_ds shifts.edge_shift)
  return ⟨side_row_4_id, row_4_el, row_4_edge, .ofSizes np (localSizes np shifts.rows_starts)⟩

/-- The rows of the objects that a processor owns. -/
def rowsOn (distr : Distribution) (numbers rows : List ℤ) (proc : ℕ) : Set ℤ :=
  {row | ∃ i what : ℕ, numbers[i]? = some (what : ℤ) ∧ distr.isOnProc what proc = true ∧
    rows[i]? = some row}

/-- All objects together have all rows once, and the objects of a processor have its block. -/
structure NumbersRows (numbering : Renumbering) (result : RowNumbering) : Prop where
  np : result.rows_ds.np = numbering.edge_ds.np
  size : result.rows_ds.size =
    numbering.side_ds.size + numbering.el_ds.size + numbering.edge_ds.size
  sides : result.side_row_4_id.length = numbering.side_row_4_id.length
  elements : result.row_4_el.length = numbering.row_4_el.length
  edges : result.row_4_edge.length = numbering.row_4_edge.length
  bijective : (result.side_row_4_id ++ result.row_4_el ++ result.row_4_edge).Perm
    ((List.range result.rows_ds.size).map (↑))
  block : ∀ proc < result.rows_ds.np,
    rowsOn numbering.side_ds numbering.side_row_4_id result.side_row_4_id proc ∪
      rowsOn numbering.el_ds numbering.row_4_el result.row_4_el proc ∪
      rowsOn numbering.edge_ds numbering.row_4_edge result.row_4_edge proc =
    Set.Ico (result.rows_ds.begin_ proc : ℤ) (result.rows_ds.end_ proc)

/-! ## The shifts -/

section Shifts

variable (side_ds el_ds edge_ds : Distribution)

/-- Where the rows of a processor start. -/
def blockStart (proc : ℕ) : ℕ := side_ds.starts proc + el_ds.starts proc + edge_ds.starts proc

/-- The shifts of the processors before the given one. -/
structure Shifted (np : ℕ) (shifts : RowShifts) : Prop where
  shift : shifts.shift = blockStart side_ds el_ds edge_ds np
  side : ∀ i < np, shifts.side_shift i = el_ds.starts i + edge_ds.starts i
  el : ∀ i < np, shifts.el_shift i = side_ds.starts (i + 1) + edge_ds.starts i
  edge : ∀ i < np, shifts.edge_shift i = side_ds.starts (i + 1) + el_ds.starts (i + 1)
  rows : ∀ i < np, shifts.rows_starts i = blockStart side_ds el_ds edge_ds (i + 1)

variable {side_ds el_ds edge_ds}

theorem Shifted.step {i : ℕ} {shifts : RowShifts}
    (shifted : Shifted side_ds el_ds edge_ds i shifts)
    (side : i < side_ds.np) (el : i < el_ds.np) (edge : i < edge_ds.np) :
    Shifted side_ds el_ds edge_ds (i + 1) (shiftStep side_ds el_ds edge_ds shifts i) := by
  have sideLe := side_ds.startsLe i side
  have elLe := el_ds.startsLe i el
  have edgeLe := edge_ds.startsLe i edge
  have start := shifted.shift
  unfold blockStart at start
  constructor
  · simp only [shiftStep, Distribution.lsize, Distribution.begin_, Distribution.end_, blockStart]
    omega
  all_goals
    intro j below
    simp only [shiftStep, Distribution.lsize, Distribution.begin_, Distribution.end_]
    rcases Nat.lt_succ_iff_lt_or_eq.mp below with before | rfl
  · rw [Function.update_of_ne before.ne, shifted.side j before]
  · rw [Function.update_self]
    omega
  · rw [Function.update_of_ne before.ne, shifted.el j before]
  · rw [Function.update_self]
    omega
  · rw [Function.update_of_ne before.ne, shifted.edge j before]
  · rw [Function.update_self]
    omega
  · rw [Function.update_of_ne before.ne, shifted.rows j before]
  · rw [Function.update_self, blockStart]
    omega

theorem row_shifts_shifted {np : ℕ} (side : np ≤ side_ds.np) (el : np ≤ el_ds.np)
    (edge : np ≤ edge_ds.np) :
    Shifted side_ds el_ds edge_ds np (rowShifts side_ds el_ds edge_ds np) := by
  induction np with
  | zero =>
      constructor
      · simp [rowShifts, blockStart, Distribution.startsZero]
      all_goals exact fun i below => absurd below (Nat.not_lt_zero i)
  | succ np ih =>
      unfold rowShifts
      rw [List.range_succ, List.foldl_append]
      exact (ih (by omega) (by omega) (by omega)).step side el edge

theorem foldl_differences (n : ℕ) (starts : ℕ → ℕ) (i : ℕ) :
    (List.range' 1 n).reverse.foldl
      (fun starts i => Function.update starts i (starts i - starts (i - 1))) starts i =
        if 1 ≤ i ∧ i ≤ n then starts i - starts (i - 1) else starts i := by
  induction n generalizing starts with
  | zero => rw [if_neg (by omega)]; rfl
  | succ n ih =>
      rw [List.range'_1_concat, List.reverse_append, List.reverse_singleton,
        List.singleton_append, List.foldl_cons, ih]
      by_cases last : i = 1 + n
      · subst last
        rw [if_neg (by omega), if_pos (by omega), Function.update_self]
      · rw [Function.update_of_ne last]
        by_cases inside : 1 ≤ i ∧ i ≤ n
        · rw [if_pos inside, if_pos (by omega), Function.update_of_ne (by omega)]
        · rw [if_neg inside, if_neg (by omega)]

/-- The distribution made from the sizes starts where the rows of the processors start. -/
theorem starts_localSizes {np : ℕ} {shifts : RowShifts}
    (shifted : Shifted side_ds el_ds edge_ds np shifts)
    (side : np ≤ side_ds.np) (el : np ≤ el_ds.np) (edge : np ≤ edge_ds.np) {proc : ℕ}
    (bound : proc ≤ np) :
    (Distribution.ofSizes np (localSizes np shifts.rows_starts)).starts proc =
      blockStart side_ds el_ds edge_ds proc := by
  change ∑ i ∈ Finset.range proc, localSizes np shifts.rows_starts i = _
  induction proc with
  | zero => simp [blockStart, Distribution.startsZero]
  | succ proc ih =>
      have sideLe := side_ds.startsLe proc (by omega)
      have elLe := el_ds.startsLe proc (by omega)
      have edgeLe := edge_ds.startsLe proc (by omega)
      rw [Finset.sum_range_succ, ih (by omega), localSizes, foldl_differences,
        shifted.rows proc bound]
      cases proc with
      | zero => simp [blockStart, Distribution.startsZero]
      | succ proc =>
          rw [if_pos (by omega), Nat.add_sub_cancel, shifted.rows proc (by omega)]
          unfold blockStart
          omega

end Shifts

/-! ## The rows -/

section Rows

variable {distr : Distribution} {shift : ℕ → ℤ} {numbers rows : List ℤ}

theorem exists_applyShift (shift : ℕ → ℤ) {what : ℕ} (bound : what < distr.size) :
    ∃ proc < distr.np, distr.isOnProc what proc = true ∧
      applyShift distr shift what = some (what + shift proc) := by
  obtain ⟨proc, found⟩ := Option.isSome_iff_exists.mp (distr.get_proc_isSome bound)
  obtain ⟨below, owner⟩ := Distribution.get_proc_eq_some.mp found
  refine ⟨proc, below, Distribution.is_on_proc_iff.mpr owner, ?_⟩
  simp [applyShift, found]

theorem applyShift_of_owner {what proc : ℕ} (below : proc < distr.np)
    (owner : distr.isOnProc what proc = true) :
    applyShift distr shift what = some (what + shift proc) := by
  have found := Distribution.get_proc_eq_some.mpr ⟨below, Distribution.is_on_proc_iff.mp owner⟩
  simp [applyShift, found]

theorem exists_mapM_applyShift (shift : ℕ → ℤ)
    (permuted : numbers.Perm ((List.range distr.size).map (↑))) :
    ∃ rows, numbers.mapM (applyShift distr shift) = some rows := by
  refine exists_mapM _ _ fun what member => ?_
  obtain ⟨old, inRange, rfl⟩ := List.mem_map.mp (permuted.mem_iff.mp member)
  obtain ⟨proc, -, -, shifted⟩ := exists_applyShift shift (List.mem_range.mp inRange)
  exact Option.isSome_iff_exists.mpr ⟨_, shifted⟩

/-- The rows of a processor are the shifted numbers of its block. -/
theorem rowsOn_eq (ran : numbers.mapM (applyShift distr shift) = some rows)
    (permuted : numbers.Perm ((List.range distr.size).map (↑))) {proc : ℕ}
    (below : proc < distr.np) :
    rowsOn distr numbers rows proc =
      Set.Ico ((distr.starts proc : ℤ) + shift proc) (distr.starts (proc + 1) + shift proc) := by
  ext row
  constructor
  · rintro ⟨i, what, numbered, owner, lookup⟩
    rw [getElem?_mapM ran, numbered, Option.bind_some, applyShift_of_owner below owner] at lookup
    cases lookup
    have block := Distribution.is_on_proc_iff.mp owner
    constructor <;> omega
  · rintro ⟨after, before⟩
    obtain ⟨what, same⟩ : ∃ what : ℕ, (what : ℤ) = row - shift proc :=
      ⟨(row - shift proc).toNat, by omega⟩
    have owner : distr.isOnProc what proc = true :=
      Distribution.is_on_proc_iff.mpr (by constructor <;> omega)
    have bound : what < distr.size :=
      (Distribution.is_on_proc_iff.mp owner).2.trans_le (distr.starts_mono below le_rfl)
    have member : (what : ℤ) ∈ numbers :=
      permuted.mem_iff.mpr (List.mem_map_of_mem (List.mem_range.mpr bound))
    obtain ⟨i, numbered⟩ := List.mem_iff_getElem?.mp member
    refine ⟨i, what, numbered, owner, ?_⟩
    rw [getElem?_mapM ran, numbered, Option.bind_some, applyShift_of_owner below owner]
    exact congrArg some (by omega)

theorem mem_of_rowsOn {row : ℤ} {proc : ℕ} (member : row ∈ rowsOn distr numbers rows proc) :
    row ∈ rows := by
  obtain ⟨i, what, -, -, lookup⟩ := member
  exact List.mem_of_getElem? lookup

end Rows

/-- A list that has all of the first numbers and is as long as they are has each once. -/
theorem perm_range_of_mem {rows : List ℤ} {size : ℕ} (length : rows.length = size)
    (all : ∀ row : ℕ, row < size → (row : ℤ) ∈ rows) :
    rows.Perm ((List.range size).map (↑)) := by
  have distinct : ((List.range size).map ((↑) : ℕ → ℤ)).Nodup :=
    List.nodup_range.map fun _ _ same => Int.ofNat.inj same
  refine (distinct.subperm ?_).perm_of_length_le (by simp [length]) |>.symm
  intro row member
  obtain ⟨number, inRange, rfl⟩ := List.mem_map.mp member
  exact all number (List.mem_range.mp inRange)

section Blocks

variable {numbering : Renumbering} {shifts : RowShifts} {sides elements edges : List ℤ}
  (shifted : Shifted numbering.side_ds numbering.el_ds numbering.edge_ds numbering.edge_ds.np
    shifts)
  (sideRan : numbering.side_row_4_id.mapM (applyShift numbering.side_ds shifts.side_shift) =
    some sides)
  (elRan : numbering.row_4_el.mapM (applyShift numbering.el_ds shifts.el_shift) = some elements)
  (edgeRan : numbering.row_4_edge.mapM (applyShift numbering.edge_ds shifts.edge_shift) =
    some edges)

include shifted sideRan elRan edgeRan

/-- In the block of a processor come its sides, then its elements, then its edges. -/
theorem rowsOn_block {proc : ℕ} (below : proc < numbering.edge_ds.np) :
    rowsOn numbering.side_ds numbering.side_row_4_id sides proc ∪
      rowsOn numbering.el_ds numbering.row_4_el elements proc ∪
      rowsOn numbering.edge_ds numbering.row_4_edge edges proc =
    Set.Ico (blockStart numbering.side_ds numbering.el_ds numbering.edge_ds proc : ℤ)
      (blockStart numbering.side_ds numbering.el_ds numbering.edge_ds (proc + 1)) := by
  have side := numbering.side_ds.startsLe proc (below.trans_le numbering.sideProcs.ge)
  have el := numbering.el_ds.startsLe proc (below.trans_le numbering.elProcs.ge)
  have edge := numbering.edge_ds.startsLe proc below
  rw [rowsOn_eq sideRan numbering.sides (below.trans_le numbering.sideProcs.ge),
    rowsOn_eq elRan numbering.elements (below.trans_le numbering.elProcs.ge),
    rowsOn_eq edgeRan numbering.edges below, shifted.side proc below, shifted.el proc below,
    shifted.edge proc below]
  ext row
  simp only [Set.mem_union, Set.mem_Ico, blockStart]
  omega

theorem rows_perm {rows_ds : Distribution} (np : rows_ds.np = numbering.edge_ds.np)
    (starts : ∀ proc ≤ numbering.edge_ds.np, rows_ds.starts proc =
      blockStart numbering.side_ds numbering.el_ds numbering.edge_ds proc)
    (size : rows_ds.size =
      numbering.side_ds.size + numbering.el_ds.size + numbering.edge_ds.size) :
    (sides ++ elements ++ edges).Perm ((List.range rows_ds.size).map (↑)) := by
  refine perm_range_of_mem ?_ fun row bound => ?_
  · have sideCount := numbering.sides.length_eq
    have elCount := numbering.elements.length_eq
    have edgeCount := numbering.edges.length_eq
    simp only [List.length_map, List.length_range] at sideCount elCount edgeCount
    rw [List.length_append, List.length_append, length_mapM sideRan, length_mapM elRan,
      length_mapM edgeRan, size, sideCount, elCount, edgeCount]
  · obtain ⟨proc, found⟩ := Option.isSome_iff_exists.mp (rows_ds.get_proc_isSome bound)
    obtain ⟨below, after, before⟩ := Distribution.get_proc_eq_some.mp found
    rw [np] at below
    rw [starts proc below.le] at after
    rw [starts (proc + 1) below] at before
    have inside : (row : ℤ) ∈ Set.Ico
        (blockStart numbering.side_ds numbering.el_ds numbering.edge_ds proc : ℤ)
        (blockStart numbering.side_ds numbering.el_ds numbering.edge_ds (proc + 1)) := by
      constructor <;> omega
    rw [← rowsOn_block shifted sideRan elRan edgeRan below] at inside
    simp only [List.mem_append]
    rcases inside with (ofSide | ofElement) | ofEdge
    · exact .inl (.inl (mem_of_rowsOn ofSide))
    · exact .inl (.inr (mem_of_rowsOn ofElement))
    · exact .inr (mem_of_rowsOn ofEdge)

end Blocks

theorem make_row_numberings_numbers (numbering : Renumbering) :
    ∃ result, makeRowNumberings numbering = some result ∧ NumbersRows numbering result := by
  let np := numbering.edge_ds.np
  let shifts := rowShifts numbering.side_ds numbering.el_ds numbering.edge_ds np
  have shifted : Shifted numbering.side_ds numbering.el_ds numbering.edge_ds np shifts :=
    row_shifts_shifted numbering.sideProcs.ge numbering.elProcs.ge le_rfl
  obtain ⟨sides, sideRan⟩ := exists_mapM_applyShift shifts.side_shift
    numbering.sides
  obtain ⟨elements, elRan⟩ := exists_mapM_applyShift shifts.el_shift
    numbering.elements
  obtain ⟨edges, edgeRan⟩ := exists_mapM_applyShift shifts.edge_shift
    numbering.edges
  let rows_ds := Distribution.ofSizes np (localSizes np shifts.rows_starts)
  have starts : ∀ proc ≤ np, rows_ds.starts proc =
      blockStart numbering.side_ds numbering.el_ds numbering.edge_ds proc := fun proc bound =>
    starts_localSizes shifted numbering.sideProcs.ge numbering.elProcs.ge le_rfl bound
  have size : rows_ds.size =
      numbering.side_ds.size + numbering.el_ds.size + numbering.edge_ds.size := by
    rw [Distribution.size, Distribution.size, Distribution.size, numbering.sideProcs,
      numbering.elProcs]
    exact starts np le_rfl
  have ran : makeRowNumberings numbering = some ⟨sides, elements, edges, rows_ds⟩ := by
    change (numbering.side_row_4_id.mapM (applyShift numbering.side_ds shifts.side_shift)).bind _ =
      _
    rw [sideRan, Option.bind_some]
    change (numbering.row_4_el.mapM (applyShift numbering.el_ds shifts.el_shift)).bind _ = _
    rw [elRan, Option.bind_some]
    change (numbering.row_4_edge.mapM (applyShift numbering.edge_ds shifts.edge_shift)).bind _ =
      _
    rw [edgeRan]
    rfl
  refine ⟨_, ran, rfl, size, length_mapM sideRan, length_mapM elRan, length_mapM edgeRan,
    rows_perm shifted sideRan elRan edgeRan rfl starts size, fun proc below => ?_⟩
  rw [rowsOn_block shifted sideRan elRan edgeRan below, ← starts proc below.le,
    ← starts (proc + 1) below]
  rfl

end DarcyFlowMHSteady

end Flow123d
