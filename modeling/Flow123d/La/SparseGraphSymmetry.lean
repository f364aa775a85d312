import Flow123d.La.SparseGraphValid

/-!
# Check of symmetry

`SparseGraph::is_symmetric` on a finalized graph. With the result it returns the comparisons it
has made, each as a local vertex and a position in `adj`.
-/

set_option autoImplicit false

namespace Flow123d

open Flow123d.Library

/-- A check of all items that ends with the first one that fails. -/
def checkAll {α β : Type} (check : α → Option (Bool × List β)) :
    List α → Option (Bool × List β)
  | [] => some (true, [])
  | item :: items => do
      let (passed, compared) ← check item
      if passed then
        let (result, more) ← checkAll check items
        return (result, compared ++ more)
      else return (false, compared)

namespace SparseRows

/-- `Distribution::is_local` on processor `proc`. -/
def isLocal (distr : Distribution) (proc : ℕ) (col : ℤ) : Bool :=
  distr.begin_ proc ≤ col && col < distr.end_ proc

/-- The position where the loop over a row ends, and the positions it has compared. -/
def scanRow (csr : SparseRows) (row : ℤ) : ℕ → ℕ → Option (ℕ × List ℕ)
  | 0, col_pos => some (col_pos, [])
  | turns + 1, col_pos => do
      let entry ← csr.adj col_pos
      if entry = row then return (col_pos, [col_pos])
      else
        let (last, compared) ← scanRow csr row turns (col_pos + 1)
        return (last, col_pos :: compared)

/-- The comparison after the loop is made at the position where it has ended. -/
def checkColumn (csr : SparseRows) (row : ℤ) (loc_col : ℕ) :
    Option (Bool × List (ℕ × ℕ)) := do
  let start ← csr.rows loc_col
  let stop ← csr.rows (loc_col + 1)
  let (col_pos, compared) ← csr.scanRow row (stop - start) start
  let entry ← csr.adj col_pos
  return (entry = row, (compared ++ [col_pos]).map (Prod.mk loc_col))

def checkEntry (csr : SparseRows) (distr : Distribution) (proc : ℕ) (row : ℤ) (row_pos : ℕ) :
    Option (Bool × List (ℕ × ℕ)) := do
  let col ← csr.adj row_pos
  if isLocal distr proc col then csr.checkColumn row (col - distr.begin_ proc).toNat
  else return (true, [])

def checkRow (csr : SparseRows) (distr : Distribution) (proc : ℕ) (loc_row : ℕ) :
    Option (Bool × List (ℕ × ℕ)) := do
  let start ← csr.rows loc_row
  let stop ← csr.rows (loc_row + 1)
  checkAll (csr.checkEntry distr proc (loc_row + distr.begin_ proc))
    (List.range' start (stop - start))

def isSymmetric (csr : SparseRows) (distr : Distribution) (proc : ℕ) :
    Option (Bool × List (ℕ × ℕ)) :=
  checkAll (csr.checkRow distr proc) (List.range (distr.lsize proc))

/-- The position belongs to the row of the vertex. -/
def InRow (csr : SparseRows) (compared : ℕ × ℕ) : Prop :=
  ∃ start stop, csr.rows compared.1 = some start ∧ csr.rows (compared.1 + 1) = some stop ∧
    start ≤ compared.2 ∧ compared.2 < stop

/-- Each edge between local vertices has an edge back. -/
def SymmetricEdges (distr : Distribution) (proc : ℕ) (edges : List SparseGraph.Edge) : Prop :=
  ∀ edge ∈ edges, isLocal distr proc edge.to_ = true →
    ∃ back ∈ edges, back.from_ = edge.to_ ∧ back.to_ = edge.from_

/-- The check returns whether the edges are symmetric, and compares within the rows. -/
def ChecksSymmetry (csr : SparseRows) (distr : Distribution) (proc : ℕ)
    (edges : List SparseGraph.Edge) : Prop :=
  ∃ result compared, csr.isSymmetric distr proc = some (result, compared) ∧
    (result = true ↔ SymmetricEdges distr proc edges) ∧ ∀ place ∈ compared, csr.InRow place

/-! ## Loops -/

section Loops

variable {α β : Type} {check : α → Option (Bool × List β)} {items : List α} {compared : List β}

theorem checkAll_cons {item : α} {result : Bool}
    (ran : checkAll check (item :: items) = some (result, compared)) :
    (check item = some (false, compared) ∧ result = false) ∨
      ∃ first more, check item = some (true, first) ∧
        checkAll check items = some (result, more) ∧ compared = first ++ more := by
  obtain ⟨⟨passed, first⟩, checked, ran⟩ := Option.bind_eq_some_iff.mp ran
  cases passed with
  | false =>
      cases ran
      exact .inl ⟨checked, rfl⟩
  | true =>
      obtain ⟨⟨rest, more⟩, others, ran⟩ := Option.bind_eq_some_iff.mp ran
      cases ran
      exact .inr ⟨first, more, checked, others, rfl⟩

theorem checkAll_true (ran : checkAll check items = some (true, compared)) :
    ∀ item ∈ items, ∃ first, check item = some (true, first) := by
  induction items generalizing compared with
  | nil => exact fun _ member => by cases member
  | cons item items ih =>
      rcases checkAll_cons ran with ⟨-, absurd_⟩ | ⟨first, more, checked, others, -⟩
      · cases absurd_
      · intro other member
        rcases List.mem_cons.mp member with rfl | later
        · exact ⟨first, checked⟩
        · exact ih others other later

theorem checkAll_false (ran : checkAll check items = some (false, compared)) :
    ∃ item ∈ items, ∃ own, check item = some (false, own) ∧ own ⊆ compared := by
  induction items generalizing compared with
  | nil => cases ran
  | cons item items ih =>
      rcases checkAll_cons ran with ⟨checked, -⟩ | ⟨first, more, -, others, rfl⟩
      · exact ⟨item, List.mem_cons_self, compared, checked, List.Subset.refl _⟩
      · obtain ⟨other, member, own, checked, within⟩ := ih others
        exact ⟨other, List.mem_cons_of_mem _ member, own, checked,
          List.Subset.trans within (List.subset_append_right _ _)⟩

/-- When every item passes, so do all. -/
theorem exists_checkAll {valid : β → Prop} (each : ∀ item ∈ items, ∃ own,
      check item = some (true, own) ∧ ∀ place ∈ own, valid place) :
    ∃ compared, checkAll check items = some (true, compared) ∧
      ∀ place ∈ compared, valid place := by
  induction items with
  | nil => exact ⟨[], rfl, fun _ member => by cases member⟩
  | cons item items ih =>
      obtain ⟨own, checked, validOwn⟩ := each item List.mem_cons_self
      obtain ⟨rest, others, validRest⟩ :=
        ih fun other member => each other (List.mem_cons_of_mem _ member)
      refine ⟨own ++ rest, by rw [checkAll, checked]; simp [others], fun place member => ?_⟩
      exact (List.mem_append.mp member).elim (validOwn place) (validRest place)

end Loops

section Scan

variable {csr : SparseRows} {row : ℤ}

/-- The loop over a row ends at an equal entry, or behind the row. -/
theorem scanRow_last {turns col_pos last : ℕ} {compared : List ℕ}
    (ran : csr.scanRow row turns col_pos = some (last, compared)) :
    csr.adj last = some row ∨ last = col_pos + turns := by
  induction turns generalizing col_pos compared with
  | zero =>
      cases ran
      exact .inr rfl
  | succ turns ih =>
      obtain ⟨entry, read, ran⟩ := Option.bind_eq_some_iff.mp ran
      by_cases same : entry = row
      · rw [if_pos same] at ran
        cases ran
        exact .inl (same ▸ read)
      · rw [if_neg same] at ran
        obtain ⟨⟨end_, more⟩, rest, ran⟩ := Option.bind_eq_some_iff.mp ran
        cases ran
        rcases ih rest with found | behind
        · exact .inl found
        · exact .inr (by omega)

theorem exists_scanRow {turns col_pos : ℕ}
    (written : ∀ k, col_pos ≤ k → k < col_pos + turns → (csr.adj k).isSome)
    (found : ∃ k, col_pos ≤ k ∧ k < col_pos + turns ∧ csr.adj k = some row) :
    ∃ last compared, csr.scanRow row turns col_pos = some (last, compared) ∧
      csr.adj last = some row ∧
      ∀ k ∈ last :: compared, col_pos ≤ k ∧ k < col_pos + turns := by
  induction turns generalizing col_pos with
  | zero =>
      obtain ⟨k, after, before, -⟩ := found
      omega
  | succ turns ih =>
      obtain ⟨entry, read⟩ := Option.isSome_iff_exists.mp
        (written col_pos le_rfl (by omega))
      by_cases same : entry = row
      · refine ⟨col_pos, [col_pos], ?_, same ▸ read, ?_⟩
        · rw [scanRow, read]
          simp [same]
        · simp
      · obtain ⟨k, after, before, entryAt⟩ := found
        have later : k ≠ col_pos := by
          rintro rfl
          rw [read, Option.some.injEq] at entryAt
          exact same entryAt
        have next := @ih (col_pos + 1)
        obtain ⟨last, compared, ran, equal, within⟩ := next
          (fun k after before => written k (by omega) (by omega))
          ⟨k, by omega, by omega, entryAt⟩
        refine ⟨last, col_pos :: compared, ?_, equal, ?_⟩
        · rw [scanRow, read]
          simp [same, ran]
        · intro other member
          have cases_ : other = col_pos ∨ other ∈ last :: compared := by
            simp only [List.mem_cons] at member ⊢
            tauto
          rcases cases_ with rfl | inside
          · omega
          · have bounds := within other inside
            omega

end Scan

/-! ## Rows that are represented -/

section Represented

variable {csr : SparseRows} {distr : Distribution} {proc : ℕ} {edges : List SparseGraph.Edge}
  (represents : csr.Represents distr proc edges)

include represents

/-- A place of a row holds the target of an edge of the vertex. -/
theorem Represents.cell {v start stop k : ℕ} (less : v < distr.lsize proc)
    (startEq : csr.rows v = some start) (stopEq : csr.rows (v + 1) = some stop)
    (after : start ≤ k) (before : k < stop) :
    ∃ edge ∈ edges, edge.from_ = distr.begin_ proc + v ∧ csr.adj k = some edge.to_ := by
  obtain ⟨row, adj, -, -, sound, -⟩ := represents.targets v less start stop startEq stopEq
  have place := congrArg (fun cells => cells[k - start]?) adj
  simp only [slice, List.getElem?_map] at place
  rw [List.getElem?_range' (by omega), Option.map_some] at place
  obtain ⟨edge, lookup, value⟩ := Option.map_eq_some_iff.mp place.symm
  obtain ⟨inside, from_⟩ := sound edge (List.mem_of_getElem? lookup)
  have position : start + 1 * (k - start) = k := by omega
  exact ⟨edge, inside, from_, position ▸ value.symm⟩

/-- The target of each edge of a vertex is in a place of its row. -/
theorem Represents.exists_cell {v start stop : ℕ} (less : v < distr.lsize proc)
    (startEq : csr.rows v = some start) (stopEq : csr.rows (v + 1) = some stop)
    {edge : SparseGraph.Edge} (member : edge ∈ edges)
    (from_ : edge.from_ = distr.begin_ proc + v) :
    ∃ k, start ≤ k ∧ k < start + (stop - start) ∧ csr.adj k = some edge.to_ := by
  obtain ⟨row, adj, -, -, -, complete⟩ := represents.targets v less start stop startEq stopEq
  obtain ⟨kept, inRow, same⟩ := complete edge member from_
  obtain ⟨j, lookup⟩ := List.mem_iff_getElem?.mp inRow
  have place := congrArg (fun cells => cells[j]?) adj
  have bound : j < stop - start := by
    have lengths := congrArg List.length adj
    simp only [slice, List.length_map, List.length_range'] at lengths
    have inside := (List.getElem?_eq_some_iff.mp lookup).1
    omega
  simp only [slice, List.getElem?_map, lookup, Option.map_some] at place
  rw [List.getElem?_range' bound, Option.map_some, Option.some.injEq] at place
  exact ⟨start + 1 * j, by omega, by omega, by rw [place, same]⟩

/-- Where the edge back is there, the scan of its row finds it. -/
theorem Represents.checkColumn {edge back : SparseGraph.Edge}
    (local_ : isLocal distr proc edge.to_ = true) (member : back ∈ edges)
    (from_ : back.from_ = edge.to_) (to_ : back.to_ = edge.from_) :
    ∃ own, csr.checkColumn edge.from_ (edge.to_ - distr.begin_ proc).toNat = some (true, own) ∧
      ∀ place ∈ own, csr.InRow place := by
  unfold isLocal at local_
  simp only [Bool.and_eq_true, decide_eq_true_eq] at local_
  obtain ⟨loc_col, position⟩ : ∃ loc_col : ℕ, edge.to_ = distr.begin_ proc + loc_col :=
    ⟨(edge.to_ - distr.begin_ proc).toNat, by omega⟩
  have less : loc_col < distr.lsize proc := by
    unfold Distribution.lsize
    omega
  obtain ⟨start, startEq⟩ := Option.isSome_iff_exists.mp (represents.defined loc_col less.le)
  obtain ⟨stop, stopEq⟩ := Option.isSome_iff_exists.mp (represents.defined (loc_col + 1) less)
  have written : ∀ k, start ≤ k → k < start + (stop - start) → (csr.adj k).isSome := by
    intro k after before
    obtain ⟨other, -, -, read⟩ := represents.cell less startEq stopEq after (by omega)
    exact Option.isSome_iff_exists.mpr ⟨_, read⟩
  have found := represents.exists_cell less startEq stopEq member (from_.trans position)
  rw [to_] at found
  obtain ⟨last, compared, ran, equal, within⟩ := exists_scanRow written found
  have column : (edge.to_ - distr.begin_ proc).toNat = loc_col := by omega
  rw [column]
  refine ⟨(compared ++ [last]).map (Prod.mk loc_col), ?_, ?_⟩
  · simp [SparseRows.checkColumn, startEq, stopEq, ran, equal]
  · intro place inside
    obtain ⟨k, visited, rfl⟩ := List.mem_map.mp inside
    have bounds := within k (by
      simp only [List.mem_append, List.mem_cons, List.not_mem_nil, or_false] at visited ⊢
      exact visited.symm)
    exact ⟨start, stop, startEq, stopEq, by omega, by omega⟩

theorem Represents.checkEntry (symmetric : SymmetricEdges distr proc edges)
    {loc_row start stop k : ℕ} (less : loc_row < distr.lsize proc)
    (startEq : csr.rows loc_row = some start) (stopEq : csr.rows (loc_row + 1) = some stop)
    (after : start ≤ k) (before : k < stop) :
    ∃ own, csr.checkEntry distr proc (loc_row + distr.begin_ proc) k = some (true, own) ∧
      ∀ place ∈ own, csr.InRow place := by
  obtain ⟨edge, member, from_, read⟩ := represents.cell less startEq stopEq after before
  have row : (loc_row : ℤ) + distr.begin_ proc = edge.from_ := by omega
  unfold SparseRows.checkEntry
  rw [read, row]
  cases local_ : isLocal distr proc edge.to_ with
  | false => exact ⟨[], by simp [local_], fun _ inside => by cases inside⟩
  | true =>
      obtain ⟨back, backMember, backFrom, backTo⟩ := symmetric edge member local_
      obtain ⟨own, checked, within⟩ :=
        represents.checkColumn local_ backMember backFrom backTo
      exact ⟨own, by simpa [local_] using checked, within⟩

theorem Represents.isSymmetric (symmetric : SymmetricEdges distr proc edges) :
    ∃ compared, csr.isSymmetric distr proc = some (true, compared) ∧
      ∀ place ∈ compared, csr.InRow place := by
  refine exists_checkAll fun loc_row member => ?_
  have less := List.mem_range.mp member
  obtain ⟨start, startEq⟩ := Option.isSome_iff_exists.mp (represents.defined loc_row less.le)
  obtain ⟨stop, stopEq⟩ := Option.isSome_iff_exists.mp (represents.defined (loc_row + 1) less)
  unfold checkRow
  rw [startEq, stopEq]
  refine exists_checkAll fun k inRange => ?_
  obtain ⟨after, before⟩ := List.mem_range'_1.mp inRange
  exact represents.checkEntry symmetric less startEq stopEq after (by omega)

end Represented

/-! ## Failed checks -/

section Failed

variable {csr : SparseRows} {distr : Distribution} {proc : ℕ} {compared : List (ℕ × ℕ)}

/-- After an unsuccessful scan the comparison is made outside of the row. -/
theorem checkColumn_false {row : ℤ} {loc_col : ℕ}
    (failed : csr.checkColumn row loc_col = some (false, compared)) :
    ∃ place ∈ compared, ¬ csr.InRow place := by
  obtain ⟨start, startEq, failed⟩ := Option.bind_eq_some_iff.mp failed
  obtain ⟨stop, stopEq, failed⟩ := Option.bind_eq_some_iff.mp failed
  obtain ⟨⟨last, seen⟩, scanned, failed⟩ := Option.bind_eq_some_iff.mp failed
  obtain ⟨entry, read, failed⟩ := Option.bind_eq_some_iff.mp failed
  simp only [Option.pure_def, Option.some.injEq, Prod.mk.injEq, decide_eq_false_iff_not] at failed
  obtain ⟨different, rfl⟩ := failed
  refine ⟨(loc_col, last), List.mem_map_of_mem (by simp), ?_⟩
  rintro ⟨first, behind, firstEq, behindEq, after, before⟩
  rw [startEq, Option.some.injEq] at firstEq
  rw [stopEq, Option.some.injEq] at behindEq
  simp only at after before
  rcases scanRow_last scanned with found | ended
  · rw [read, Option.some.injEq] at found
    exact different found
  · omega

theorem isSymmetric_false (failed : csr.isSymmetric distr proc = some (false, compared)) :
    ∃ place ∈ compared, ¬ csr.InRow place := by
  obtain ⟨loc_row, -, ofRow, rowFailed, within⟩ := checkAll_false failed
  obtain ⟨start, -, rowFailed⟩ := Option.bind_eq_some_iff.mp rowFailed
  obtain ⟨stop, -, rowFailed⟩ := Option.bind_eq_some_iff.mp rowFailed
  obtain ⟨k, -, own, entryFailed, inside⟩ := checkAll_false rowFailed
  obtain ⟨col, -, entryFailed⟩ := Option.bind_eq_some_iff.mp entryFailed
  cases local_ : isLocal distr proc col with
  | false =>
      rw [local_] at entryFailed
      cases entryFailed
  | true =>
      rw [local_, if_pos rfl] at entryFailed
      obtain ⟨place, member, outside⟩ := checkColumn_false entryFailed
      exact ⟨place, within (inside member), outside⟩

/-- A successful check has read all rows and their places. -/
theorem isSymmetric_true (passed : csr.isSymmetric distr proc = some (true, compared)) {v : ℕ}
    (less : v < distr.lsize proc) : ∃ start stop, csr.rows v = some start ∧
      csr.rows (v + 1) = some stop ∧ ∀ k, start ≤ k → k < stop → (csr.adj k).isSome := by
  obtain ⟨ofRow, rowPassed⟩ := checkAll_true passed v (List.mem_range.mpr less)
  obtain ⟨start, startEq, rowPassed⟩ := Option.bind_eq_some_iff.mp rowPassed
  obtain ⟨stop, stopEq, rowPassed⟩ := Option.bind_eq_some_iff.mp rowPassed
  refine ⟨start, stop, startEq, stopEq, fun k after before => ?_⟩
  obtain ⟨own, entryPassed⟩ := checkAll_true rowPassed k
    (List.mem_range'_1.mpr ⟨after, by omega⟩)
  obtain ⟨col, read, -⟩ := Option.bind_eq_some_iff.mp entryPassed
  exact Option.isSome_iff_exists.mpr ⟨col, read⟩

end Failed

end SparseRows

namespace SparseGraph

/-! ## Cells that are not written -/

/-- What every turn keeps of the cells: duplicate edges leave cells at the end unwritten. -/
structure FillCells (seen : List Edge) (state : FillState) : Prop where
  bound : state.iAdj ≤ seen.length
  distinct : state.iAdj = seen.length → (seen.map Edge.pair).Nodup
  unwritten : ∀ k, state.iAdj ≤ k → state.adj k = none
  starts : ∀ v start, state.rows v = some start → start ≤ seen.length - 1

section Cells

variable {begin_ : ℕ} {edges seen remaining : List Edge} {edge : Edge} {state : FillState}

theorem fill_start_cells : FillCells [] fillStart where
  bound := le_rfl
  distinct := fun _ => List.nodup_nil
  unwritten := fun _ _ => rfl
  starts := by
    intro v start written
    have cell := (allocate_rows v).symm.trans written
    split_ifs at cell
    cases cell
    exact Nat.zero_le _

/-- An edge that is not skipped is not among those before it. -/
theorem FillInvariant.fresh (invariant : FillInvariant begin_ seen state)
    (valid : SortedLocal begin_ edges) (split : edges = seen ++ edge :: remaining)
    (accepted : state.lastEdge.less edge = true) : edge.pair ∉ seen.map Edge.pair := by
  intro repeated
  obtain ⟨other, member, same⟩ := List.mem_map.mp repeated
  cases last : seen.getLast? with
  | none =>
      rw [List.getLast?_eq_none_iff.mp last] at member
      cases member
  | some before =>
      have above : before.less other = true := by
        rw [← accepted]
        exact Edge.less_congr (invariant.last before last).1.symm same
      obtain ⟨front, rfl⟩ := List.getLast?_eq_some_iff.mp last
      have sorted := valid.sorted
      rw [split, List.pairwise_append, List.pairwise_append] at sorted
      rcases List.mem_append.mp member with earlier | final
      · rw [sorted.1.2.2 other earlier before List.mem_cons_self] at above
        cases above
      · rw [List.mem_singleton.mp final] at above
        have irreflexive : before.less before = false := Edge.not_less_iff.mpr (by omega)
        rw [irreflexive] at above
        cases above

theorem fill_step_cells (valid : SortedLocal begin_ edges)
    (split : edges = seen ++ edge :: remaining) (invariant : FillInvariant begin_ seen state)
    (cells : FillCells seen state) :
    FillCells (seen ++ [edge]) (fillStep begin_ state edge) := by
  have bound := cells.bound
  unfold fillStep
  cases accepted : state.lastEdge.less edge with
  | false =>
      simp only [Bool.not_false, if_true]
      constructor
      · simp only [List.length_append]
        omega
      · intro all
        simp only [List.length_append, List.length_singleton] at all
        omega
      · exact cells.unwritten
      · intro v start written
        have before := cells.starts v start written
        simp only [List.length_append]
        omega
  | true =>
      simp only [Bool.not_true, Bool.false_eq_true, if_false]
      constructor
      · simp only [List.length_append, List.length_singleton]
        omega
      · intro all
        simp only [List.length_append, List.length_singleton, Nat.add_right_cancel_iff] at all
        have fresh := invariant.fresh valid split accepted
        rw [List.map_append, List.map_singleton, List.nodup_append]
        refine ⟨cells.distinct all, List.nodup_singleton _, fun pair member other single => ?_⟩
        rintro rfl
        exact fresh (List.mem_singleton.mp single ▸ member)
      · intro k behind
        simp only at behind ⊢
        rw [Function.update_of_ne (by omega)]
        exact cells.unwritten k (by omega)
      · intro v start written
        simp only [fill_rows_eq] at written
        simp only [List.length_append, List.length_singleton]
        split_ifs at written
        · rw [invariant.position] at written
          cases written
          omega
        · have before := cells.starts v start written
          omega

theorem fill_loop_cells (valid : SortedLocal begin_ edges) :
    FillCells edges (edges.foldl (fillStep begin_) fillStart) :=
  (foldl_preserves edges (fillStep begin_) fillStart
    (fun seen state => FillInvariant begin_ seen state ∧ FillCells seen state)
    ⟨fill_start_invariant, fill_start_cells⟩ fun _ _ _ _ split both =>
      ⟨fill_step_invariant valid split both.1, fill_step_cells valid split both.1 both.2⟩).2

end Cells

section Check

variable {distr : Distribution} {proc : ℕ} {edges : List Edge}

/-- Where all rows and all their places are written there is no gap. -/
theorem noGap_of_written (received : Received distr proc edges)
    (written : ∀ v < distr.lsize proc, ∃ start stop,
      (compress (distr.begin_ proc) edges).rows v = some start ∧
      (compress (distr.begin_ proc) edges).rows (v + 1) = some stop ∧
      ∀ k, start ≤ k → k < stop → ((compress (distr.begin_ proc) edges).adj k).isSome) :
    NoGap distr proc edges := by
  cases final : edges.getLast? with
  | none =>
      have empty := List.getLast?_eq_none_iff.mp final
      subst empty
      refine ⟨List.nodup_nil, ?_⟩
      by_contra more
      push Not at more
      obtain ⟨start, stop, -, stopEq, -⟩ := written 0 (by omega)
      cases stopEq
  | some edge =>
      have member := List.mem_of_getLast? final
      have owned := received.owned edge member
      have positive : 0 < distr.lsize proc := by
        unfold Distribution.lsize
        omega
      obtain ⟨start, stop, startEq, stopEq, places⟩ := written (distr.lsize proc - 1) (by omega)
      rw [Nat.sub_add_cancel positive] at stopEq
      obtain ⟨isLast, rows⟩ := last_row_of_defined received final (by rw [stopEq]; rfl)
      rw [rows, Option.some.injEq] at stopEq
      have row := ((fill_loop_invariant received.sortedLocal).last edge final).2
      have cells := fill_loop_cells received.sortedLocal
      have nonempty := List.ne_nil_of_mem member
      have length := List.length_pos_of_mem member
      rw [compress_of_ne_nil nonempty] at startEq places
      simp only at startEq places
      rw [Function.update_of_ne (by omega)] at startEq
      have startLe := cells.starts _ start startEq
      have atEnd := places (edges.length - 1) startLe (by omega)
      constructor
      · refine cells.distinct (Nat.le_antisymm cells.bound ?_)
        by_contra short
        rw [cells.unwritten (edges.length - 1) (by omega)] at atEnd
        cases atEnd
      · refine .inr ⟨edge, member, ?_⟩
        unfold locFrom Distribution.lsize at isLast
        omega

theorem compress_checks_iff (received : Received distr proc edges) :
    (compress (distr.begin_ proc) edges).ChecksSymmetry distr proc edges ↔
      NoGap distr proc edges ∧ SparseRows.SymmetricEdges distr proc edges := by
  constructor
  · rintro ⟨result, compared, ran, right, within⟩
    cases result with
    | false =>
        obtain ⟨place, member, outside⟩ := SparseRows.isSymmetric_false ran
        exact absurd (within place member) outside
    | true =>
        exact ⟨noGap_of_written received fun v less => SparseRows.isSymmetric_true ran less,
          right.mp rfl⟩
  · rintro ⟨noGap, symmetric⟩
    have represents := (compress_represents_iff received).mpr noGap
    obtain ⟨compared, ran, within⟩ := represents.isSymmetric symmetric
    exact ⟨true, compared, ran, iff_of_true rfl symmetric, within⟩

end Check

theorem symmetricEdges_congr {distr : Distribution} {proc : ℕ} {edges others : List Edge}
    (perm : edges.Perm others) : SparseRows.SymmetricEdges distr proc edges ↔
      SparseRows.SymmetricEdges distr proc others := by
  unfold SparseRows.SymmetricEdges
  simp only [perm.mem_iff]

/-- The check is right and stays within the rows exactly for symmetric edges without gaps: where
an edge back is missing it looks behind the row. -/
theorem finalize_checks_iff (std : StdSort Edge.less) (distr : Distribution)
    (calls : ℕ → List (EdgeCall distr)) (proc : Fin distr.np) :
    (finalize std distr (fun sender => EdgeCall.run (calls sender)) proc).ChecksSymmetry
      distr proc (EdgeCall.localEdges calls proc) ↔
      NoGap distr proc (EdgeCall.localEdges calls proc) ∧
        SparseRows.SymmetricEdges distr proc (EdgeCall.localEdges calls proc) := by
  obtain ⟨edges, same, perm, received⟩ := exists_received std distr calls proc
  rw [same, ← noGap_congr perm, ← symmetricEdges_congr perm, ← compress_checks_iff received]
  unfold SparseRows.ChecksSymmetry
  rw [symmetricEdges_congr perm]

def threeVertices : Distribution where
  np := 1
  starts := fun proc => 3 * proc
  startsZero := rfl
  startsLe := by
    intro proc _
    omega

/-- Vertex 1 has no edge, and the row behind starts with 0. -/
def oneWayCalls (_ : ℕ) : List (EdgeCall threeVertices) :=
  [⟨⟨0, by decide⟩, 1, 1⟩, ⟨⟨0, by decide⟩, 2, 1⟩, ⟨⟨2, by decide⟩, 0, 1⟩]

/-- The edge from 0 to 1 is taken for symmetric, although there is none back. -/
theorem not_always_checksSymmetry :
    ¬ ∀ (std : StdSort Edge.less) (distr : Distribution)
      (calls : ℕ → List (EdgeCall distr)) (proc : Fin distr.np),
      (finalize std distr (fun sender => EdgeCall.run (calls sender)) proc).ChecksSymmetry
        distr proc (EdgeCall.localEdges calls proc) := by
  intro always
  obtain ⟨result, compared, ran, right, -⟩ :=
    always insertionSort threeVertices oneWayCalls ⟨0, by decide⟩
  have passed : ((finalize insertionSort threeVertices (fun sender =>
      EdgeCall.run (oneWayCalls sender)) 0).isSymmetric threeVertices 0).map Prod.fst =
        some true := by decide
  rw [ran] at passed
  have symmetric := right.mp (Option.some.inj passed)
  unfold SparseRows.SymmetricEdges at symmetric
  revert symmetric
  decide

end SparseGraph

end Flow123d
