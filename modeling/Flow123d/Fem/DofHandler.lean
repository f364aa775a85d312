import Flow123d.Library.Numberings
import Flow123d.Mesh.Element
import Flow123d.Mesh.Partitioning

/-!
# Degrees of freedom of a mesh

`DOFHandlerMultiDim::distribute_dofs` on all processes. Every access to the table of dof counts
and to the partition array is checked against its extent.
-/

set_option autoImplicit false

namespace Flow123d

open Flow123d.Library

/-- `Partitioning::PartitionTool`. -/
inductive PartitionTool where
  | petsc
  | metis

def Distribution.block (np globalSize : ℕ) : Distribution :=
  .ofSizes np fun i => globalSize / np + if i < globalSize % np then 1 else 0

def Distribution.localized (np globalSize : ℕ) : Distribution where
  np := np
  starts := fun proc => if proc = 0 then 0 else globalSize
  startsZero := rfl
  startsLe := fun proc _ => by split_ifs <;> simp_all

/-- The initial distribution that `make_partition` creates. -/
def Partitioning.initElDs (tool : PartitionTool) (np nElements : ℕ) : Distribution :=
  match tool with
  | .petsc => .block np nElements
  | .metis => .localized np nElements

def dofMultiplicities : List ℕ := [1, 2, 3, 6]

namespace DofHandlerMultiDim

/-- An access behind the end of an array. -/
inductive OutOfRange where
  | nObjDofs (elementDim faceDim : ℕ)
  | locPart (index : ℕ)

abbrev Table : Type := ℕ → ℕ → ℕ

/-- The table `n_obj_dofs` is declared with this many rows. -/
def tableRows : ℕ := 3

def writeEntry (rows : ℕ) (table : Table) (i j value : ℕ) : Except OutOfRange Table :=
  if i < rows ∧ j < 4 then .ok (Function.update table i (Function.update (table i) j value))
  else .error (.nObjDofs i j)

def readEntry (rows : ℕ) (table : Table) (i j : ℕ) : Except OutOfRange ℕ :=
  if i < rows ∧ j < 4 then .ok (table i j) else .error (.nObjDofs i j)

/-- The dofs of a finite element on one of its faces, from `n_object_dofs`. -/
def objDofs (nObjectDofs : ℕ → ℕ → ℕ) (dm : ℕ) : ℕ :=
  (dofMultiplicities.map fun multiplicity => nObjectDofs dm multiplicity * multiplicity).sum

/-- The loops over the finite elements of the dimensions 1, 2 and 3. -/
def fillTable (rows : ℕ) (fe : ℕ → ℕ → ℕ → ℕ) : Except OutOfRange Table :=
  [1, 2, 3].foldlM (fun table dim => (List.range (dim + 1)).foldlM
    (fun table dm => writeEntry rows table dim dm (objDofs (fe dim) dm)) table) fun _ _ => 0

/-- `MPI_Bcast` of the partition array of the process 0, which holds its local elements. -/
def bcastLocPart (initDistr : Distribution) (nElements : ℕ) (part : ℕ → ℕ) :
    Except OutOfRange (ℕ → ℕ) :=
  if initDistr.lsize 0 < nElements then .error (.locPart (initDistr.lsize 0)) else .ok part

structure State where
  dofs : Numbered ℕ
  loffset : ℕ
  lsize : ℕ

section Loops

variable (mesh : Mesh) (rows : ℕ) (table : Table) (myp : ℕ)

def dim (cell : ℕ) : ℕ := (mesh.element[cell]?).elim 0 Element.dim

def distributeCell (state : State) (cell : ℕ) : Except OutOfRange State := do
  let count ← readEntry rows table (dim mesh cell) (dim mesh cell)
  return { state with dofs := state.dofs.take (fun _ => count) cell }

/-- The elements that the partition gives to a process. -/
def cellsOf (part : ℕ → ℕ) (proc : ℕ) : List ℕ :=
  (List.range mesh.element.length).filter (part · = proc)

def distributeProc (locPart : ℕ → ℕ) (state : State) (proc : ℕ) : Except OutOfRange State := do
  let started := if proc = myp then { state with loffset := state.dofs.next } else state
  let done ← (cellsOf mesh locPart proc).foldlM (distributeCell mesh rows table) started
  return if proc = myp then { done with lsize := done.dofs.next - done.loffset } else done

end Loops

/-- What a process stores. -/
structure Result where
  objectDofs : ℕ → List ℕ
  loffset : ℕ
  lsize : ℕ
  nDofs : ℕ

/-- `distribute_dofs` on the process `myp`, with a table of so many rows. -/
def distributeDofs (rows : ℕ) (mesh : Mesh) (initDistr : Distribution) (part : ℕ → ℕ)
    (fe : ℕ → ℕ → ℕ → ℕ) (offset myp : ℕ) : Except OutOfRange Result := do
  let table ← fillTable rows fe
  let locPart ← bcastLocPart initDistr mesh.element.length part
  let final ← (List.range initDistr.np).foldlM
    (distributeProc mesh rows table myp locPart) ⟨⟨offset, fun _ => []⟩, 0, 0⟩
  return ⟨final.dofs.numbers, final.loffset, final.lsize, final.dofs.next - offset⟩

/-- The cell dofs of an element. -/
def cellCount (mesh : Mesh) (fe : ℕ → ℕ → ℕ → ℕ) (cell : ℕ) : ℕ :=
  objDofs (fe (dim mesh cell)) (dim mesh cell)

/-- The numberings that the processes store are one bijection, in blocks of the processes. -/
structure NumbersDofs (mesh : Mesh) (np : ℕ) (part : ℕ → ℕ) (fe : ℕ → ℕ → ℕ → ℕ) (offset : ℕ)
    (results : ℕ → Result) : Prop where
  sameNumbers : ∀ proc < np, (results proc).objectDofs = (results 0).objectDofs ∧
    (results proc).nDofs = (results 0).nDofs
  counted : ∀ cell < mesh.element.length,
    ((results 0).objectDofs cell).length = cellCount mesh fe cell
  injective : ∀ first < mesh.element.length, ∀ second < mesh.element.length, ∀ i j dof : ℕ,
    ((results 0).objectDofs first)[i]? = some dof → ((results 0).objectDofs second)[j]? = some dof →
      first = second ∧ i = j
  range : ∀ dof, (∃ cell < mesh.element.length, dof ∈ (results 0).objectDofs cell) ↔
    offset ≤ dof ∧ dof < offset + (results 0).nDofs
  block : ∀ proc < np, ∀ dof,
    (∃ cell < mesh.element.length, part cell = proc ∧ dof ∈ (results 0).objectDofs cell) ↔
      (results proc).loffset ≤ dof ∧ dof < (results proc).loffset + (results proc).lsize
  first : 0 < np → (results 0).loffset = offset
  consecutive : ∀ proc, proc + 1 < np →
    (results (proc + 1)).loffset = (results proc).loffset + (results proc).lsize

/-- All accesses are in range, and the dofs are numbered. -/
def DistributesDofs (rows : ℕ) (mesh : Mesh) (initDistr : Distribution) (part : ℕ → ℕ)
    (fe : ℕ → ℕ → ℕ → ℕ) (offset : ℕ) : Prop :=
  ∃ results : ℕ → Result,
    (∀ proc < initDistr.np,
      distributeDofs rows mesh initDistr part fe offset proc = .ok (results proc)) ∧
    NumbersDofs mesh initDistr.np part fe offset results

/-- The row of the tetrahedra lies behind the table. -/
theorem fillTable_tableRows (fe : ℕ → ℕ → ℕ → ℕ) :
    fillTable tableRows fe = .error (.nObjDofs 3 0) := rfl

theorem distributeDofs_tableRows (mesh : Mesh) (initDistr : Distribution) (part : ℕ → ℕ)
    (fe : ℕ → ℕ → ℕ → ℕ) (offset myp : ℕ) :
    distributeDofs tableRows mesh initDistr part fe offset myp = .error (.nObjDofs 3 0) := by
  rw [distributeDofs, fillTable_tableRows]
  rfl

/-- Whatever the input, the first count of the tetrahedra is written behind the table. -/
theorem not_distributesDofs (tool : PartitionTool) {np : ℕ} (positive : 0 < np) (mesh : Mesh)
    (part : ℕ → ℕ) (fe : ℕ → ℕ → ℕ → ℕ) (offset : ℕ) :
    ¬ DistributesDofs tableRows mesh (Partitioning.initElDs tool np mesh.element.length) part fe
      offset := by
  intro distributes
  obtain ⟨results, returned, -⟩ := distributes
  have first := returned 0 (by cases tool <;> exact positive)
  rw [distributeDofs_tableRows] at first
  cases first

def lineMesh : Mesh where
  nodeVector := [![0, 0, 0], ![1, 0, 0]]
  element := [⟨1, 1, ![0, 1], Element.line_dimLe⟩]
  bcElements := []
  bulkDim := Mesh.unitLine.bulkDim

theorem not_distributesDofs_lineMesh :
    ¬ DistributesDofs tableRows lineMesh (Partitioning.initElDs .metis 1 1) (fun _ => 0)
      (fun _ _ _ => 1) 0 :=
  not_distributesDofs .metis (by decide) lineMesh (fun _ => 0) (fun _ _ _ => 1) 0

/-- One line on one process: the numbering would need no count of the tetrahedra. -/
theorem not_always_distributesDofs :
    ¬ ∀ (tool : PartitionTool) (np : ℕ), 0 < np → ∀ (mesh : Mesh) (part : ℕ → ℕ),
      (∀ cell < mesh.element.length, part cell < np) →
        ∀ (fe : ℕ → ℕ → ℕ → ℕ) (offset : ℕ),
          DistributesDofs tableRows mesh (Partitioning.initElDs tool np mesh.element.length) part
            fe offset := by
  intro always
  obtain ⟨results, returned, -⟩ := always .metis 1 Nat.one_pos lineMesh (fun _ => 0)
    (fun _ _ => Nat.one_pos) (fun _ _ _ => 1) 0
  have first := returned 0 Nat.one_pos
  rw [distributeDofs_tableRows] at first
  cases first

/-! ## The numbering without the table -/

section FourRows

variable {mesh : Mesh} {fe : ℕ → ℕ → ℕ → ℕ} {part : ℕ → ℕ} {offset myp : ℕ}

theorem mem_cellsOf {proc cell : ℕ} :
    cell ∈ cellsOf mesh part proc ↔ cell < mesh.element.length ∧ part cell = proc := by
  rw [cellsOf, List.mem_filter, List.mem_range, decide_eq_true_iff]

theorem nodup_cellsOf (proc : ℕ) : (cellsOf mesh part proc).Nodup := List.nodup_range.filter _

/-- A table with one more row holds the cell dofs of every dimension. -/
theorem fillTable_four (fe : ℕ → ℕ → ℕ → ℕ) : ∃ table, fillTable 4 fe = .ok table ∧
    ∀ d, 0 < d → d ≤ 3 → readEntry 4 table d d = .ok (objDofs (fe d) d) := by
  refine ⟨_, rfl, fun d positive small => ?_⟩
  interval_cases d <;> rfl

theorem dim_bounds {cell : ℕ} (inside : cell < mesh.element.length) :
    0 < dim mesh cell ∧ dim mesh cell ≤ 3 := by
  have member := List.getElem_mem inside
  have element : dim mesh cell = mesh.element[cell].dim := by
    rw [dim, List.getElem?_eq_getElem inside]
    rfl
  rw [element]
  exact ⟨mesh.bulkDim _ member, mesh.element[cell].dimLe⟩

variable {table : Table} (filled : ∀ d, 0 < d → d ≤ 3 →
  readEntry 4 table d d = .ok (objDofs (fe d) d))

include filled

theorem foldlM_distributeCell {cells : List ℕ} (inside : ∀ cell ∈ cells,
    cell < mesh.element.length) (state : State) :
    cells.foldlM (distributeCell mesh 4 table) state =
      .ok { state with dofs := cells.foldl (Numbered.take (cellCount mesh fe)) state.dofs } := by
  induction cells generalizing state with
  | nil => rfl
  | cons cell cells ih =>
      obtain ⟨positive, small⟩ := dim_bounds (inside cell List.mem_cons_self)
      have step : distributeCell mesh 4 table state cell =
          .ok { state with dofs := state.dofs.take (cellCount mesh fe) cell } := by
        unfold distributeCell
        rw [filled _ positive small]
        rfl
      rw [List.foldlM_cons, step]
      exact ih (fun other member => inside other (List.mem_cons_of_mem _ member)) _

/-- The number of dofs of a process. -/
def total (mesh : Mesh) (fe : ℕ → ℕ → ℕ → ℕ) (part : ℕ → ℕ) (proc : ℕ) : ℕ :=
  ((cellsOf mesh part proc).map (cellCount mesh fe)).sum

/-- The dofs of the processes before one. -/
def totalBefore (mesh : Mesh) (fe : ℕ → ℕ → ℕ → ℕ) (part : ℕ → ℕ) (proc : ℕ) : ℕ :=
  ∑ other ∈ Finset.range proc, total mesh fe part other

/-- What holds after the processes before `count`. -/
structure Distributed (mesh : Mesh) (fe : ℕ → ℕ → ℕ → ℕ) (part : ℕ → ℕ) (offset myp count : ℕ)
    (state : State) : Prop where
  dofs : state.dofs = ((List.range count).flatMap (cellsOf mesh part)).foldl
    (Numbered.take (cellCount mesh fe)) ⟨offset, fun _ => []⟩
  next : state.dofs.next = offset + totalBefore mesh fe part count
  blocks : ∀ proc < count, (cellsOf mesh part proc).flatMap state.dofs.numbers =
    List.range' (offset + totalBefore mesh fe part proc) (total mesh fe part proc)
  lengths : ∀ cell < mesh.element.length, part cell < count →
    (state.dofs.numbers cell).length = cellCount mesh fe cell
  mine : myp < count → state.loffset = offset + totalBefore mesh fe part myp ∧
    state.lsize = total mesh fe part myp

theorem distributeProc_distributed {count : ℕ} {state : State}
    (distributed : Distributed mesh fe part offset myp count state) :
    ∃ next, distributeProc mesh 4 table myp part state count = .ok next ∧
      Distributed mesh fe part offset myp (count + 1) next := by
  let cells := cellsOf mesh part count
  let numbered := cells.foldl (Numbered.take (cellCount mesh fe)) state.dofs
  have inside : ∀ cell ∈ cells, cell < mesh.element.length :=
    fun cell member => (mem_cellsOf.mp member).1
  have later : totalBefore mesh fe part (count + 1) =
      totalBefore mesh fe part count + total mesh fe part count := Finset.sum_range_succ _ _
  have next : numbered.next = offset + totalBefore mesh fe part (count + 1) := by
    change (cells.foldl _ state.dofs).next = _
    rw [Numbered.foldl_take_next, distributed.next, later, Nat.add_assoc]
    rfl
  have kept : ∀ cell, part cell < count → numbered.numbers cell = state.dofs.numbers cell :=
    fun cell before => Numbered.foldl_take_of_notMem fun member =>
      before.ne (mem_cellsOf.mp member).2
  have dofs : numbered = ((List.range (count + 1)).flatMap (cellsOf mesh part)).foldl
      (Numbered.take (cellCount mesh fe)) ⟨offset, fun _ => []⟩ := by
    rw [List.range_succ, List.flatMap_append, List.foldl_append, ← distributed.dofs]
    simp [numbered, cells]
  have blocks : ∀ proc < count + 1, (cellsOf mesh part proc).flatMap numbered.numbers =
      List.range' (offset + totalBefore mesh fe part proc) (total mesh fe part proc) := by
    intro proc bound
    rcases Nat.lt_succ_iff_lt_or_eq.mp bound with before | rfl
    · rw [← distributed.blocks proc before]
      refine List.flatMap_congr fun cell member => kept cell ?_
      rw [(mem_cellsOf.mp member).2]
      exact before
    · rw [← distributed.next]
      exact Numbered.flatMap_foldl_take (nodup_cellsOf proc)
  have lengths : ∀ cell < mesh.element.length, part cell < count + 1 →
      (numbered.numbers cell).length = cellCount mesh fe cell := by
    intro cell inMesh bound
    rcases Nat.lt_succ_iff_lt_or_eq.mp bound with before | here
    · rw [kept cell before]
      exact distributed.lengths cell inMesh before
    · exact Numbered.length_foldl_take (nodup_cellsOf count) (mem_cellsOf.mpr ⟨inMesh, here⟩)
  by_cases own : count = myp
  · refine ⟨⟨numbered, state.dofs.next, numbered.next - state.dofs.next⟩, ?_,
      ⟨dofs, next, blocks, lengths, fun _ => ?_⟩⟩
    · unfold distributeProc
      simp only [own, if_true]
      rw [← own, foldlM_distributeCell filled inside]
      rfl
    · refine ⟨own ▸ distributed.next, ?_⟩
      change numbered.next - state.dofs.next = _
      rw [next, distributed.next, later, ← own]
      omega
  · refine ⟨{ state with dofs := numbered }, ?_, ⟨dofs, next, blocks, lengths, fun before => ?_⟩⟩
    · unfold distributeProc
      simp only [own, if_false]
      rw [foldlM_distributeCell filled inside]
      rfl
    · exact distributed.mine (by omega)

variable (mesh part offset myp) in
theorem foldlM_distributeProc (np : ℕ) :
    ∃ final, (List.range np).foldlM (distributeProc mesh 4 table myp part)
        ⟨⟨offset, fun _ => []⟩, 0, 0⟩ = .ok final ∧
      Distributed mesh fe part offset myp np final := by
  induction np with
  | zero =>
      refine ⟨_, rfl, ⟨rfl, rfl, ?_, ?_, ?_⟩⟩
      · intro proc before
        omega
      · intro cell _ before
        omega
      · intro before
        omega
  | succ np ih =>
      obtain ⟨state, ran, distributed⟩ := ih
      obtain ⟨next, stepped, further⟩ := distributeProc_distributed filled distributed
      refine ⟨next, ?_, further⟩
      rw [List.range_succ, List.foldlM_append, ran]
      change List.foldlM (distributeProc mesh 4 table myp part) state [np] = _
      rw [List.foldlM_cons, stepped]
      rfl

end FourRows

/-- What a process stores after all elements were numbered. -/
theorem exists_distributed {mesh : Mesh} {initDistr : Distribution}
    (whole : mesh.element.length ≤ initDistr.lsize 0) (part : ℕ → ℕ) (fe : ℕ → ℕ → ℕ → ℕ)
    (offset myp : ℕ) :
    ∃ final : State, Distributed mesh fe part offset myp initDistr.np final ∧
      distributeDofs 4 mesh initDistr part fe offset myp =
        .ok ⟨final.dofs.numbers, final.loffset, final.lsize, final.dofs.next - offset⟩ := by
  obtain ⟨table, isTable, filled⟩ := fillTable_four fe
  obtain ⟨final, ran, distributed⟩ :=
    foldlM_distributeProc mesh part offset myp filled initDistr.np
  refine ⟨final, distributed, ?_⟩
  have all : bcastLocPart initDistr mesh.element.length part = .ok part :=
    if_neg (Nat.not_lt.mpr whole)
  simp only [distributeDofs, isTable, all, ran, bind, Except.bind]
  rfl

theorem totalBefore_mono (mesh : Mesh) (fe : ℕ → ℕ → ℕ → ℕ) (part : ℕ → ℕ) {first second : ℕ}
    (le : first ≤ second) :
    totalBefore mesh fe part first ≤ totalBefore mesh fe part second := by
  induction second, le using Nat.le_induction with
  | base => exact le_rfl
  | succ second _ ih =>
      exact ih.trans ((Nat.le_add_right _ _).trans_eq (Finset.sum_range_succ _ _).symm)

theorem exists_block (mesh : Mesh) (fe : ℕ → ℕ → ℕ → ℕ) (part : ℕ → ℕ) {np dof : ℕ}
    (bound : dof < totalBefore mesh fe part np) : ∃ proc < np,
      totalBefore mesh fe part proc ≤ dof ∧
        dof < totalBefore mesh fe part proc + total mesh fe part proc := by
  induction np with
  | zero => simp [totalBefore] at bound
  | succ np ih =>
      by_cases before : dof < totalBefore mesh fe part np
      · obtain ⟨proc, less, within⟩ := ih before
        exact ⟨proc, by omega, within⟩
      · refine ⟨np, Nat.lt_succ_self np, Nat.not_lt.mp before, ?_⟩
        rwa [totalBefore, Finset.sum_range_succ] at bound

/-- With one more row in the table, the dofs are numbered whenever the process 0 holds the whole
partition array. -/
theorem distributesDofs_four {mesh : Mesh} {initDistr : Distribution} {part : ℕ → ℕ}
    (whole : mesh.element.length ≤ initDistr.lsize 0)
    (targets : ∀ cell < mesh.element.length, part cell < initDistr.np)
    (fe : ℕ → ℕ → ℕ → ℕ) (offset : ℕ) : DistributesDofs 4 mesh initDistr part fe offset := by
  choose final distributed returned using exists_distributed whole part fe offset
  have same : ∀ proc, (final proc).dofs = (final 0).dofs := fun proc =>
    (distributed proc).dofs.trans (distributed 0).dofs.symm
  have blocks := (distributed 0).blocks
  have inBlock : ∀ proc < initDistr.np, ∀ dof,
      (∃ cell < mesh.element.length, part cell = proc ∧ dof ∈ (final 0).dofs.numbers cell) ↔
        offset + totalBefore mesh fe part proc ≤ dof ∧
          dof < offset + totalBefore mesh fe part proc + total mesh fe part proc := by
    intro proc bound dof
    rw [← List.mem_range'_1, ← blocks proc bound, List.mem_flatMap]
    refine exists_congr fun cell => ?_
    rw [mem_cellsOf, and_assoc]
  refine ⟨fun proc => ⟨(final proc).dofs.numbers, (final proc).loffset, (final proc).lsize,
    (final proc).dofs.next - offset⟩, fun proc _ => returned proc, ?_⟩
  have nDofs : (final 0).dofs.next - offset = totalBefore mesh fe part initDistr.np := by
    rw [(distributed 0).next]
    omega
  refine
    { sameNumbers := fun proc _ => by simp only [same proc, and_self]
      counted := fun cell inside => (distributed 0).lengths cell inside (targets cell inside)
      injective := ?_
      range := ?_
      block := ?_
      first := ?_
      consecutive := ?_ }
  · intro first inFirst second inSecond i j dof atFirst atSecond
    -- a dof lies in the block of one process only
    have own := fun cell inside => (inBlock (part cell) (targets cell inside) dof).mp
    have ofFirst := own first inFirst ⟨first, inFirst, rfl, List.mem_of_getElem? atFirst⟩
    have ofSecond := own second inSecond ⟨second, inSecond, rfl, List.mem_of_getElem? atSecond⟩
    have upTo : ∀ proc, totalBefore mesh fe part (proc + 1) =
        totalBefore mesh fe part proc + total mesh fe part proc :=
      fun proc => Finset.sum_range_succ _ _
    have sameProc : part first = part second := by
      rcases lt_trichotomy (part first) (part second) with less | equal | more
      · have apart := totalBefore_mono mesh fe part less
        rw [Nat.succ_eq_add_one, upTo] at apart
        omega
      · exact equal
      · have apart := totalBefore_mono mesh fe part more
        rw [Nat.succ_eq_add_one, upTo] at apart
        omega
    have distinct : ((cellsOf mesh part (part first)).flatMap (final 0).dofs.numbers).Nodup := by
      rw [blocks _ (targets first inFirst)]
      exact List.nodup_range'
    exact eq_of_getElem?_flatMap distinct (mem_cellsOf.mpr ⟨inFirst, rfl⟩)
      (mem_cellsOf.mpr ⟨inSecond, sameProc.symm⟩) atFirst atSecond
  · intro dof
    change _ ↔ offset ≤ dof ∧ dof < offset + ((final 0).dofs.next - offset)
    rw [nDofs]
    constructor
    · intro numbered
      obtain ⟨cell, inside, member⟩ := numbered
      have within := (inBlock _ (targets cell inside) dof).mp ⟨cell, inside, rfl, member⟩
      have upper := totalBefore_mono mesh fe part
        (Nat.succ_le_of_lt (targets cell inside))
      have split : totalBefore mesh fe part (part cell + 1) =
          totalBefore mesh fe part (part cell) + total mesh fe part (part cell) :=
        Finset.sum_range_succ _ _
      rw [Nat.succ_eq_add_one, split] at upper
      omega
    · intro within
      obtain ⟨proc, bound, lower, upper⟩ := exists_block mesh fe part
        (show dof - offset < totalBefore mesh fe part initDistr.np by omega)
      obtain ⟨cell, inside, -, member⟩ := (inBlock proc bound dof).mpr (by omega)
      exact ⟨cell, inside, member⟩
  · intro proc bound dof
    obtain ⟨loffset, lsize⟩ := (distributed proc).mine bound
    rw [inBlock proc bound dof, loffset, lsize]
  · intro positive
    exact ((distributed 0).mine positive).1
  · intro proc bound
    obtain ⟨loffset, lsize⟩ := (distributed proc).mine (Nat.lt_of_succ_lt bound)
    have next := ((distributed (proc + 1)).mine bound).1
    rw [next, loffset, lsize, Nat.add_assoc]
    exact congrArg _ (Finset.sum_range_succ _ _)

end DofHandlerMultiDim

end Flow123d
