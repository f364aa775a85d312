import Flow123d.La.SubmatInverseProperties

/-!
# The inverse of all blocks

The constructor on a matrix whose part A has dense invertible blocks: it returns the inverse of A
exactly if each block is found and symmetric.
-/

set_option autoImplicit false

namespace Flow123d

open Flow123d.Library Matrix

/-- The sizes of the blocks on a process and the number of its other rows. -/
structure ProcessBlocks where
  blockSizes : List ℕ
  locSizeB : ℕ

def ProcessBlocks.localSize (process : ProcessBlocks) : LocalSize where
  locSizeA := process.blockSizes.sum
  locSizeB := process.locSizeB

structure Block where
  range : OwnershipRange
  locRow : ℕ
  size : ℕ

namespace Block

def origRow (block : Block) : ℕ := block.locRow + block.range.posStart

def iaRow (block : Block) : ℕ := block.locRow + block.range.posStartIA

def values (orig : OrigMatrix) (block : Block) : Matrix (Fin block.size) (Fin block.size) ℚ :=
  square block.size block.origRow orig.entry

end Block

def localBlocks (range : OwnershipRange) : ℕ → List ℕ → List Block
  | _, [] => []
  | locRow, size :: sizes => { range, locRow, size } :: localBlocks range (locRow + size) sizes

def blocksFrom : ℕ → ℕ → List ProcessBlocks → List Block
  | _, _, [] => []
  | posStart, posStartIA, process :: others =>
      localBlocks { posStart, posStartIA, locSizeA := process.blockSizes.sum } 0
          process.blockSizes ++
        blocksFrom (posStart + process.blockSizes.sum + process.locSizeB)
          (posStartIA + process.blockSizes.sum) others

/-- The global numbers of the rows of A. -/
def indicesA (posStart posStartIA : ℕ) (processes : List ProcessBlocks) : List ℕ :=
  fullIsA (ownershipRanges posStart posStartIA (processes.map ProcessBlocks.localSize))

/-- In its rows a block stores all places of the part A that are its own, and no others. -/
structure Block.IsDense (orig : OrigMatrix) (maxSizeSubmat : ℤ) (indices : List ℕ)
    (block : Block) : Prop where
  positive : 0 < block.size
  small : (block.size : ℤ) < maxSizeSubmat
  dense : ∀ i < block.size, ∀ col ∈ indices, (col ∈ orig.cols (block.origRow + i) ↔
    block.origRow ≤ col ∧ col < block.origRow + block.size)
  regular : (block.values orig).det ≠ 0

def DenseBlocks (orig : OrigMatrix) (maxSizeSubmat : ℤ) (processes : List ProcessBlocks) : Prop :=
  ∀ block ∈ blocksFrom 0 0 processes, block.IsDense orig maxSizeSubmat (indicesA 0 0 processes)

/-- The constructor visits each row of A in one block and leaves the inverse of A. -/
def InvertsA (orig : OrigMatrix) (asserts : Bool) (maxSizeSubmat : ℤ)
    (processes : List ProcessBlocks) : Prop :=
  let indices := indicesA 0 0 processes
  ∃ inverse, SchurComplement.constructIA orig asserts maxSizeSubmat
      (processes.map ProcessBlocks.localSize) = .ok inverse ∧
    inverse.blocks.flatten = List.range indices.length ∧
    square indices.length 0 inverse.ia *
      square indices.length 0 (orig.getSubMatrix indices) = 1

/-- Several rows without columns of lower processes, and a symmetric block. -/
structure Block.IsInverted (orig : OrigMatrix) (block : Block) : Prop where
  several : 2 ≤ block.size
  high : ∀ i < block.size, ∀ col ∈ orig.cols (block.origRow + i), block.range.posStart ≤ col
  symmetric : (block.values orig).IsSymm

/-! ## Where the blocks are -/

theorem localBlocks_tiles (range : OwnershipRange) (locRow : ℕ) (sizes : List ℕ) :
    Tiles Block.iaRow Block.size (locRow + range.posStartIA) (localBlocks range locRow sizes)
      (locRow + range.posStartIA + sizes.sum) := by
  induction sizes generalizing locRow with
  | nil => exact .nil _
  | cons size sizes ih =>
      have rest := ih (locRow + size)
      have next : locRow + size + range.posStartIA = locRow + range.posStartIA + size := by omega
      rw [next, Nat.add_assoc (locRow + range.posStartIA)] at rest
      rw [List.sum_cons]
      exact @Tiles.cons Block Block.iaRow Block.size { range, locRow, size } _ _ rest

theorem length_indicesA (posStart posStartIA : ℕ) (process : ProcessBlocks)
    (others : List ProcessBlocks) :
    (indicesA posStart posStartIA (process :: others)).length = process.blockSizes.sum +
      (indicesA (posStart + process.blockSizes.sum + process.locSizeB)
        (posStartIA + process.blockSizes.sum) others).length := by
  simp [indicesA, ownershipRanges, fullIsA, ProcessBlocks.localSize]

theorem blocksFrom_tiles (posStart posStartIA : ℕ) (processes : List ProcessBlocks) :
    Tiles Block.iaRow Block.size posStartIA (blocksFrom posStart posStartIA processes)
      (posStartIA + (indicesA posStart posStartIA processes).length) := by
  induction processes generalizing posStart posStartIA with
  | nil => exact .nil _
  | cons process others ih =>
      have first := localBlocks_tiles
        { posStart, posStartIA, locSizeA := process.blockSizes.sum } 0 process.blockSizes
      have rest := ih (posStart + process.blockSizes.sum + process.locSizeB)
        (posStartIA + process.blockSizes.sum)
      rw [Nat.zero_add] at first
      rw [length_indicesA, ← Nat.add_assoc]
      exact first.append rest

theorem le_of_mem_indicesA {posStart posStartIA : ℕ} {processes : List ProcessBlocks} {col : ℕ}
    (member : col ∈ indicesA posStart posStartIA processes) : posStart ≤ col := by
  induction processes generalizing posStart posStartIA with
  | nil => cases member
  | cons process others ih =>
      rcases List.mem_append.mp member with own | later
      · exact (List.mem_range'_1.mp own).1
      · have bound := ih later
        omega

theorem nodup_indicesA (posStart posStartIA : ℕ) (processes : List ProcessBlocks) :
    (indicesA posStart posStartIA processes).Nodup := by
  induction processes generalizing posStart posStartIA with
  | nil => exact List.nodup_nil
  | cons process others ih =>
      refine List.nodup_append.mpr ⟨List.nodup_range', ih _ _, fun col own other later => ?_⟩
      have bound := le_of_mem_indicesA later
      have before := (List.mem_range'_1.mp own).2
      dsimp only [ProcessBlocks.localSize] at before bound
      omega

theorem mem_localBlocks {range : OwnershipRange} {locRow : ℕ} {sizes : List ℕ} {block : Block}
    (member : block ∈ localBlocks range locRow sizes) :
    block.range = range ∧ locRow ≤ block.locRow ∧
      block.locRow + block.size ≤ locRow + sizes.sum := by
  induction sizes generalizing locRow with
  | nil => cases member
  | cons size sizes ih =>
      rw [List.sum_cons]
      rcases List.mem_cons.mp member with rfl | later
      · exact ⟨rfl, le_rfl, by dsimp only; omega⟩
      · obtain ⟨same, after, before⟩ := ih later
        exact ⟨same, by omega, by omega⟩

/-- The rows of a block in A and in the original matrix. -/
theorem getElem?_indicesA {posStart posStartIA : ℕ} {processes : List ProcessBlocks}
    {block : Block} (member : block ∈ blocksFrom posStart posStartIA processes) {i : ℕ}
    (inside : i < block.size) :
    (indicesA posStart posStartIA processes)[block.iaRow + i - posStartIA]? =
      some (block.origRow + i) := by
  induction processes generalizing posStart posStartIA with
  | nil => cases member
  | cons process others ih =>
      have split : indicesA posStart posStartIA (process :: others) =
          List.range' posStart process.blockSizes.sum ++
            indicesA (posStart + process.blockSizes.sum + process.locSizeB)
              (posStartIA + process.blockSizes.sum) others := rfl
      rw [split]
      rcases List.mem_append.mp member with own | later
      · obtain ⟨same, _, before⟩ := mem_localBlocks own
        have place : block.iaRow + i - posStartIA = block.locRow + i := by
          rw [Block.iaRow, same]
          dsimp only
          omega
        have here : block.locRow + i < process.blockSizes.sum := by omega
        rw [place, List.getElem?_append_left (by rw [List.length_range']; exact here),
          List.getElem?_range' here, Block.origRow, same]
        congr 1
        dsimp only
        omega
      · have found := ih later
        have after := (blocksFrom_tiles _ _ others).bounds later
        rw [List.getElem?_append_right (by rw [List.length_range']; omega), List.length_range',
          ← found]
        congr 1
        omega

/-! ## The run of a process -/

namespace SchurComplement

variable {orig : OrigMatrix} {asserts : Bool} {maxSizeSubmat : ℤ} {range : OwnershipRange}

/-- What the run of a process needs of a block. -/
structure LocallyDense (orig : OrigMatrix) (maxSizeSubmat : ℤ) (block : Block) : Prop where
  positive : 0 < block.size
  small : (block.size : ℤ) < maxSizeSubmat
  fits : block.locRow + block.size ≤ block.range.locSizeA
  dense : DenseLocally orig block.range block.locRow block.size
  regular : (block.values orig).det ≠ 0

def Found (orig : OrigMatrix) (block : Block) : Prop :=
  Detected orig block.range block.locRow block.size

/-- The rows from the given one on were not visited yet. -/
def Unvisited (inverse : LocalInverse) (locRow : ℕ) : Prop :=
  inverse.matBlock ≠ 0 ∧ ∀ row, locRow ≤ row → inverse.processedRows row = 0

def insertInto (orig : OrigMatrix) (inverse : InverseIA) (block : Block) : InverseIA where
  ia := insertBlock orig block.origRow block.iaRow block.size inverse.ia
  blocks := inverse.blocks ++ [List.range' block.iaRow block.size]

theorem foldlM_block (asserts : Bool) (block : Block) {inverse : LocalInverse}
    (unvisited : Unvisited inverse block.locRow)
    (dense : LocallyDense orig maxSizeSubmat block) (found : Found orig block) :
    (List.range' block.locRow block.size).foldlM
        (processRow orig asserts maxSizeSubmat block.range) inverse =
      .ok (afterBlock orig block.range block.locRow block.size inverse) := by
  obtain ⟨size, isSize⟩ := Nat.exists_eq_add_of_le' dense.positive
  have first := processRow_detected asserts (unvisited.2 _ le_rfl) dense.fits
    dense.dense dense.small dense.regular found
  have rows : List.range' block.locRow block.size =
      block.locRow :: List.range' (block.locRow + 1) size := by
    rw [isSize, List.range'_succ]
  rw [rows, List.foldlM_cons, first]
  refine foldlM_unchanged fun row member => if_pos ?_
  have inside := List.mem_range'_1.mp member
  have marked : block.locRow ≤ row ∧ row < block.locRow + block.size := by omega
  simp only [afterBlock, if_pos marked]
  exact unvisited.1

theorem unvisited_afterBlock (orig : OrigMatrix) (range : OwnershipRange) {locRow : ℕ}
    (size : ℕ) {inverse : LocalInverse}
    (unvisited : Unvisited inverse locRow) :
    Unvisited (afterBlock orig range locRow size inverse) (locRow + size) := by
  refine ⟨Nat.succ_ne_zero _, fun row after => ?_⟩
  have outside : ¬(locRow ≤ row ∧ row < locRow + size) := by omega
  simp only [afterBlock, if_neg outside]
  exact unvisited.2 row (by omega)

theorem foldlM_localBlocks (asserts : Bool) {sizes : List ℕ} {locRow : ℕ} {inverse : LocalInverse}
    (unvisited : Unvisited inverse locRow)
    (dense : ∀ block ∈ localBlocks range locRow sizes, LocallyDense orig maxSizeSubmat block)
    (found : ∀ block ∈ localBlocks range locRow sizes, Found orig block) :
    ∃ final, (List.range' locRow sizes.sum).foldlM
        (processRow orig asserts maxSizeSubmat range) inverse = .ok final ∧
      final.toInverseIA =
        (localBlocks range locRow sizes).foldl (insertInto orig) inverse.toInverseIA := by
  induction sizes generalizing locRow inverse with
  | nil => exact ⟨inverse, rfl, rfl⟩
  | cons size sizes ih =>
      have head : { range, locRow, size } ∈ localBlocks range locRow (size :: sizes) :=
        List.mem_cons_self
      have first := foldlM_block asserts { range, locRow, size } unvisited
        (dense _ head) (found _ head)
      obtain ⟨final, run, same⟩ := ih (unvisited_afterBlock orig range size unvisited)
        (fun block member => dense block (List.mem_cons_of_mem _ member))
        fun block member => found block (List.mem_cons_of_mem _ member)
      refine ⟨final, ?_, same⟩
      rw [List.sum_cons, ← List.range'_append_1, List.foldlM_append, first]
      exact run

theorem foldlM_localBlocks_fails {sizes : List ℕ} {locRow : ℕ} {inverse : LocalInverse}
    (unvisited : Unvisited inverse locRow)
    (dense : ∀ block ∈ localBlocks range locRow sizes, LocallyDense orig maxSizeSubmat block)
    (lost : ∃ block ∈ localBlocks range locRow sizes, ¬Found orig block) :
    Fails ((List.range' locRow sizes.sum).foldlM
      (processRow orig asserts maxSizeSubmat range) inverse) := by
  induction sizes generalizing locRow inverse with
  | nil =>
      obtain ⟨block, member, _⟩ := lost
      cases member
  | cons size sizes ih =>
      have head : { range, locRow, size } ∈ localBlocks range locRow (size :: sizes) :=
        List.mem_cons_self
      have firstDense := dense _ head
      rw [List.sum_cons, ← List.range'_append_1, List.foldlM_append]
      by_cases found : Found orig { range, locRow, size }
      · have first := foldlM_block asserts { range, locRow, size } unvisited
          firstDense found
        rw [first]
        refine ih (unvisited_afterBlock orig range size unvisited)
          (fun block member => dense block (List.mem_cons_of_mem _ member)) ?_
        obtain ⟨block, member, notFound⟩ := lost
        rcases List.mem_cons.mp member with rfl | later
        · exact absurd found notFound
        · exact ⟨block, later, notFound⟩
      · obtain ⟨others, isSize⟩ := Nat.exists_eq_add_of_le' firstDense.positive
        dsimp only at isSize
        subst isSize
        rw [List.range'_succ, List.foldlM_cons]
        exact ((processRow_undetected (unvisited.2 _ le_rfl) firstDense.fits firstDense.dense
          firstDense.positive found).bind _).bind _

/-! ## The run of all processes -/

theorem locallyDense_of_isDense {posStart posStartIA : ℕ} {processes : List ProcessBlocks}
    {indices : List ℕ} (dense : ∀ block ∈ blocksFrom posStart posStartIA processes,
      block.IsDense orig maxSizeSubmat indices)
    (contains : indicesA posStart posStartIA processes ⊆ indices) :
    ∀ block ∈ blocksFrom posStart posStartIA processes,
      LocallyDense orig maxSizeSubmat block := by
  induction processes generalizing posStart posStartIA with
  | nil => exact fun block member => nomatch member
  | cons process others ih =>
      have split : indicesA posStart posStartIA (process :: others) =
          List.range' posStart process.blockSizes.sum ++
            indicesA (posStart + process.blockSizes.sum + process.locSizeB)
              (posStartIA + process.blockSizes.sum) others := rfl
      rw [split, List.append_subset] at contains
      intro block member
      rcases List.mem_append.mp member with own | later
      · have isDense := dense block member
        obtain ⟨same, _, before⟩ := mem_localBlocks own
        refine ⟨isDense.positive, isDense.small, ?_, fun i inside col low high => ?_,
          isDense.regular⟩
        · rw [same]
          dsimp only
          omega
        · rw [same] at low high
          exact isDense.dense i inside col
            (contains.1 (List.mem_range'_1.mpr ⟨low, high⟩))
      · exact ih (fun other member => dense other (List.mem_append_right _ member)) contains.2
          block later

theorem invertLocal_start (inverse : InverseIA) :
    Unvisited { toInverseIA := inverse, processedRows := 0, matBlock := 1 } 0 :=
  ⟨one_ne_zero, fun _ _ => rfl⟩

theorem foldlM_invertLocal {processes : List ProcessBlocks} {posStart posStartIA : ℕ}
    (dense : ∀ block ∈ blocksFrom posStart posStartIA processes,
      LocallyDense orig maxSizeSubmat block)
    (found : ∀ block ∈ blocksFrom posStart posStartIA processes, Found orig block)
    (inverse : InverseIA) :
    (ownershipRanges posStart posStartIA (processes.map ProcessBlocks.localSize)).foldlM
        (invertLocal orig asserts maxSizeSubmat) inverse =
      .ok ((blocksFrom posStart posStartIA processes).foldl (insertInto orig) inverse) := by
  induction processes generalizing posStart posStartIA inverse with
  | nil => rfl
  | cons process others ih =>
      have own := fun block member => dense block (List.mem_append_left _ member)
      obtain ⟨final, run, same⟩ := foldlM_localBlocks asserts
        (invertLocal_start inverse) own
        fun block member => found block (List.mem_append_left _ member)
      have first : invertLocal orig asserts maxSizeSubmat inverse
          { posStart, posStartIA, locSizeA := process.blockSizes.sum } =
            .ok final.toInverseIA := by
        unfold invertLocal
        rw [List.range_eq_range', run]
        rfl
      rw [List.map_cons, ownershipRanges, List.foldlM_cons]
      dsimp only [ProcessBlocks.localSize]
      rw [first, blocksFrom, List.foldl_append, ← same]
      exact ih (fun block member => dense block (List.mem_append_right _ member))
        (fun block member => found block (List.mem_append_right _ member)) _

theorem foldlM_invertLocal_fails {processes : List ProcessBlocks} {posStart posStartIA : ℕ}
    (dense : ∀ block ∈ blocksFrom posStart posStartIA processes,
      LocallyDense orig maxSizeSubmat block)
    (lost : ∃ block ∈ blocksFrom posStart posStartIA processes, ¬Found orig block)
    (inverse : InverseIA) :
    Fails ((ownershipRanges posStart posStartIA (processes.map ProcessBlocks.localSize)).foldlM
      (invertLocal orig asserts maxSizeSubmat) inverse) := by
  induction processes generalizing posStart posStartIA inverse with
  | nil =>
      obtain ⟨block, member, _⟩ := lost
      cases member
  | cons process others ih =>
      have own := fun block member => dense block (List.mem_append_left _ member)
      rw [List.map_cons, ownershipRanges, List.foldlM_cons]
      dsimp only [ProcessBlocks.localSize]
      obtain ⟨block, member, notFound⟩ := lost
      rcases List.mem_append.mp member with here | later
      · refine Fails.bind ?_ _
        unfold invertLocal
        rw [List.range_eq_range']
        exact (foldlM_localBlocks_fails (invertLocal_start inverse) own
          ⟨block, here, notFound⟩).bind _
      · cases invertLocal orig asserts maxSizeSubmat inverse
          { posStart, posStartIA, locSizeA := process.blockSizes.sum } with
        | error error => exact fails_error error
        | ok next =>
            exact ih (fun block member => dense block (List.mem_append_right _ member))
              ⟨block, later, notFound⟩ next

end SchurComplement

end Flow123d
