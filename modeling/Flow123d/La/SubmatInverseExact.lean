import Flow123d.La.SubmatBlocks

/-!
# When the inverse of A is returned
-/

set_option autoImplicit false

namespace Flow123d

open Flow123d.Library Matrix

/-! ## The inserted values -/

theorem memptr_apply {n : ℕ} (matrix : Matrix (Fin n) (Fin n) ℚ) (i j : Fin n) :
    memptr matrix (i * n + j) = matrix j i := by
  have place : (finProdFinEquiv (i, j)).val = i * n + j := by
    rw [finProdFinEquiv_apply_val, Nat.mul_comm, Nat.add_comm]
  have inside : i * n + j < n * n := by
    rw [← place]
    exact (finProdFinEquiv (i, j)).isLt
  have same : (⟨i * n + j, inside⟩ : Fin (n * n)) = finProdFinEquiv (i, j) :=
    Fin.ext place.symm
  rw [memptr, dif_pos inside, same, Equiv.symm_apply_apply]

theorem idxOf_range' {start size i : ℕ} (inside : i < size) :
    (List.range' start size).idxOf (start + i) = i := by
  have bound : i < (List.range' start size).length := by
    rwa [List.length_range']
  have item : (List.range' start size)[i] = start + i := by
    rw [List.getElem_range', Nat.one_mul]
  rw [← item]
  exact List.Nodup.idxOf_getElem List.nodup_range' i bound

namespace SchurComplement

variable {orig : OrigMatrix}

/-- The memory of the inverse is read along the other direction. -/
theorem insertBlock_inside (origRow iaRow : ℕ) {size : ℕ} (ia : ℕ → ℕ → ℚ) (i j : Fin size) :
    insertBlock orig origRow iaRow size ia (iaRow + i) (iaRow + j) =
      Arma.inv (square size origRow orig.entry) j i := by
  have rows : iaRow + i.val ∈ List.range' iaRow size ∧ iaRow + j.val ∈ List.range' iaRow size :=
    ⟨List.mem_range'_1.mpr (by omega), List.mem_range'_1.mpr (by omega)⟩
  rw [insertBlock, matSetValues, if_pos rows, List.length_range', idxOf_range' i.isLt,
    idxOf_range' j.isLt, memptr_apply]

theorem insertBlock_outside {origRow iaRow size i j : ℕ}
    (outside : ¬((iaRow ≤ i ∧ i < iaRow + size) ∧ iaRow ≤ j ∧ j < iaRow + size))
    (ia : ℕ → ℕ → ℚ) : insertBlock orig origRow iaRow size ia i j = ia i j := by
  rw [insertBlock, matSetValues, if_neg]
  rwa [List.mem_range'_1, List.mem_range'_1]

def Holds (block : Block) (i : ℕ) : Prop :=
  block.iaRow ≤ i ∧ i < block.iaRow + block.size

theorem foldl_insertInto_outside {blocks : List Block} {i j : ℕ}
    (outside : ∀ block ∈ blocks, ¬(Holds block i ∧ Holds block j)) (inverse : InverseIA) :
    (blocks.foldl (insertInto orig) inverse).ia i j = inverse.ia i j := by
  induction blocks generalizing inverse with
  | nil => rfl
  | cons block blocks ih =>
      rw [List.foldl_cons, ih fun other member => outside other (List.mem_cons_of_mem _ member)]
      exact insertBlock_outside (outside block List.mem_cons_self) inverse.ia

theorem foldl_insertInto_inside {blocks : List Block} {block : Block} {i j : Fin block.size}
    (alone : ∀ other ∈ blocks, Holds other (block.iaRow + i) → other = block)
    (member : block ∈ blocks) (inverse : InverseIA) :
    (blocks.foldl (insertInto orig) inverse).ia (block.iaRow + i) (block.iaRow + j) =
      Arma.inv (block.values orig) j i := by
  induction blocks generalizing inverse with
  | nil => cases member
  | cons first blocks ih =>
      rw [List.foldl_cons]
      by_cases later : block ∈ blocks
      · exact ih (fun other member => alone other (List.mem_cons_of_mem _ member)) later _
      · have here : block = first := (List.mem_cons.mp member).resolve_right later
        subst here
        rw [foldl_insertInto_outside]
        · exact insertBlock_inside _ _ _ i j
        · rintro other member ⟨holds, _⟩
          exact later (alone other (List.mem_cons_of_mem _ member) holds ▸ member)

theorem foldl_insertInto_blocks (blocks : List Block) (inverse : InverseIA) :
    (blocks.foldl (insertInto orig) inverse).blocks =
      inverse.blocks ++ blocks.map fun block => List.range' block.iaRow block.size := by
  induction blocks generalizing inverse with
  | nil => exact (List.append_nil _).symm
  | cons block blocks ih =>
      rw [List.foldl_cons, ih, List.map_cons, List.append_cons]
      rfl

/-! ## The whole matrix -/

variable {maxSizeSubmat : ℤ} {processes : List ProcessBlocks}

theorem getSubMatrix_block {block : Block} (member : block ∈ blocksFrom 0 0 processes)
    (i j : Fin block.size) :
    orig.getSubMatrix (indicesA 0 0 processes) (block.iaRow + i) (block.iaRow + j) =
      block.values orig i j := by
  have row := getElem?_indicesA member i.isLt
  have col := getElem?_indicesA member j.isLt
  rw [Nat.sub_zero] at row col
  rw [OrigMatrix.getSubMatrix, row, col]
  rfl

theorem getSubMatrix_vanishes (dense : DenseBlocks orig maxSizeSubmat processes) :
    VanishesOutside Block.iaRow Block.size (blocksFrom 0 0 processes)
      (indicesA 0 0 processes).length (orig.getSubMatrix (indicesA 0 0 processes)) := by
  intro block member i inside j bound outside
  have row := getElem?_indicesA member inside
  have col := List.getElem?_eq_getElem bound
  rw [Nat.sub_zero] at row
  rw [OrigMatrix.getSubMatrix, row, col]
  -- A stored value would be in a column of the block, so at a place of the block.
  have absent : (indicesA 0 0 processes)[j] ∉ orig.cols (block.origRow + i) := by
    intro stored
    have isOwn := ((dense block member).dense i inside _ (List.getElem_mem bound)).mp stored
    have place := getElem?_indicesA member
      (Nat.sub_lt_left_of_lt_add isOwn.1 isOwn.2)
    rw [Nat.add_sub_cancel' isOwn.1, Nat.sub_zero, ← col] at place
    have same := (List.getElem?_inj bound (nodup_indicesA 0 0 processes)).mp place.symm
    omega
  dsimp only
  rw [OrigMatrix.entry, List.lookup_eq_none_iff.mpr]
  · rfl
  · intro entry stored
    rw [bne_iff_ne]
    intro same
    exact absent (List.mem_map.mpr ⟨entry, stored, same.symm⟩)

theorem transpose_inv_mul_eq_one_iff {n : ℕ} {values : Matrix (Fin n) (Fin n) ℚ}
    (regular : values.det ≠ 0) : (Arma.inv values)ᵀ * values = 1 ↔ values.IsSymm := by
  constructor
  · intro inverse
    have transposed : valuesᵀ * Arma.inv values = 1 := by
      have both := congrArg transpose inverse
      rwa [transpose_mul, transpose_transpose, transpose_one] at both
    calc valuesᵀ = valuesᵀ * (Arma.inv values * values) := by
          rw [Arma.inv_mul regular, Matrix.mul_one]
      _ = values := by rw [← Matrix.mul_assoc, transposed, Matrix.one_mul]
  · intro symmetric
    have both := congrArg transpose (Arma.mul_inv regular)
    rwa [transpose_mul, symmetric.eq, transpose_one] at both

/-- The matrix that the constructor leaves when it returns. -/
def finalIA (orig : OrigMatrix) (processes : List ProcessBlocks) : InverseIA :=
  (blocksFrom 0 0 processes).foldl (insertInto orig)
    { ia := orig.getSubMatrix (indicesA 0 0 processes), blocks := [] }

theorem finalIA_blocks (orig : OrigMatrix) (processes : List ProcessBlocks) :
    (finalIA orig processes).blocks.flatten =
      List.range (indicesA 0 0 processes).length := by
  have tiles := blocksFrom_tiles 0 0 processes
  rw [Nat.zero_add] at tiles
  rw [finalIA, foldl_insertInto_blocks, List.nil_append, ← List.flatMap_def,
    tiles.flatMap_range', Nat.sub_zero, List.range_eq_range']

theorem finalIA_inverts_iff (dense : DenseBlocks orig maxSizeSubmat processes) :
    square (indicesA 0 0 processes).length 0 (finalIA orig processes).ia *
        square (indicesA 0 0 processes).length 0 (orig.getSubMatrix (indicesA 0 0 processes)) = 1 ↔
      ∀ block ∈ blocksFrom 0 0 processes, (block.values orig).IsSymm := by
  have tiles := blocksFrom_tiles 0 0 processes
  rw [Nat.zero_add] at tiles
  have vanishes := getSubMatrix_vanishes dense
  have alone {block : Block} (member : block ∈ blocksFrom 0 0 processes) {i : ℕ}
      (inside : i < block.size) : ∀ other ∈ blocksFrom 0 0 processes,
        Holds other (block.iaRow + i) → other = block := fun other otherMember holds =>
    tiles.unique otherMember member holds ⟨by omega, by omega⟩
  have finalVanishes : VanishesOutside Block.iaRow Block.size (blocksFrom 0 0 processes)
      (indicesA 0 0 processes).length (finalIA orig processes).ia := by
    intro block member i inside j bound outside
    rw [finalIA, foldl_insertInto_outside]
    · exact vanishes block member i inside j bound outside
    · rintro other otherMember ⟨holds, holdsColumn⟩
      rw [alone member inside other otherMember holds] at holdsColumn
      exact outside holdsColumn
  rw [mul_eq_one_iff_blocks tiles finalVanishes vanishes]
  refine forall₂_congr fun block member => ?_
  have first : square block.size block.iaRow (finalIA orig processes).ia =
      (Arma.inv (block.values orig))ᵀ := by
    ext i j
    exact foldl_insertInto_inside (alone member i.isLt) member _
  have second : square block.size block.iaRow (orig.getSubMatrix (indicesA 0 0 processes)) =
      block.values orig := by
    ext i j
    exact getSubMatrix_block member i j
  rw [first, second]
  exact transpose_inv_mul_eq_one_iff (dense block member).regular

theorem constructIA_found {asserts : Bool} (dense : DenseBlocks orig maxSizeSubmat processes)
    (found : ∀ block ∈ blocksFrom 0 0 processes, Found orig block) :
    constructIA orig asserts maxSizeSubmat (processes.map ProcessBlocks.localSize) =
      .ok (finalIA orig processes) :=
  foldlM_invertLocal (locallyDense_of_isDense dense (List.Subset.refl _)) found _

theorem constructIA_lost (asserts : Bool) (dense : DenseBlocks orig maxSizeSubmat processes)
    (lost : ∃ block ∈ blocksFrom 0 0 processes, ¬Found orig block) :
    Fails (constructIA orig asserts maxSizeSubmat (processes.map ProcessBlocks.localSize)) :=
  foldlM_invertLocal_fails (locallyDense_of_isDense dense (List.Subset.refl _)) lost _

theorem isInverted_iff {block : Block} :
    block.IsInverted orig ↔ Found orig block ∧ (block.values orig).IsSymm := by
  constructor
  · intro inverted
    refine ⟨⟨inverted.several, ?_⟩, inverted.symmetric⟩
    rintro i inside ⟨col, stored, low⟩
    exact absurd low (Nat.not_lt.mpr (inverted.high i inside col stored))
  · rintro ⟨⟨several, high⟩, symmetric⟩
    exact ⟨several, fun i inside col stored =>
      Nat.le_of_not_lt fun low => high i inside ⟨col, stored, low⟩, symmetric⟩

theorem invertsA_iff (asserts : Bool) (dense : DenseBlocks orig maxSizeSubmat processes) :
    InvertsA orig asserts maxSizeSubmat processes ↔
      ∀ block ∈ blocksFrom 0 0 processes, block.IsInverted orig := by
  simp only [isInverted_iff]
  constructor
  · rintro ⟨inverse, returned, _, inverts⟩
    have found : ∀ block ∈ blocksFrom 0 0 processes, Found orig block := by
      by_contra lost
      push Not at lost
      exact (constructIA_lost asserts dense lost).not_ok _ returned
    rw [constructIA_found dense found, Except.ok.injEq] at returned
    subst returned
    have symmetric := (finalIA_inverts_iff dense).mp inverts
    exact fun block member => ⟨found block member, symmetric block member⟩
  · intro inverted
    refine ⟨finalIA orig processes,
      constructIA_found dense fun block member => (inverted block member).1,
      finalIA_blocks orig processes, ?_⟩
    exact (finalIA_inverts_iff dense).mpr fun block member => (inverted block member).2

/-- A dense matrix with 2 on the diagonal and 1 elsewhere. -/
def denseMatrix (n : ℕ) (small : n ≤ intMax) : OrigMatrix where
  row i := if i < n then (List.range n).map fun j => (j, if i = j then 2 else 1) else []
  sorted i := by
    split
    · rw [List.map_map]
      change (List.map id (List.range n)).SortedLT
      rw [List.map_id]
      exact List.sortedLT_range n
    · exact List.Pairwise.nil.sortedLT
  small i entry member := by
    split at member
    · obtain ⟨j, inside, rfl⟩ := List.mem_map.mp member
      exact (List.mem_range.mp inside).trans_le small
    · cases member

def oneBlock (n : ℕ) : List ProcessBlocks := [{ blockSizes := [n], locSizeB := 0 }]

theorem denseMatrix_two : DenseBlocks (denseMatrix 2 (by decide)) 4 (oneBlock 2) := by
  intro block member
  have here : block = { range := ⟨0, 0, 2⟩, locRow := 0, size := 2 } := by
    simpa [oneBlock, blocksFrom, localBlocks] using member
  subst here
  exact ⟨by decide, by decide, by decide, by decide +kernel⟩

theorem invertsA_two : InvertsA (denseMatrix 2 (by decide)) true 4 (oneBlock 2) := by
  refine (invertsA_iff true denseMatrix_two).mpr fun block member => ?_
  have here : block = { range := ⟨0, 0, 2⟩, locRow := 0, size := 2 } := by
    simpa [oneBlock, blocksFrom, localBlocks] using member
  subst here
  exact ⟨le_rfl, fun _ _ _ _ => Nat.zero_le _, by unfold IsSymm; decide +kernel⟩

theorem denseMatrix_one : DenseBlocks (denseMatrix 1 (by decide)) 4 (oneBlock 1) := by
  intro block member
  have here : block = { range := ⟨0, 0, 1⟩, locRow := 0, size := 1 } := by
    simpa [oneBlock, blocksFrom, localBlocks] using member
  subst here
  exact ⟨by decide, by decide, by decide, by decide +kernel⟩

theorem not_always_invertsA : ¬∀ (orig : OrigMatrix) (asserts : Bool) (maxSizeSubmat : ℤ)
    (processes : List ProcessBlocks), DenseBlocks orig maxSizeSubmat processes →
      InvertsA orig asserts maxSizeSubmat processes := by
  intro always
  obtain ⟨inverse, returned, _⟩ := always _ true 4 _ denseMatrix_one
  have lost : ∃ block ∈ blocksFrom 0 0 (oneBlock 1),
      ¬Found (denseMatrix 1 (by decide)) block :=
    ⟨_, List.mem_cons_self, fun found => absurd found.1 (by decide)⟩
  exact (constructIA_lost true denseMatrix_one lost).not_ok inverse returned

end SchurComplement

end Flow123d
