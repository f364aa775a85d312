import Flow123d.La.SubmatInverse

/-!
# Blocks that are inverted

A block is found and inverted exactly if it has at least two rows, none of which stores a column
before the local ones; its inverse is then inserted transposed.
-/

set_option autoImplicit false

namespace Flow123d

open Flow123d.Library Matrix

/-! ## The extent of a block -/

theorem foldl_scanColumn_bVals {upper : ℕ} {cols : List ℕ} (inner : ∀ col ∈ cols, col < upper)
    (scan : ColumnScan) :
    cols.foldl (scanColumn upper) { scan with bVals := scan.bVals + 1 } =
      { cols.foldl (scanColumn upper) scan with
        bVals := (cols.foldl (scanColumn upper) scan).bVals + 1 } := by
  induction cols generalizing scan with
  | nil => rfl
  | cons col cols ih =>
      have here : ¬upper ≤ col := Nat.not_le.mpr (inner col List.mem_cons_self)
      rw [List.foldl_cons, List.foldl_cons,
        ← ih fun other member => inner other (List.mem_cons_of_mem _ member)]
      congr 1
      simp only [scanColumn, if_neg here]
      split_ifs <;> rfl

theorem foldl_scanColumn (upper : ℕ) (cols : List ℕ) (scan : ColumnScan) :
    cols.foldl (scanColumn upper) scan =
      let inner := (cols.filter (· < upper)).foldl (scanColumn upper) scan
      { inner with bVals := inner.bVals + (cols.filter (upper ≤ ·)).length } := by
  induction cols generalizing scan with
  | nil => rfl
  | cons col cols ih =>
      by_cases outer : upper ≤ col
      · have notInner : ¬col < upper := Nat.not_lt.mpr outer
        rw [List.foldl_cons, ih]
        simp only [List.filter_cons, outer, notInner, decide_true, decide_false, if_true,
          Bool.false_eq_true, if_false, List.length_cons]
        have first : scanColumn upper scan col = { scan with bVals := scan.bVals + 1 } :=
          if_pos outer
        rw [first, foldl_scanColumn_bVals fun other member => by
          simpa using (List.mem_filter.mp member).2]
        simp only [ColumnScan.mk.injEq, true_and]
        omega
      · have inner : col < upper := Nat.not_le.mp outer
        rw [List.foldl_cons, ih]
        simp only [List.filter_cons, outer, inner, decide_true, decide_false, if_true,
          Bool.false_eq_true, if_false, List.foldl_cons]

theorem foldl_scanColumn_later {upper start size : ℕ} (scan : ColumnScan)
    (before : scan.min ≤ start) (below : scan.max < start) (inside : start + size ≤ upper) :
    (List.range' start size).foldl (scanColumn upper) scan =
      if size = 0 then scan else { scan with max := start + size - 1 } := by
  induction size with
  | zero => rfl
  | succ size ih =>
      rw [List.range'_1_concat, List.foldl_append, ih (by omega), if_neg size.succ_ne_zero]
      have here : ¬upper ≤ start + size := by omega
      have notMin : ¬((start + size : ℕ) : ℤ) < scan.min := by omega
      by_cases none : size = 0
      · subst none
        have larger : ((start + 0 : ℕ) : ℤ) > scan.max := by omega
        simp only [List.foldl_cons, List.foldl_nil, if_true, scanColumn, if_neg here,
          if_neg notMin, if_pos larger, ColumnScan.mk.injEq, true_and, and_true]
        omega
      · rw [if_neg none]
        have larger : ((start + size : ℕ) : ℤ) > (start : ℤ) + size - 1 := by omega
        simp only [List.foldl_cons, List.foldl_nil, scanColumn, if_neg here, if_neg notMin,
          if_pos larger, ColumnScan.mk.injEq, true_and, and_true]
        omega

/-- The first column is taken for the minimum only, so that the extent of a single column is not
found. -/
theorem foldl_scanColumn_range' {upper start size : ℕ} (positive : 0 < size)
    (inside : start + size ≤ upper) (small : start < intMax) :
    (List.range' start size).foldl (scanColumn upper) { min := intMax, max := -1, bVals := 0 } =
      { min := start, max := if size = 1 then -1 else start + size - 1, bVals := 0 } := by
  obtain ⟨others, rfl⟩ := Nat.exists_eq_add_of_le' positive
  have here : ¬upper ≤ start := by omega
  have less : (start : ℤ) < intMax := by exact_mod_cast small
  rw [List.range'_succ, List.foldl_cons]
  have first : scanColumn upper { min := intMax, max := -1, bVals := 0 } start =
      { min := start, max := -1, bVals := 0 } := by
    rw [scanColumn, if_neg here, if_pos less]
  have below : (-1 : ℤ) < ((start + 1 : ℕ) : ℤ) := by omega
  have before : (start : ℤ) ≤ ((start + 1 : ℕ) : ℤ) := by omega
  rw [first, foldl_scanColumn_later _ before below (by omega)]
  by_cases none : others = 0
  · subst none
    rfl
  · have several : ¬others + 1 = 1 := by omega
    rw [if_neg none, if_neg several]
    simp only [ColumnScan.mk.injEq, true_and, and_true]
    omega

/-! ## Reading a block -/

theorem foldlM_readValue {range : OwnershipRange} {locRow size : ℕ} (i : ℕ)
    (fits : locRow + size ≤ range.locSizeA) {entries : List (ℕ × ℚ)}
    (inside : ∀ entry ∈ entries, entry.1 < range.posStart + range.locSizeA →
      locRow + range.posStart ≤ entry.1 ∧ entry.1 < locRow + range.posStart + size)
    (distinct : (entries.map Prod.fst).Nodup) (line : ℕ → ℚ) :
    entries.foldlM (SchurComplement.readValue range locRow size i) line =
      .ok fun j => if j < size then
        (entries.lookup (locRow + range.posStart + j)).getD (line j) else line j := by
  induction entries generalizing line with
  | nil => simp [pure, Except.pure]
  | cons entry entries ih =>
      obtain ⟨col, value⟩ := entry
      rw [List.map_cons, List.nodup_cons] at distinct
      have later := ih (fun other member => inside other (List.mem_cons_of_mem _ member)) distinct.2
      rw [List.foldlM_cons]
      by_cases isA : col < range.posStart + range.locSizeA
      · obtain ⟨after, before⟩ := inside (col, value) List.mem_cons_self isA
        dsimp only at after before
        obtain ⟨j, rfl⟩ := Nat.exists_eq_add_of_le after
        have place : ((locRow + range.posStart + j : ℕ) : ℤ) - locRow - range.posStart = j := by
          omega
        have bounds : (0 : ℤ) ≤ j ∧ (j : ℤ) < size := by omega
        have read : SchurComplement.readValue range locRow size i line
            (locRow + range.posStart + j, value) = .ok (Function.update line j value) := by
          simp only [SchurComplement.readValue, if_pos isA, place, if_pos bounds, Int.toNat_natCast]
        rw [read]
        refine (later _).trans (congrArg Except.ok (funext fun k => ?_))
        by_cases same : k = j
        · subst same
          have absent : entries.lookup (locRow + range.posStart + k) = none := by
            refine List.lookup_eq_none_iff.mpr fun other member => ?_
            rw [bne_iff_ne]
            intro same
            exact distinct.1 (List.mem_map.mpr ⟨other, member, same.symm⟩)
          have here : k < size := by omega
          rw [absent, List.lookup_cons_self, if_pos here, if_pos here, Function.update_self]
          rfl
        · have other : (locRow + range.posStart + k == locRow + range.posStart + j) = false := by
            simpa using same
          rw [List.lookup_cons, other, Function.update_of_ne same]
      · have read : SchurComplement.readValue range locRow size i line (col, value) = .ok line :=
          if_neg isA
        rw [read]
        refine (later line).trans (congrArg Except.ok (funext fun k => ?_))
        by_cases here : k < size
        · have other : (locRow + range.posStart + k == col) = false := by
            have different : locRow + range.posStart + k ≠ col := by omega
            simpa using different
          rw [List.lookup_cons, other]
        · rw [if_neg here, if_neg here]

theorem readValue_fails {range : OwnershipRange} {entry : ℕ × ℚ} (low : entry.1 < range.posStart)
    (locRow size i : ℕ) (line : ℕ → ℚ) :
    Fails (SchurComplement.readValue range locRow size i line entry) := by
  have isA : entry.1 < range.posStart + range.locSizeA := by omega
  have outside : ¬(0 ≤ (entry.1 : ℤ) - locRow - range.posStart ∧
      (entry.1 : ℤ) - locRow - range.posStart < size) := by omega
  simp only [SchurComplement.readValue, if_pos isA, if_neg outside]
  exact fails_error _

namespace SchurComplement

variable {orig : OrigMatrix} {asserts : Bool} {maxSizeSubmat : ℤ} {range : OwnershipRange}
  {locRow size : ℕ}

/-- The row stores a column of a lower process. -/
def StoresLow (orig : OrigMatrix) (range : OwnershipRange) (row : ℕ) : Prop :=
  ∃ col ∈ orig.cols row, col < range.posStart

/-- The local columns of the rows of a block are those of the block. -/
def DenseLocally (orig : OrigMatrix) (range : OwnershipRange) (locRow size : ℕ) : Prop :=
  ∀ i < size, ∀ col, range.posStart ≤ col → col < range.posStart + range.locSizeA →
    (col ∈ orig.cols (locRow + range.posStart + i) ↔
      locRow + range.posStart ≤ col ∧ col < locRow + range.posStart + size)

theorem collectRow_fails {i : ℕ} (low : StoresLow orig range (locRow + range.posStart + i))
    (matBlock : ℕ) (submat : Submat) :
    Fails (collectRow orig range locRow size matBlock submat i) := by
  obtain ⟨col, stored, low⟩ := low
  obtain ⟨entry, member, rfl⟩ := List.mem_map.mp stored
  have here : i + locRow + range.posStart = locRow + range.posStart + i := by omega
  unfold collectRow
  split
  case isTrue => exact fails_error _
  case isFalse =>
    rw [here]
    exact (foldlM_fails member (readValue_fails low locRow size i) _).bind _

/-- The block after some of its rows were read. -/
def collected (orig : OrigMatrix) (range : OwnershipRange) (locRow size matBlock : ℕ)
    (processedRows : ℕ → ℕ) (rows : ℕ) : Submat where
  processedRows row := if locRow ≤ row ∧ row < locRow + rows then matBlock else processedRows row
  submatRows := List.range' (locRow + range.posStartIA) rows
  submat2 i j := if i < rows ∧ j < size then
    orig.entry (locRow + range.posStart + i) (locRow + range.posStart + j) else 0

theorem collectRow_dense (fits : locRow + size ≤ range.locSizeA)
    (dense : DenseLocally orig range locRow size) {i : ℕ} (inside : i < size)
    (high : ¬StoresLow orig range (locRow + range.posStart + i)) (matBlock : ℕ)
    (processedRows : ℕ → ℕ) :
    collectRow orig range locRow size matBlock
        (collected orig range locRow size matBlock processedRows i) i =
      .ok (collected orig range locRow size matBlock processedRows (i + 1)) := by
  have here : i + locRow + range.posStart = locRow + range.posStart + i := by omega
  have bound : ¬range.locSizeA ≤ locRow + i := by omega
  have columns : ∀ entry ∈ orig.row (locRow + range.posStart + i),
      entry.1 < range.posStart + range.locSizeA →
        locRow + range.posStart ≤ entry.1 ∧ entry.1 < locRow + range.posStart + size := by
    intro entry member isA
    have stored : entry.1 ∈ orig.cols (locRow + range.posStart + i) :=
      List.mem_map_of_mem member
    have isLocal : range.posStart ≤ entry.1 :=
      Nat.le_of_not_lt fun low => high ⟨entry.1, stored, low⟩
    exact (dense i inside entry.1 isLocal isA).mp stored
  have distinct : ((orig.row (locRow + range.posStart + i)).map Prod.fst).Nodup :=
    (orig.sorted _).nodup
  unfold collectRow
  rw [if_neg bound, here, foldlM_readValue i fits columns distinct]
  refine congrArg Except.ok ?_
  unfold collected
  simp only [Submat.mk.injEq]
  refine ⟨?_, ?_, ?_⟩
  · funext row
    by_cases same : row = locRow + i
    · subst same
      simp
    · rw [Function.update_of_ne same]
      refine if_congr ?_ rfl rfl
      omega
  · rw [List.range'_1_concat]
    congr 2
    omega
  · funext row col
    by_cases same : row = i
    · subst same
      simp [OrigMatrix.entry]
    · rw [Function.update_of_ne same]
      refine if_congr ?_ rfl rfl
      omega

theorem foldlM_collectRow (fits : locRow + size ≤ range.locSizeA)
    (dense : DenseLocally orig range locRow size)
    (high : ∀ i < size, ¬StoresLow orig range (locRow + range.posStart + i)) (matBlock : ℕ)
    (processedRows : ℕ → ℕ) :
    (List.range size).foldlM (collectRow orig range locRow size matBlock)
        { processedRows, submatRows := [], submat2 := 0 } =
      .ok (collected orig range locRow size matBlock processedRows size) := by
  have start : collected orig range locRow size matBlock processedRows 0 =
      { processedRows, submatRows := [], submat2 := 0 } := by
    unfold collected
    simp only [Submat.mk.injEq, List.range'_zero, true_and]
    constructor
    · funext row
      exact if_neg (by omega)
    · funext row col
      exact if_neg (by omega)
  have prefix_ : ∀ rows ≤ size, (List.range rows).foldlM
      (collectRow orig range locRow size matBlock)
        { processedRows, submatRows := [], submat2 := 0 } =
      .ok (collected orig range locRow size matBlock processedRows rows) := by
    intro rows
    induction rows with
    | zero =>
        intro _
        rw [start]
        rfl
    | succ rows ih =>
        intro bound
        rw [List.range_succ, List.foldlM_append, ih (Nat.le_of_succ_le bound)]
        have next := collectRow_dense fits dense bound (high rows bound) matBlock processedRows
        simp only [bind, Except.bind, List.foldlM_cons, next, List.foldlM_nil]
        rfl
  exact prefix_ size le_rfl

/-! ## One block -/

theorem local_columns (fits : locRow + size ≤ range.locSizeA)
    (dense : DenseLocally orig range locRow size) (positive : 0 < size)
    (high : ¬StoresLow orig range (locRow + range.posStart)) :
    (orig.cols (locRow + range.posStart)).filter (· < range.posStart + range.locSizeA) =
      List.range' (locRow + range.posStart) size := by
  have sorted := (orig.sorted (locRow + range.posStart)).pairwise.filter
    fun col => decide (col < range.posStart + range.locSizeA)
  refine sorted.sortedLT.eq_of_mem_iff (List.sortedLT_range' _ _ one_ne_zero) fun col => ?_
  rw [List.mem_filter, decide_eq_true_iff, List.mem_range'_1]
  have block := dense 0 positive col
  rw [Nat.add_zero] at block
  constructor
  · intro ⟨stored, isA⟩
    have isLocal : range.posStart ≤ col := Nat.le_of_not_lt fun low => high ⟨col, stored, low⟩
    exact (block isLocal isA).mp stored
  · intro inside
    have isA : col < range.posStart + range.locSizeA := by omega
    exact ⟨(block (by omega) isA).mpr inside, isA⟩

theorem scanRow_dense (fits : locRow + size ≤ range.locSizeA)
    (dense : DenseLocally orig range locRow size) (positive : 0 < size)
    (high : ¬StoresLow orig range (locRow + range.posStart)) :
    scanRow orig range locRow =
      { min := (locRow + range.posStart : ℕ)
        max := if size = 1 then -1 else ((locRow + range.posStart : ℕ) : ℤ) + size - 1
        bVals := (orig.row (locRow + range.posStart)).length - size } := by
  have columns := local_columns fits dense positive high
  have small : locRow + range.posStart < intMax := by
    have first : locRow + range.posStart ∈ List.range' (locRow + range.posStart) size :=
      List.mem_range'_1.mpr ⟨le_rfl, by omega⟩
    rw [← columns] at first
    obtain ⟨entry, member, same⟩ := List.mem_map.mp (List.mem_of_mem_filter first)
    rw [← same]
    exact orig.small _ entry member
  have count : ((orig.cols (locRow + range.posStart)).filter
      (range.posStart + range.locSizeA ≤ ·)).length =
        (orig.row (locRow + range.posStart)).length - size := by
    have parts := List.length_eq_length_filter_add (l := orig.cols (locRow + range.posStart))
      fun col => decide (col < range.posStart + range.locSizeA)
    have length : (orig.cols (locRow + range.posStart)).length =
        (orig.row (locRow + range.posStart)).length := List.length_map _
    have others : ((orig.cols (locRow + range.posStart)).filter
        fun col => !decide (col < range.posStart + range.locSizeA)) =
          (orig.cols (locRow + range.posStart)).filter
            (range.posStart + range.locSizeA ≤ ·) := by
      refine List.filter_congr fun col _ => ?_
      rw [← decide_not]
      exact decide_eq_decide.mpr Nat.not_lt
    rw [columns, List.length_range', others, length] at parts
    omega
  unfold scanRow
  rw [foldl_scanColumn, columns, foldl_scanColumn_range' positive (by omega) small, count]
  simp only [Nat.zero_add]

theorem size_le_length (fits : locRow + size ≤ range.locSizeA)
    (dense : DenseLocally orig range locRow size) (positive : 0 < size)
    (high : ¬StoresLow orig range (locRow + range.posStart)) :
    size ≤ (orig.row (locRow + range.posStart)).length := by
  have columns := local_columns fits dense positive high
  calc size = (List.range' (locRow + range.posStart) size).length := List.length_range'.symm
    _ ≤ (orig.cols (locRow + range.posStart)).length := by
        rw [← columns]
        exact List.length_filter_le _ _
    _ = (orig.row (locRow + range.posStart)).length := List.length_map _

theorem assert_bind_fails {α : Type} {asserts : Bool} {condition : Prop} [Decidable condition]
    {failure : SubmatFailure} {next : Unit → Except SubmatFailure α} (fails : Fails (next ())) :
    Fails (assert asserts condition failure >>= next) := by
  unfold assert
  split
  · exact fails_error failure
  · exact fails

theorem assert_of {asserts : Bool} {condition : Prop} [Decidable condition]
    {failure : SubmatFailure} (holds : condition) :
    assert asserts condition failure = .ok () :=
  if_neg fun violated => violated.2 holds

/-- No row is collected, or one with a column before the local ones. -/
theorem processRow_fails {inverse : LocalInverse} (open_ : inverse.processedRows locRow = 0)
    (found : ℕ) (isFound : ((scanRow orig range locRow).max -
      (scanRow orig range locRow).min + 1).toNat = found)
    (bad : found = 0 ∨ ∃ i < found, StoresLow orig range (locRow + range.posStart + i)) :
    Fails (processRow orig asserts maxSizeSubmat range inverse locRow) := by
  unfold processRow
  rw [if_neg (not_not_intro open_)]
  refine assert_bind_fails (assert_bind_fails ?_)
  split
  case isTrue => exact fails_error _
  case isFalse =>
    rw [isFound]
    rcases bad with rfl | ⟨i, inside, low⟩
    · change Fails (insertInverse 0 inverse _)
      unfold insertInverse invertSubmat
      split
      · exact fails_error _
      · exact fails_error _
    · exact (foldlM_fails (List.mem_range.mpr inside) (collectRow_fails low _) _).bind _

def insertBlock (orig : OrigMatrix) (origRow iaRow size : ℕ) (ia : ℕ → ℕ → ℚ) : ℕ → ℕ → ℚ :=
  matSetValues ia (List.range' iaRow size) (memptr (Arma.inv (square size origRow orig.entry)))

def afterBlock (orig : OrigMatrix) (range : OwnershipRange) (locRow size : ℕ)
    (inverse : LocalInverse) : LocalInverse where
  ia := insertBlock orig (locRow + range.posStart) (locRow + range.posStartIA) size inverse.ia
  blocks := inverse.blocks ++ [List.range' (locRow + range.posStartIA) size]
  processedRows row := if locRow ≤ row ∧ row < locRow + size then inverse.matBlock
    else inverse.processedRows row
  matBlock := inverse.matBlock + 1

/-- What the code can invert. -/
def Detected (orig : OrigMatrix) (range : OwnershipRange) (locRow size : ℕ) : Prop :=
  2 ≤ size ∧ ∀ i < size, ¬StoresLow orig range (locRow + range.posStart + i)

theorem processRow_detected (asserts : Bool) {inverse : LocalInverse}
    (open_ : inverse.processedRows locRow = 0)
    (fits : locRow + size ≤ range.locSizeA) (dense : DenseLocally orig range locRow size)
    (small : (size : ℤ) < maxSizeSubmat)
    (regular : (square size (locRow + range.posStart) orig.entry).det ≠ 0)
    (detected : Detected orig range locRow size) :
    processRow orig asserts maxSizeSubmat range inverse locRow =
      .ok (afterBlock orig range locRow size inverse) := by
  obtain ⟨several, high⟩ := detected
  have firstHigh := high 0 (by omega)
  have notOne : size ≠ 1 := by omega
  have length := size_le_length fits dense (by omega) firstHigh
  have extent : ((locRow + range.posStart : ℕ) : ℤ) + size - 1 -
      ((locRow + range.posStart : ℕ) : ℤ) + 1 = size := by omega
  have full : ((orig.row (locRow + range.posStart)).length : ℤ) -
      ((orig.row (locRow + range.posStart)).length - size : ℕ) = size := by omega
  have nonnegative : ¬(size : ℤ) < 0 := by omega
  unfold processRow
  rw [if_neg (not_not_intro open_), scanRow_dense fits dense (by omega) firstHigh]
  simp only [if_neg notOne, extent]
  rw [assert_of full, assert_of small, if_neg nonnegative, Int.toNat_natCast,
    foldlM_collectRow fits dense high]
  have submat : square size 0 (collected orig range locRow size inverse.matBlock
      inverse.processedRows size).submat2 = square size (locRow + range.posStart) orig.entry := by
    ext i j
    simp [square, collected]
  have rows : List.range' (locRow + range.posStartIA) size ≠ [] := by
    rw [Ne, List.range'_eq_nil_iff]
    omega
  change insertInverse size inverse (collected orig range locRow size inverse.matBlock
      inverse.processedRows size) = _
  unfold insertInverse invertSubmat
  rw [submat, if_neg regular]
  exact if_neg rows

theorem processRow_undetected {inverse : LocalInverse} (open_ : inverse.processedRows locRow = 0)
    (fits : locRow + size ≤ range.locSizeA) (dense : DenseLocally orig range locRow size)
    (positive : 0 < size) (undetected : ¬Detected orig range locRow size) :
    Fails (processRow orig asserts maxSizeSubmat range inverse locRow) := by
  by_cases low : StoresLow orig range (locRow + range.posStart)
  · refine processRow_fails open_ _ rfl ?_
    rcases Nat.eq_zero_or_pos ((scanRow orig range locRow).max -
      (scanRow orig range locRow).min + 1).toNat with none | some_
    · exact Or.inl none
    · exact Or.inr ⟨0, some_, low⟩
  · have scan := scanRow_dense fits dense positive low
    by_cases one : size = 1
    · refine processRow_fails open_ _ rfl (Or.inl ?_)
      rw [scan, if_pos one]
      simp only
      omega
    · refine processRow_fails open_ size ?_ (Or.inr ?_)
      · rw [scan, if_neg one]
        simp only
        omega
      · by_contra none
        exact undetected ⟨by omega, fun i inside low => none ⟨i, inside, low⟩⟩

end SchurComplement

end Flow123d
